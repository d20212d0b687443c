import ElfLoader.CommandLine.Commands

/-!
# The commands of the inspector

Once a program is loaded, a user can look at it. `ElfLoader.Command` lists what can be
asked for, and `ElfLoader.Command.parse` reads a command line.
-/

namespace ElfLoader

/-- How a table is shown. -/
structure TableStyle where
  /-- Whether it is explained. -/
  explain : Bool
  /-- Whether the columns have titles. -/
  titles : Bool
  deriving DecidableEq, Repr, Inhabited

/-- What is at the start of the lines of a dump. -/
inductive DumpLabels where
  /-- Nothing. -/
  | none
  /-- The address of the first byte of the line. -/
  | address
  /-- How far the first byte of the line is from the first byte of all. -/
  | offset
  deriving DecidableEq, Repr, Inhabited

namespace DumpLabels

/-- The word for the choice. -/
def name : DumpLabels → String
  | none => "none"
  | address => "addr"
  | offset => "zero"

/-- All choices. -/
def all : List DumpLabels := [none, address, offset]

/-- The choice of a word. -/
def ofName? (word : String) : Option DumpLabels := all.find? fun labels => labels.name == word

end DumpLabels

/-- What a user can ask for. -/
inductive Command where
  /-- The loaded objects. -/
  | libraries (style : TableStyle)
  /-- The regions of memory. -/
  | regions (style : TableStyle)
  /-- What starts the program. -/
  | program (explain : Bool)
  /-- The symbols that other objects can bind to, of one library if it is named. -/
  | symbols (library : Option String) (style : TableStyle)
  /-- The bytes of memory from an address on. -/
  | dump (address count : Nat) (labels : DumpLabels)
  /-- The end. -/
  | quit
  deriving DecidableEq, Repr, Inhabited

namespace Command

/-! ### How commands are written -/

/-- Asks for an explanation. -/
def explainRule : OptionRule := ⟨"explain", some 'e', .flag⟩

/-- Asks for titles. -/
def titlesRule : OptionRule := ⟨"titles", some 't', .flag⟩

/-- The arguments of a command that shows a table. -/
def tableGrammar : Grammar := ⟨[explainRule, titlesRule, .help], none⟩

/-- The arguments of the command that shows what starts the program. -/
def programGrammar : Grammar := ⟨[explainRule, .help], none⟩

/-- The arguments of the command that shows symbols. -/
def symbolsGrammar : Grammar :=
  ⟨[⟨"library", some 'l', .value .text⟩, explainRule, titlesRule, .help], none⟩

/-- The arguments of the command that shows memory. -/
def dumpGrammar : Grammar :=
  ⟨[⟨"count", some 'c', .value .count⟩,
    ⟨"labels", some 'l', .value (.choice (DumpLabels.all.map DumpLabels.name))⟩, .help],
    some ⟨"addr", .number⟩⟩

/-- All commands. -/
def tree : CommandTree :=
  .commands
    [("info", .commands
      [("libraries", .arguments tableGrammar), ("regions", .arguments tableGrammar),
        ("program", .arguments programGrammar), ("symbols", .arguments symbolsGrammar)]),
      ("hexdump", .arguments dumpGrammar),
      ("quit", .arguments ⟨[.help], none⟩)]

/-! ### What commands mean -/

/-- The bytes that are shown unless a user chooses otherwise. -/
def standardCount : Nat := 16

/-- How a user wants a table to be shown. -/
def styleOf (given : Given) : TableStyle := ⟨given.has "explain", given.has "titles"⟩

/-- The labels that a user wants. -/
def labelsOf (given : Given) : DumpLabels :=
  ((given.lookup "labels").bind DumpLabels.ofName?).getD .address

/-- The command that an invocation stands for. -/
def ofInvocation (i : Invocation) : Command :=
  match i.commands with
  | ["info", "libraries"] => .libraries (styleOf i.given)
  | ["info", "regions"] => .regions (styleOf i.given)
  | ["info", "program"] => .program (i.given.has "explain")
  | ["info", "symbols"] => .symbols (i.given.lookup "library") (styleOf i.given)
  | ["hexdump"] =>
    .dump (i.given.number "addr" 0) (i.given.count "count" standardCount) (labelsOf i.given)
  | _ => .quit

/-- **The command that words stand for.** -/
def parse (words : List String) : Except UsageError Command :=
  ofInvocation <$> tree.parse words

end Command

end ElfLoader
