import ElfLoader.CommandLine.Usage
import ElfLoader.Text.Numeral

/-!
# The arguments of a command

A command takes options and at most one operand. An `ElfLoader.Grammar` lists them,
and `ElfLoader.Grammar.parse` reads the words of a command line. An option is written
with two dashes and its name, or with one dash and its letter; letters can be run
together. Its value is the next word, or stands behind the name and an equals sign, or
right behind the letter. After two dashes alone, all words are operands.

The words are read from left to right, and the first mistake counts. A word that may
be a value is looked at only when the argument after it is known to be one
(`ElfLoader.Scan.settle`): an unknown option is reported even if the value before it
makes no sense.
-/

namespace ElfLoader

/-! ### What there is to give -/

/-- What a value has to be. -/
inductive ValueKind where
  /-- Anything. -/
  | text
  /-- A path, which is not empty. -/
  | path
  /-- A number, decimal or hexadecimal. -/
  | number
  /-- A decimal number. -/
  | count
  /-- One of some words. -/
  | choice (words : List String)
  deriving DecidableEq, Repr, Inhabited

/-- Refuses a value that is not what it has to be. -/
def ValueKind.check (value : String) : ValueKind → Except UsageError Unit
  | text => .ok ()
  | path => if value.isEmpty then .error .invalidValue else .ok ()
  | number => if (Numeral.address? value).isSome then .ok () else .error .malformedValue
  | count => if (Numeral.decimal? value).isSome then .ok () else .error .malformedValue
  | choice words => if value ∈ words then .ok () else .error .invalidValue

/-- What an option does. -/
inductive OptionRole where
  /-- It is there or not. -/
  | flag
  /-- It gives a value. -/
  | value (kind : ValueKind)
  /-- It asks for help. -/
  | help
  /-- It asks for the version. -/
  | version
  deriving DecidableEq, Repr, Inhabited

/-- An option. -/
structure OptionRule where
  /-- Its name, behind two dashes. -/
  name : String
  /-- Its letter, behind one dash. -/
  letter : Option Char
  /-- What it does. -/
  role : OptionRole
  deriving DecidableEq, Repr, Inhabited

/-- An operand, which must be given. -/
structure OperandRule where
  /-- What it is called. -/
  name : String
  /-- What it has to be. -/
  kind : ValueKind
  deriving DecidableEq, Repr, Inhabited

/-- The arguments of a command. -/
structure Grammar where
  /-- The options. -/
  options : List OptionRule
  /-- The operand. -/
  operand : Option OperandRule
  deriving DecidableEq, Repr, Inhabited

/-- Every command can be asked for help. -/
def OptionRule.help : OptionRule := ⟨"help", some 'h', .help⟩

/-- A program can be asked for its version. -/
def OptionRule.version : OptionRule := ⟨"version", some 'V', .version⟩

/-! ### How words look -/

namespace Word

/-- The word that ends the options. -/
def endOfOptions : String := "--"

/-- The name and the value of a word that looks like a named option. -/
def named? (word : String) : Option (String × Option String) :=
  match word.toList with
  | '-' :: '-' :: [] => none
  | '-' :: '-' :: rest =>
    let name := String.ofList (rest.takeWhile (· ≠ '='))
    match rest.dropWhile (· ≠ '=') with
    | [] => some (name, none)
    | _ :: value => some (name, some (String.ofList value))
  | _ => none

/-- The letters of a word that looks like options given by letters. -/
def letters? (word : String) : Option (List Char) :=
  match word.toList with
  | '-' :: '-' :: _ => none
  | '-' :: c :: rest => some (c :: rest)
  | _ => none

/-- The value that follows the letter of an option in its word. -/
def attached? : List Char → Option String
  | [] => none
  | '=' :: value => some (String.ofList value)
  | value => some (String.ofList value)

end Word

/-! ### Reading -/

/-- An argument whose value has not been looked at. -/
structure Pending where
  /-- The name of the argument. -/
  name : String
  /-- What its value has to be. -/
  kind : ValueKind
  /-- The value, once it is there. -/
  value : Option String
  deriving DecidableEq, Repr, Inhabited

/-- The arguments that were given, by name; flags have the empty value. -/
abbrev Given := List (String × String)

/-- How far a command line has been read. -/
structure Scan where
  /-- The arguments that are accepted. -/
  given : Given
  /-- The argument that was read last. -/
  pending : Option Pending
  /-- Whether the next word can be the value of the argument that was read last. -/
  awaiting : Bool
  /-- Whether the operand is there. -/
  filled : Bool
  /-- Whether only operands follow. -/
  operandsOnly : Bool
  deriving DecidableEq, Repr, Inhabited

namespace Scan

/-- Nothing is read yet. -/
def start : Scan := ⟨[], none, false, false, false⟩

variable (s : Scan)

/-- Accepts an argument that has not been given before. -/
def accept (name value : String) : Except UsageError Scan :=
  if (s.given.lookup name).isSome then .error .repeatedArgument
  else .ok { s with given := s.given ++ [(name, value)], awaiting := false }

/-- Accepts the argument that was read last, if its value is there and what it has to
be. -/
def settle : Except UsageError Scan :=
  match s.pending with
  | none => .ok s
  | some p =>
    match p.value with
    | none => .error .invalidValue
    | some value => do
      let s ← accept { s with pending := none } p.name value
      p.kind.check value
      return s

/-- Reads an option, with the value that its word gives it. -/
def option (rule : OptionRule) (value : Option String) : Except UsageError Scan := do
  let s ← s.settle
  match rule.role, value with
  | .flag, _ => s.accept rule.name ""
  | .value kind, some v => settle { s with pending := some ⟨rule.name, kind, some v⟩ }
  | .value kind, none =>
    return { s with pending := some ⟨rule.name, kind, none⟩, awaiting := true }
  | .help, _ => throw .help
  | .version, _ => throw .version

/-- Reads an operand. -/
def operand (g : Grammar) (word : String) : Except UsageError Scan :=
  match g.operand with
  | none => .error .unknownArgument
  | some rule =>
    if s.filled then .error .unknownArgument
    else do
      let s ← s.settle
      return { s with
        pending := some ⟨rule.name, rule.kind, some word⟩, awaiting := false, filled := true }

/-- Reads the value of the argument that was read last. -/
def supply (word : String) : Scan :=
  { s with pending := s.pending.map fun p => { p with value := some word }, awaiting := false }

end Scan

namespace Grammar

variable (g : Grammar)

/-- Reads an option that is given by its name. -/
def named (s : Scan) (name : String) (value : Option String) : Except UsageError Scan :=
  match g.options.find? fun rule => rule.name == name with
  | none => .error .unknownArgument
  | some rule =>
    match rule.role, value with
    | .value _, _ | _, none => s.option rule value
    | _, some _ => .error .unwantedValue

/-- Reads options that are given by their letters. What follows the letter of an option
with a value is the value. -/
def lettered (s : Scan) : List Char → Except UsageError Scan
  | [] => .ok s
  | c :: rest =>
    match g.options.find? fun rule => rule.letter == some c with
    | none => .error .unknownArgument
    | some rule =>
      match rule.role with
      | .value _ => s.option rule (Word.attached? rest)
      | _ => do lettered (← s.option rule none) rest

/-- Reads a word that is no option. -/
def plain (s : Scan) (word : String) : Except UsageError Scan :=
  if s.awaiting then .ok (s.supply word) else s.operand g word

/-- Reads a word. -/
def word (s : Scan) (word : String) : Except UsageError Scan :=
  if s.operandsOnly then s.operand g word
  else if word = Word.endOfOptions then .ok { s with operandsOnly := true }
  else
    match Word.named? word, Word.letters? word with
    | some (name, value), _ => g.named s name value
    | none, some letters => g.lettered s letters
    | none, none => g.plain s word

/-- Refuses to go on without the operand. -/
def checkOperand (given : Given) : Except UsageError Given :=
  match g.operand with
  | none => .ok given
  | some rule => if (given.lookup rule.name).isSome then .ok given else .error .missingArgument

/-- **Reads a command line.** -/
def parse (words : List String) : Except UsageError Given := do
  let s ← words.foldlM g.word Scan.start
  g.checkOperand (← s.settle).given

end Grammar

/-! ### What was given -/

namespace Given

variable (given : Given)

/-- Whether an argument is there. -/
def has (name : String) : Bool := (given.lookup name).isSome

/-- The number that is given, or another one if none is. -/
def number (name : String) (otherwise : Nat) : Nat :=
  ((given.lookup name).bind Numeral.address?).getD otherwise

/-- The decimal number that is given, or another one if none is. -/
def count (name : String) (otherwise : Nat) : Nat :=
  ((given.lookup name).bind Numeral.decimal?).getD otherwise

end Given

end ElfLoader
