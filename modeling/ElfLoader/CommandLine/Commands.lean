import ElfLoader.CommandLine.Grammar

/-!
# Commands of commands

A command either takes arguments or is followed by another command. Wherever a command
is expected it can be cut short, as long as no other command starts like that. Among
the commands at a place there is always `help`, which can be followed by commands in
full and asks for help on them.
-/

namespace ElfLoader

/-- What can follow a command. -/
inductive CommandTree where
  /-- Arguments. -/
  | arguments (grammar : Grammar)
  /-- One of some commands. -/
  | commands (choices : List (String × CommandTree))
  deriving Inhabited

/-- A command line that makes sense: the commands in full, and the arguments of the last
one. -/
structure Invocation where
  /-- The commands. -/
  commands : List String
  /-- The arguments. -/
  given : Given
  deriving DecidableEq, Repr, Inhabited

namespace CommandTree

/-- The command that asks for help. -/
def helpName : String := "help"

/-- What follows the command that asks for help. -/
def helpTree : CommandTree := commands []

/-- The commands at a place, the one that asks for help included. -/
def withHelp (choices : List (String × CommandTree)) : List (String × CommandTree) :=
  choices ++ [(helpName, helpTree)]

/-- Whether a word is a command cut short. -/
def shortens (word : String) (choice : String × CommandTree) : Bool :=
  word.toList.isPrefixOf choice.1.toList

/-- The command that a word stands for. -/
def choose? (choices : List (String × CommandTree)) (word : String) :
    Option (String × CommandTree) :=
  match choices.filter (shortens word) with
  | [only] => some only
  | _ => choices.find? fun c => c.1 == word

/-- What becomes of a request for help. -/
def help : List String → CommandTree → UsageError
  | [], _ => .help
  | _ :: _, arguments _ => .unknownCommand
  | word :: rest, commands choices =>
    match (withHelp choices).lookup word with
    | none => .unknownCommand
    | some t =>
      if word = helpName then if rest.isEmpty then .help else .unknownCommand
      else help rest t

/-- What becomes of a word that is no command where one is expected. -/
def misfit (word : String) : UsageError :=
  match Word.named? word, Word.letters? word with
  | some (name, none), _ => if name = OptionRule.help.name then .help else .unknownArgument
  | some (name, some _), _ =>
    if name = OptionRule.help.name then .unwantedValue else .unknownArgument
  | none, some (c :: _) => if OptionRule.help.letter = some c then .help else .unknownArgument
  | none, _ => .unknownCommand

/-- What becomes of words behind two dashes where a command is expected. -/
def misfitBehind (choices : List (String × CommandTree)) : List String → UsageError
  | [] => .missingCommand
  | word :: _ =>
    if (choose? (withHelp choices) word).isSome then .unknownArgument else .unknownCommand

/-- **Reads a command line.** -/
def parse : List String → CommandTree → Except UsageError Invocation
  | words, arguments grammar => do return ⟨[], ← grammar.parse words⟩
  | [], commands _ => .error .missingCommand
  | word :: rest, commands choices =>
    match choose? (withHelp choices) word with
    | some (name, t) =>
      if name = helpName then .error (help rest (commands choices))
      else do
        let i ← parse rest t
        return ⟨name :: i.commands, i.given⟩
    | none =>
      if word = Word.endOfOptions then .error (misfitBehind choices rest)
      else .error (misfit word)

end CommandTree

end ElfLoader
