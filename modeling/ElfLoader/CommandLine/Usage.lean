/-!
# Command lines that start nothing

A command line that makes no sense is refused for one of the causes in
`ElfLoader.UsageError`. Asking for help or for the version also ends there: nothing is
started then either, but it is no mistake (`ElfLoader.UsageError.isMistake`).
-/

namespace ElfLoader

/-- Why a command line starts nothing. -/
inductive UsageError where
  /-- A word is no argument that is known here. -/
  | unknownArgument
  /-- A value is missing, or is not one of the choices. -/
  | invalidValue
  /-- A value is not what it should be. -/
  | malformedValue
  /-- A word is no command that is known here. -/
  | unknownCommand
  /-- An argument that has to be there is missing. -/
  | missingArgument
  /-- An argument is given twice. -/
  | repeatedArgument
  /-- A value is given to an argument that takes none. -/
  | unwantedValue
  /-- No command is given. -/
  | missingCommand
  /-- Help is asked for. -/
  | help
  /-- The version is asked for. -/
  | version
  deriving DecidableEq, Repr, Inhabited

namespace UsageError

/-- Whether a user who gets no further has made a mistake. -/
def isMistake : UsageError → Bool
  | help | version => false
  | _ => true

/-- The code that the program ends with. -/
def exitCode (e : UsageError) : UInt32 := if e.isMistake then 2 else 0

/-- The cause in words. -/
def text : UsageError → String
  | unknownArgument => "unexpected argument"
  | invalidValue => "a value is missing or is not one of the choices"
  | malformedValue => "a value is not what it should be"
  | unknownCommand => "unknown command"
  | missingArgument => "a required argument is missing"
  | repeatedArgument => "an argument is given twice"
  | unwantedValue => "a value is given to an argument that takes none"
  | missingCommand => "a command is missing"
  | help => "usage: simrtld [options] executable"
  | version => "simrtld 0.1.0"

end UsageError

end ElfLoader
