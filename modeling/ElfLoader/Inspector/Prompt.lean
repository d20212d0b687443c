/-!
# The prompt of the inspector

What a user sees before and around a command that is being typed
(`ElfLoader.Prompt`), and how the command itself is colored (`ElfLoader.highlight`).
-/

namespace ElfLoader

/-- The texts and colors around a command that is being typed. -/
structure Prompt where
  /-- What stands before the command. -/
  left : String
  /-- What stands at the end of the line. -/
  right : String
  /-- What separates the left text from the command. -/
  indicator : String
  /-- What stands before the further lines of a command. -/
  continuation : String
  /-- The color of the left text. -/
  color : String
  /-- The color of the indicator. -/
  indicatorColor : String
  deriving DecidableEq, Repr, Inhabited

namespace Prompt

/-- The prompt of the inspector. -/
def standard : Prompt where
  left := "simrtld"
  right := ""
  indicator := "> "
  continuation := "::: "
  color := "DarkBlue"
  indicatorColor := "Black"

/-- What stands before the command while earlier commands are searched for a term. -/
def search (passing : Bool) (term : String) : String :=
  let failing := if passing then "" else "failing "
  s!"({failing}reverse-search: {term}) "

end Prompt

/-- The color of a command that is being typed. -/
def commandColor : String := "Blue"

/-- A command that is being typed, in pieces of one color. -/
def highlight (line : String) : List (String × String) := [(commandColor, line)]

end ElfLoader
