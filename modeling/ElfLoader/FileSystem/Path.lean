import ElfLoader.Text.Fields

/-!
# Paths

A path is a text whose components are separated by slashes. The functions here
look at the text alone, not at what it leads to.
-/

namespace ElfLoader.Path

/-- The components of a path as they are written, empty ones included. -/
def components (path : String) : List String := Fields.split '/' path

/-- Whether a path starts at the root. -/
def isAbsolute (path : String) : Bool := path.toList.head? == some '/'

/-- Whether a text contains a slash, so that it is a path and not just a name. -/
def hasSlash (name : String) : Bool := name.toList.contains '/'

/-- A name behind a directory. An absolute name stays as it is, and an empty directory
adds nothing. -/
def join (directory name : String) : String :=
  if isAbsolute name || directory.isEmpty then name
  else if directory.toList.getLast? == some '/' then directory ++ name
  else directory ++ "/" ++ name

/-- The name of the file that a path leads to. Empty components and dots do not count;
a path that ends with two dots, or has no component, names no file. -/
def fileName? (path : String) : Option String :=
  match ((components path).filter fun c => c != "" && c != ".").getLast? with
  | some ".." => none
  | name? => name?

end ElfLoader.Path
