import ElfLoader.FileSystem.Basic
import ElfLoader.Text.Occurrence

/-!
# The library search path

Shared objects that a program needs are looked for in an ordered list of
directories (`ElfLoader.LibraryPath`). The list comes from the command line or from
the environment (`ElfLoader.LibraryPath.ofVariables`), written with colons between
the directories (`ElfLoader.LibraryPath.parse`).

`ElfLoader.LibraryPath.find?` has the rule of the search. A name with a slash is a
path. Any other name is looked for in one directory after the other, and the first
directory with a match decides: a file of exactly that name, and failing that the
file with the least name among those whose name contains the one looked for, so that
`libm.so` finds `libm.so.6`.
-/

namespace ElfLoader

/-- An ordered list of directories. -/
structure LibraryPath where
  /-- The directories, in the order of the search. -/
  directories : List String
  deriving DecidableEq, Repr, Inhabited

/-- The variables of the environment, by name. -/
abbrev Environment := List (String × String)

namespace LibraryPath

/-- No directory. -/
def empty : LibraryPath := ⟨[]⟩

/-- The variables that can hold the search path; the first one that is set counts. -/
def variableNames : List String := ["SIMRTLD_LIBRARY_PATH", "AC_LIBRARY_PATH"]

/-- The directories in a text with colons between them. Empty ones are left out. -/
def parse (text : String) : LibraryPath :=
  ⟨(Fields.split ':' text).filter fun d => !d.isEmpty⟩

/-- The search path in the first of the named variables that is set. -/
def ofVariables (environment : Environment) (names : List String) : LibraryPath :=
  ((names.findSome? fun name => environment.lookup name).map parse).getD empty

/-! ### The search -/

/-- The least text of a list. -/
def least? : List String → Option String
  | [] => none
  | name :: rest =>
    match least? rest with
    | none => some name
    | some other => if other < name then some other else some name

/-- The file that a directory has for a name. -/
def findIn? (fs : FileSystem) (name directory : String) : Option String :=
  let exact := Path.join directory name
  if fs.isFile exact then some exact
  else
    let candidates := (fs.names directory).filter fun n =>
      occursIn name.toList n.toList && fs.isFile (Path.join directory n)
    (least? candidates).map (Path.join directory)

/-- **The file found for a name.** -/
def find? (path : LibraryPath) (fs : FileSystem) (name : String) : Option String :=
  if Path.hasSlash name then
    if fs.isFile name then some name else none
  else path.directories.findSome? (findIn? fs name)

end LibraryPath

end ElfLoader
