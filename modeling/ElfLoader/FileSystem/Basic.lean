import ElfLoader.FileSystem.Path

/-!
# File systems

The loader reads files, looks through directories and follows symbolic links. A
`ElfLoader.FileSystem` is what it sees: a finite assignment of entries to absolute
locations, and the location that relative paths start from. It does not change
while a program is loaded.

* `ElfLoader.FileSystem.locate` – where a path leads once all links are followed;
* `ElfLoader.FileSystem.read` – the content of the file that a path leads to;
* `ElfLoader.FileSystem.isFile`, `ElfLoader.FileSystem.isDirectory` – what a path
  leads to;
* `ElfLoader.FileSystem.names` – the names in a directory that can be listed;
* `ElfLoader.FileSystem.canonical?` – the one absolute path without links that
  leads to the same place.
-/

namespace ElfLoader

/-- A place in the tree: the names on the way to it from the root. -/
abbrev Location := List String

/-- What stands at a location. -/
inductive Entry where
  /-- A regular file. -/
  | file (content : ByteArray)
  /-- A directory; its names are those of the locations below it. -/
  | directory
  /-- A symbolic link to a path. -/
  | link (target : String)
  deriving Inhabited

/-- Why a path leads nowhere. -/
inductive PathFailure where
  /-- A component does not exist. -/
  | notFound
  /-- A component that is no directory has something behind it. -/
  | notDirectory
  /-- Too many links were followed. -/
  | tooManyLinks
  /-- A component, or the path as a whole, is too long. -/
  | tooLong
  /-- The path contains a character that no path can contain. -/
  | invalid
  /-- The path leads to a directory, but a file is wanted. -/
  | isDirectory
  deriving DecidableEq, Repr

/-- A tree of files and the place to start from. -/
structure FileSystem where
  /-- The entries below the root, each at its location. -/
  entries : List (Location × Entry)
  /-- Where relative paths start. -/
  home : Location
  /-- The directories that may be passed through but not listed. -/
  unreadable : List Location
  deriving Inhabited

namespace FileSystem

/-- What stands at a location; at the root there is a directory. -/
def entry? (fs : FileSystem) (place : Location) : Option Entry :=
  if place.isEmpty then some .directory else fs.entries.lookup place

/-- The number of links that are followed on the way to a place. -/
def maxLinks : Nat := 40

/-- A component is at most this many bytes long. -/
def maxComponent : Nat := 255

/-- A path is shorter than this many bytes. -/
def maxPath : Nat := 4096

/-! ### Following a path -/

/-- How far a path leads without following a link. -/
inductive Walk where
  /-- To a place that is no link. -/
  | arrived (place : Location)
  /-- To a link in a directory, with components left behind it. -/
  | link (directory : Location) (target : String) (rest : List String)

/-- Follows components from a place until they end or the first link is met. What has
a component behind it must be a directory, even if the component is empty or a dot. -/
def walk (fs : FileSystem) (place : Location) : List String → Except PathFailure Walk
  | [] => .ok (.arrived place)
  | c :: rest =>
    match fs.entry? place with
    | some .directory =>
      if c = "" ∨ c = "." then fs.walk place rest
      else if c = ".." then fs.walk place.dropLast rest
      else if maxComponent < c.utf8ByteSize then .error .tooLong
      else match fs.entry? (place ++ [c]) with
        | none => .error .notFound
        | some (.link target) => .ok (.link place target rest)
        | some _ => fs.walk (place ++ [c]) rest
    | _ => .error .notDirectory

/-- Where a path starts. -/
def origin (directory : Location) (path : String) : Location :=
  if Path.isAbsolute path then [] else directory

/-- Follows components, and as many links as the budget allows. -/
def follow (fs : FileSystem) : Nat → Location → List String → Except PathFailure Location
  | budget, place, components => do
    match ← fs.walk place components with
    | .arrived place => .ok place
    | .link directory target rest =>
      match budget with
      | 0 => .error .tooManyLinks
      | budget + 1 =>
        fs.follow budget (origin directory target) (Path.components target ++ rest)

/-- **Where a path leads**, all links followed. -/
def locate (fs : FileSystem) (path : String) : Except PathFailure Location :=
  if path.isEmpty then .error .notFound
  else if path.toList.contains '\x00' then .error .invalid
  else if maxPath ≤ path.utf8ByteSize then .error .tooLong
  else fs.follow maxLinks (origin fs.home path) (Path.components path)

/-! ### Questions about a path -/

/-- What a path leads to. -/
def resolve? (fs : FileSystem) (path : String) : Option Entry :=
  (fs.locate path).toOption.bind fs.entry?

/-- The content of the file that a path leads to. -/
def read (fs : FileSystem) (path : String) : Except PathFailure ByteArray := do
  match fs.entry? (← fs.locate path) with
  | some (.file content) => .ok content
  | some _ => .error .isDirectory
  | none => .error .notFound

/-- Whether a path leads to a regular file. -/
def isFile (fs : FileSystem) (path : String) : Bool :=
  match fs.resolve? path with
  | some (.file _) => true
  | _ => false

/-- Whether a path leads to a directory. -/
def isDirectory (fs : FileSystem) (path : String) : Bool :=
  match fs.resolve? path with
  | some .directory => true
  | _ => false

/-- The name that an entry has in a directory, if it stands there. -/
def nameIn? (directory place : Location) : Option String :=
  if place.dropLast = directory then place.getLast? else none

/-- The names in the directory that a path leads to; none if it leads to no directory, or to
one that cannot be listed. -/
def names (fs : FileSystem) (path : String) : List String :=
  match fs.locate path with
  | .error _ => []
  | .ok place =>
    if fs.isDirectory path && !fs.unreadable.contains place then
      fs.entries.filterMap fun e => nameIn? place e.1
    else []

/-- The absolute path of a location. -/
def pathOf (place : Location) : String := "/" ++ "/".intercalate place

/-- The absolute path without links that leads to the same place. -/
def canonical? (fs : FileSystem) (path : String) : Option String :=
  (fs.locate path).toOption.map pathOf

/-- The absolute path without links that leads to the same place, or the path itself if
it leads nowhere. -/
def canonical (fs : FileSystem) (path : String) : String :=
  (fs.canonical? path).getD path

end FileSystem

end ElfLoader
