import ElfLoader.FileSystem.Basic

/-!
# Changing a file system

The loader itself changes no file; only the style file of a user is written once.
This file has what that takes: making a directory with all that lead to it
(`ElfLoader.FileSystem.makeDirectories`) and creating a file that is not there yet
(`ElfLoader.FileSystem.createFile`).
-/

namespace ElfLoader.FileSystem

/-- Why nothing new can be put at a path. -/
inductive CreateFailure where
  /-- Something stands there already, if only a link that leads nowhere. -/
  | exists_
  /-- The directory that should hold it is not there. -/
  | parent (failure : PathFailure)
  deriving DecidableEq, Repr

/-- Adds an entry. -/
def add (fs : FileSystem) (place : Location) (entry : Entry) : FileSystem :=
  { fs with entries := fs.entries ++ [(place, entry)] }

/-- The directory part of a path and the name in it. -/
def parentAndName (path : String) : String × String :=
  let cs := Path.components path
  let name := (cs.getLast?).getD ""
  match cs.dropLast with
  | [] => (".", name)
  | [""] => ("/", name)
  | parents => ("/".intercalate parents, name)

/-- The location for something new at a path. The last component is not followed. -/
def vacancy (fs : FileSystem) (path : String) : Except CreateFailure Location :=
  let (parent, name) := parentAndName path
  match fs.locate parent with
  | .error e => .error (.parent e)
  | .ok place =>
    match fs.entry? place with
    | some .directory =>
      match fs.entry? (place ++ [name]) with
      | none => .ok (place ++ [name])
      | some _ => .error .exists_
    | _ => .error (.parent .notDirectory)

/-- Creates a file that is not there yet. -/
def createFile (fs : FileSystem) (path : String) (content : ByteArray) :
    Except CreateFailure FileSystem := do
  return fs.add (← fs.vacancy path) (.file content)

/-- Makes one directory; one that is there already is fine. -/
def makeDirectory (fs : FileSystem) (path : String) : Except CreateFailure FileSystem :=
  match fs.vacancy path with
  | .ok place => .ok (fs.add place .directory)
  | .error e => if fs.isDirectory path then .ok fs else .error e

/-- Makes a chain of directories, each one in the one before it. -/
def makeDirectories (fs : FileSystem) : List String → Except CreateFailure FileSystem
  | [] => .ok fs
  | path :: rest => do (← fs.makeDirectory path).makeDirectories rest

end ElfLoader.FileSystem
