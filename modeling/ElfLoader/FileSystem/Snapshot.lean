import ElfLoader.FileSystem.Edit

/-!
# Snapshots of a host's files

The loader works on a `ElfLoader.FileSystem`, a value. A snapshot is such a value with
the few files that matter: each file that was read from the host is put into it
(`ElfLoader.FileSystem.record`) where the host has it, with a link from where it was
asked for if that is somewhere else.
-/

namespace ElfLoader.FileSystem

/-- A snapshot without files, with the place where relative paths start. All of its directories
can be listed. -/
def bare (home : Location) : FileSystem := ⟨[], home, []⟩

/-- The location that the text of a path says, dots resolved without following links. -/
def lexical (home : Location) (path : String) : Location :=
  (Path.components path).foldl
    (fun place c =>
      if c = "" ∨ c = "." then place else if c = ".." then place.dropLast else place ++ [c])
    (origin home path)

/-- Adds an entry, unless something is there already. -/
def addNew (fs : FileSystem) (place : Location) (entry : Entry) : FileSystem :=
  if (fs.entry? place).isSome then fs else fs.add place entry

/-- Adds the directories on the way to a location. -/
def addParents (fs : FileSystem) (place : Location) : FileSystem :=
  (List.range place.length).foldl (fun fs n => fs.addNew (place.take n) .directory) fs

/-- Adds a file that the host has at the absolute path `real`, and that `path` leads to. -/
def record (fs : FileSystem) (path real : String) (content : ByteArray) : FileSystem :=
  let place := lexical [] real
  let asked := lexical fs.home path
  let fs := (fs.addParents place).addNew place (.file content)
  (fs.addParents asked).addNew asked (.link (pathOf place))

end ElfLoader.FileSystem
