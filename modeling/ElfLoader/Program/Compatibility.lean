import ElfLoader.Program.Needs

/-!
# Compatible versions

A version that an object needs from a loaded library has to be defined there. A
library without any versions, and a need that is weak, are excused with a notice;
needs from files that are not loaded do not count. `ElfLoader.ObjectGraph.checkNeeds`
goes through all needs, in load order and by version index, up to the first that is
not met.
-/

namespace ElfLoader.ObjectGraph

variable (g : ObjectGraph)

/-- What becomes of a need of an object from a library. -/
def checkNeed (asker library : Node) (need : VersionNeed) : Report Unit :=
  if library.object.versions.defines need.name then pure ()
  else if need.weak || library.object.versions.isUnversioned then
    Report.note (.versionMissing library.name need.name asker.name)
  else Report.fail (.versionMismatch none need.name library.name asker.name)

/-- The library that a need names, if it is loaded. -/
def libraryFor? (need : VersionNeed) : Option Node := (g.find? need.file).bind g.get?

/-- All needs, each with the object that has it, in load order and by version index. -/
def needs : List (Node × VersionNeed) :=
  g.toList.flatMap fun n => n.object.versions.needs.toList.map fun e => (n, e.2)

/-- Checks needs one after the other. -/
def checkAll : List (Node × VersionNeed) → Report Unit
  | [] => pure ()
  | (asker, need) :: rest => do
    match g.libraryFor? need with
    | none => pure ()
    | some library => checkNeed asker library need
    checkAll rest

/-- **Checks all needs.** -/
def checkNeeds : Report Unit := g.checkAll g.needs

end ElfLoader.ObjectGraph
