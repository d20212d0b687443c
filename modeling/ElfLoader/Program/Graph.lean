import ElfLoader.KeyTable
import ElfLoader.Object.Basic
import ElfLoader.Space.Memory

/-!
# Loaded objects

The objects of a program form a graph: an object points to those it needs. An
`ElfLoader.ObjectGraph` keeps them in load order, the executable first, and knows
every name by which an object has been asked for: the name it was first needed
under, the name it gives itself, and the canonical path of its file. A name once
given keeps its meaning.

`ElfLoader.Node.mapInto` puts the segments of an object into memory.
-/

namespace ElfLoader

/-! ### Nodes -/

/-- An object with its place in memory and in the graph. -/
structure Node where
  /-- The position in load order. -/
  key : Key
  /-- The name that the object was first asked for under. -/
  name : String
  /-- The object. -/
  object : Object
  /-- What is added to link time addresses, in 32 bits. -/
  base : UInt32
  /-- The objects that this one needs, in the order in which it names them. -/
  deps : List Key

namespace Node

variable (n : Node)

/-- The address in memory of a link time address. -/
def relocate (address : UInt32) : UInt32 := n.base + address

/-- The addresses that the object takes in memory. -/
def range : Span := ⟨n.relocate n.object.extent.start, n.object.extent.size⟩

/-- Puts one segment into memory: the bytes from the file, and zeros behind them. -/
def mapSegment (s : LoadSegment) : Stage Memory Unit := do
  let start := n.relocate s.memory.start
  let bytes ← n.object.file.slice s.file.start.toNat s.file.size.toNat
  Stage.attempt fun m => m.write start bytes.data.toList
  let zeros := s.memory.size - s.file.size
  if zeros = 0 then return ()
  else Stage.attempt fun m => m.fill (start + s.file.size) zeros.toNat 0

/-- Puts segments into memory, one after the other. -/
def mapSegments : List LoadSegment → Stage Memory Unit
  | [] => pure ()
  | s :: rest => do
    n.mapSegment s
    mapSegments rest

/-- Puts the object into memory. -/
def mapInto : Stage Memory Unit := n.mapSegments n.object.loads

end Node

/-! ### The graph -/

/-- The loaded objects. -/
structure ObjectGraph where
  /-- The objects in load order. -/
  nodes : Array Node
  /-- All names. -/
  names : KeyTable
  deriving Inhabited

namespace ObjectGraph

/-- No objects. -/
def empty : ObjectGraph := ⟨#[], .empty⟩

variable (g : ObjectGraph)

/-- How many objects there are. -/
def size : Nat := g.nodes.size

/-- Whether there is no object. -/
def isEmpty : Bool := g.nodes.isEmpty

/-- The key of the next object. -/
def nextKey : Key := Key.ofNat g.size

/-- The objects in load order. -/
def toList : List Node := g.nodes.toList

/-- The executable. -/
def root? : Option Node := g.nodes[0]?

/-- The object that a name stands for. -/
def find? (name : String) : Option Key := g.names.find? name

/-- The object of a key. -/
def get? (key : Key) : Option Node := g.nodes[key.toNat]?

/-- The name of the object of a key. -/
def nameOf (key : Key) : String :=
  match g.get? key with
  | some n => n.name
  | none => ""

/-- Adds an object under its name, which should be new. -/
def insert (n : Node) : Except LoadError (Key × ObjectGraph) :=
  match g.names.insert n.name with
  | some (key, names) => .ok (key, ⟨g.nodes.push n, names⟩)
  | none => .error (.corrupt n.object.path .tooManyLibraries)

/-- One more name for an object. Gives the object that the name stands for now. -/
def insertAlias (name : String) (key : Key) : Key × ObjectGraph :=
  let (known, names) := g.names.insertAlias name key
  (known, { g with names })

/-- The list of needed objects with one more, unless it is there already. -/
def withDep (deps : List Key) (dep : Key) : List Key :=
  if dep ∈ deps then deps else deps ++ [dep]

/-- Lets one object need another one. -/
def addEdge (user dep : Key) : ObjectGraph :=
  { g with nodes := g.nodes.modify user.toNat fun n => { n with deps := withDep n.deps dep } }

@[simp] theorem names_addEdge (user dep : Key) : (g.addEdge user dep).names = g.names := rfl

@[simp] theorem size_names_insertAlias (name : String) (key : Key) :
    (g.insertAlias name key).2.names.size = g.names.size := by
  simp [insertAlias]

/-- **A new name takes up one key**, and there must be one left. -/
theorem size_names_insert {n : Node} {key : Key} {g' : ObjectGraph}
    (new : g.find? n.name = none) (h : g.insert n = .ok (key, g')) :
    g.names.size < KeyTable.capacity ∧ g'.names.size = g.names.size + 1 := by
  unfold insert KeyTable.insert at h
  rw [show g.names.find? n.name = none from new] at h
  dsimp only at h
  by_cases room : g.names.size < KeyTable.capacity
  · rw [if_pos room] at h
    obtain ⟨-, rfl⟩ := Prod.mk.injEq .. ▸ (Except.ok.injEq .. ▸ h)
    exact ⟨room, by simp [KeyTable.size]⟩
  · rw [if_neg room] at h
    cases h

end ObjectGraph

end ElfLoader
