import ElfLoader.Program.Loader

/-!
# Placing objects

An object that has been opened is *settled* and *enrolled*. Settling reserves its
addresses and puts its segments into memory: a shared object goes to the lowest
addresses that are free, an executable to those it was linked for. Enrolling adds it
to the graph with all its names. What was reserved and written stays, should a later
step fail.
-/

namespace ElfLoader.Loader

/-- Refuses an object for another processor, or of another byte order than the
executable. -/
def admissible (l : Loader) (o : Object) : Except LoadError Unit := do
  ensure (o.header.machine = l.processor.machine)
    (.unsupportedMachine o.path o.header.machine l.processor.machine)
  match l.graph.root? with
  | none => return ()
  | some root =>
    ensure (o.file.order = root.object.file.order) (.notLoadable o.path (.otherOrder root.name))

/-- The addresses for an object. -/
def reserveFor (l : Loader) (key : Key) (o : Object) : Except LoadError (UInt32 × AddressMap) :=
  if o.isShared then
    l.map.reserveAnywhere o.extent.size l.config.pageSize (.object key)
  else do
    return (o.extent.start, ← l.map.reserve o.extent.start o.extent.size (.object key))

/-- What is said about an object that has been placed. -/
def placementNotices (n : Node) (address : UInt32) : List Notice :=
  .placed n.name address n.object.path ::
    n.object.loads.map fun s =>
      .segmentPlaced (n.relocate s.memory.start) s.memory.size s.flagsText

/-- Reserves addresses for an object and puts it into memory. -/
def settle (name : String) (o : Object) : Work Node := fun l =>
  let key := l.graph.nextKey
  match l.reserveFor key o with
  | .error e => ⟨.error e, l, []⟩
  | .ok (address, map) =>
    let n : Node := ⟨key, name, o, address - o.extent.start, []⟩
    let mapped := n.mapInto.run l.memory
    let l := { l with map, memory := mapped.state }
    match mapped.result with
    | .error e => ⟨.error e, l, mapped.notices⟩
    | .ok () =>
      ⟨.ok n, l, mapped.notices ++ if l.config.verbose then placementNotices n address else []⟩

/-- The graph with two more names for an object: its path and the name it gives itself. -/
def withNames (g : ObjectGraph) (key : Key) (path : String) (soname : Option String) :
    ObjectGraph :=
  let g := (g.insertAlias path key).2
  match soname with
  | none => g
  | some name => (g.insertAlias name key).2

/-- Adds an object to the graph. -/
def enroll (fs : FileSystem) (n : Node) : Work Key := fun l =>
  match l.graph.insert n with
  | .error e => ⟨.error e, l, []⟩
  | .ok (key, graph) =>
    let path := fs.canonical n.object.path
    ⟨.ok key, { l with graph := withNames graph key path n.object.soname }, []⟩

/-- Places an object under a name. -/
def place (fs : FileSystem) (name : String) (o : Object) : Work Key := do
  enroll fs (← settle name o)

/-! ### What placing does to the names -/

@[simp] theorem size_names_withNames (g : ObjectGraph) (key : Key) (path : String)
    (soname : Option String) : (withNames g key path soname).names.size = g.names.size := by
  unfold withNames
  cases soname <;> simp

/-- Settling leaves the graph alone. -/
theorem graph_settle (name : String) (o : Object) (l : Loader) :
    ((settle name o).run l).state.graph = l.graph := by
  unfold settle Stage.run
  dsimp only
  split
  · rfl
  · split <;> rfl

/-- A settled object has the name it was asked for under. -/
theorem name_of_settle {name : String} {o : Object} {l : Loader} {n : Node}
    (h : ((settle name o).run l).result = .ok n) : n.name = name := by
  unfold settle Stage.run at h
  dsimp only at h
  split at h
  · cases h
  · split at h
    · cases h
    · cases h
      rfl

/-- **Placing an object under a new name takes up one key**, and there must be one left. -/
theorem size_names_place {fs : FileSystem} {name : String} {o : Object} {l : Loader} {key : Key}
    (new : l.graph.find? name = none) (h : ((place fs name o).run l).result = .ok key) :
    l.graph.names.size < KeyTable.capacity ∧
      ((place fs name o).run l).state.graph.names.size = l.graph.names.size + 1 := by
  obtain ⟨n, hn, hk⟩ := Stage.result_bind_eq_ok_iff.1 h
  have settled := graph_settle name o l
  have named := name_of_settle hn
  rw [place, Stage.state_bind_of_ok hn]
  generalize ((settle name o).run l).state = l' at settled hk ⊢
  unfold enroll Stage.run at hk ⊢
  rcases hi : l'.graph.insert n with e | ⟨k, g⟩
  · simp [hi] at hk
  · have grown := l'.graph.size_names_insert (by rw [settled, named]; exact new) hi
    rw [settled] at grown
    simpa [hi] using grown

end ElfLoader.Loader
