import ElfLoader.Proofs.Mapping
import ElfLoader.Proofs.Names
import ElfLoader.Proofs.Ownership

/-!
# Placing an object

An object that is placed gets addresses that nobody owns, its bytes go to just those
addresses, and it comes last in the graph (`ElfLoader.Loader.Placed`). Where its
addresses can be reserved, nothing goes wrong when its bytes are written
(`ElfLoader.Loader.run_settle`), because the owners of addresses are consistent with
the memory (`ElfLoader.Loader.Consistent`).
-/

namespace ElfLoader.Loader

variable {fs : FileSystem} {l : Loader} {key : Key} {name : String} {o : Object}
  {address : UInt32} {map : AddressMap}

/-- **The owners of addresses are consistent with the memory**: their reservations are in
order, and they own addresses of the memory that 32 bits can tell apart. -/
structure Consistent (l : Loader) : Prop where
  /-- The reservations are in order. -/
  wellOrdered : l.map.WellOrdered
  /-- They lie within the memory. -/
  size_map : l.map.size = min l.memory.size addressSpace

theorem consistent_new (config : Config) (processor : Processor) (memory : Memory) :
    (new config processor memory).Consistent :=
  ⟨AddressMap.wellOrdered_free _, rfl⟩

/-! ### Addresses for an object -/

/-- **The addresses of an object** were free. Those of a shared object are the lowest that
will do, and those of an executable the ones it was linked for. -/
theorem reserveFor_eq_ok (hl : l.Consistent) (h : l.reserveFor key o = .ok (address, map)) :
    AddressMap.Reserved l.map address.toNat (AddressMap.room o.extent.size) (.object key) map ∧
      (o.isShared = true → IsLeast {x | l.map.Fits (AddressMap.grain l.config.pageSize)
        (AddressMap.room o.extent.size) x} address.toNat) ∧
      (o.isShared = false → address = o.extent.start) := by
  unfold reserveFor at h
  split at h
  · next hshared =>
    have hsize : l.map.size ≤ 4294967296 := hl.size_map ▸ Nat.min_le_right _ _
    obtain ⟨hleast, hreserved⟩ := AddressMap.reserveAnywhere_eq_ok hl.wellOrdered hsize h
    refine ⟨hreserved, fun _ => hleast, ?_⟩
    intro hfixed
    rw [hshared] at hfixed
    cases hfixed
  · next hfixed =>
    obtain ⟨map', hmap', h⟩ := bind_eq_ok_iff.1 h
    cases h
    exact ⟨AddressMap.reserve_eq_ok hl.wellOrdered hmap',
      fun hshared => absurd hshared hfixed, fun _ => rfl⟩

/-- An object as it is placed at an address. -/
def nodeAt (l : Loader) (name : String) (o : Object) (address : UInt32) : Node :=
  ⟨l.graph.nextKey, name, o, address - o.extent.start, []⟩

@[simp] theorem range_nodeAt (l : Loader) (name : String) (o : Object) (address : UInt32) :
    (l.nodeAt name o address).range = ⟨address, o.extent.size⟩ := by
  simp [nodeAt, Node.range, Node.relocate]

/-- **Settling an object** succeeds once its addresses are reserved. Its bytes are then at
its addresses, and all others stay. -/
theorem run_settle (name : String) (hl : l.Consistent) (ho : o.Sound)
    (h : l.reserveFor l.graph.nextKey o = .ok (address, map)) :
    ∃ memory ns, (settle name o).run l =
        ⟨.ok (l.nodeAt name o address), { l with map, memory }, ns⟩ ∧
      memory.size = l.memory.size ∧
      ∀ a, memory.byteAt a =
        if (l.nodeAt name o address).Holds a then
          (o.byteAt? ((l.nodeAt name o address).linkAddress a)).getD (l.memory.byteAt a)
        else l.memory.byteAt a := by
  obtain ⟨hreserved, -⟩ := reserveFor_eq_ok hl h
  have hwithin := hreserved.within
  rw [hl.size_map] at hwithin
  obtain ⟨memory, hrun, hsize, hbytes⟩ :=
    Node.run_mapInto (n := l.nodeAt name o address) (m := l.memory) ho
      (by rw [range_nodeAt]; exact hwithin.trans (Nat.min_le_left _ _))
      (by rw [range_nodeAt]; exact hwithin.trans (Nat.min_le_right _ _))
  refine ⟨memory, [] ++ if l.config.verbose then
    placementNotices (l.nodeAt name o address) address else [], ?_, hsize, hbytes⟩
  -- nothing but the memory is read from the run that puts the object there
  change settle name o l = _
  unfold settle
  dsimp only
  rw [h]
  dsimp only
  unfold nodeAt at hrun ⊢
  rw [hrun]

/-- **An object that has been settled** is at the addresses that could be reserved for it. -/
theorem of_settle {n : Node} {l' : Loader} (h : (settle name o).Yields l n l') :
    ∃ address map memory, l.reserveFor l.graph.nextKey o = .ok (address, map) ∧
      n = l.nodeAt name o address ∧ l' = { l with map, memory } := by
  obtain ⟨hresult, rfl⟩ := h
  unfold settle Stage.run at hresult ⊢
  dsimp only at hresult ⊢
  split at hresult
  · cases hresult
  · next address map hr =>
    split at hresult
    · cases hresult
    · cases hresult
      exact ⟨address, map, _, hr, rfl, rfl⟩

/-! ### Enrolling it -/

/-- **An object has been placed**: `n` is the object in memory, and `l'` is the loader that
knows it. -/
structure Placed (l : Loader) (name : String) (o : Object) (n : Node) (l' : Loader) :
    Prop where
  /-- The object is the next one, and nothing is known yet about what it needs. -/
  node_eq : n = l.nodeAt name o n.range.start
  /-- Its addresses were free, and it owns them now. -/
  reserved : AddressMap.Reserved l.map n.range.start.toNat (AddressMap.room o.extent.size)
    (.object n.key) l'.map
  /-- They are the ones that can be reserved for it. -/
  reserveFor_eq : l.reserveFor l.graph.nextKey o = .ok (n.range.start, l'.map)
  /-- A shared object lies as low as it can. -/
  least : o.isShared = true → IsLeast {x | l.map.Fits (AddressMap.grain l.config.pageSize)
    (AddressMap.room o.extent.size) x} n.range.start.toNat
  /-- An executable lies where it was linked for. -/
  fixed : o.isShared = false → n.range.start = o.extent.start
  /-- The memory has the size it had. -/
  size_memory : l'.memory.size = l.memory.size
  /-- The bytes of the object are at its addresses, and all others stay. -/
  byteAt_eq : ∀ a, l'.memory.byteAt a =
    if n.Holds a then (o.byteAt? (n.linkAddress a)).getD (l.memory.byteAt a)
    else l.memory.byteAt a
  /-- The object comes last. -/
  nodes_eq : l'.graph.nodes = l.graph.nodes.push n
  /-- The names keep their meaning. -/
  keeps : l.graph.Keeps l'.graph
  /-- The name that the object was asked for under leads to it. -/
  find?_eq : l'.graph.find? name = some n.key
  /-- Keys are positions still. -/
  numbered : l'.graph.Numbered
  /-- All else is as it was. -/
  state_eq : l' = { l with map := l'.map, memory := l'.memory, graph := l'.graph }

theorem Placed.joined {n : Node} {l' : Loader} (h : Placed l name o n l') :
    l.graph.Joined name n l'.graph :=
  ⟨h.nodes_eq, h.find?_eq, h.keeps, h.numbered⟩

/-- The owners of addresses once an object has been placed, computed from those before. -/
theorem Placed.map_eq {n : Node} {l' : Loader} {address : UInt32} {map : AddressMap}
    (h : Placed l name o n l') (hr : l.reserveFor l.graph.nextKey o = .ok (address, map)) :
    l'.map = map :=
  (Prod.mk.inj (Except.ok.inj (h.reserveFor_eq.symm.trans hr))).2

/-- An object is enrolled if it can be added to the graph. It is then known under all of its
names. -/
theorem yields_enroll_iff {n : Node} {l' : Loader} : (enroll fs n).Yields l key l' ↔
    ∃ graph, l.graph.insert n = .ok (key, graph) ∧
      { l with
        graph := withNames graph key (fs.canonical n.object.path) n.object.soname } = l' := by
  unfold enroll Stage.Yields Stage.run
  cases hi : l.graph.insert n with
  | error e => simp [hi]
  | ok inserted =>
    obtain ⟨k, g⟩ := inserted
    simp only [hi, Except.ok.injEq, Prod.mk.injEq]
    constructor
    · rintro ⟨rfl, rfl⟩
      exact ⟨g, ⟨rfl, rfl⟩, rfl⟩
    · rintro ⟨_, ⟨rfl, rfl⟩, rfl⟩
      exact ⟨rfl, rfl⟩

/-- What enrolling an object under a new name does to the graph. -/
theorem of_enroll {n : Node} {l' : Loader} (hg : l.graph.Numbered)
    (hkey : n.key = l.graph.nextKey) (new : l.graph.find? n.name = none)
    (h : (enroll fs n).Yields l key l') :
    key = n.key ∧ ∃ graph, l' = { l with graph } ∧ graph.nodes = l.graph.nodes.push n ∧
      l.graph.Keeps graph ∧ graph.find? n.name = some n.key ∧ graph.Numbered := by
  obtain ⟨g, hi, rfl⟩ := yields_enroll_iff.1 h
  -- the key is given when the name is inserted, and the other names are aliases
  obtain ⟨hk, hnum⟩ := hg.insert new hkey hi
  obtain ⟨-, -, -, hnodes, hfind⟩ := ObjectGraph.insert_eq_ok new hi
  have hkeep := g.keeps_withNames key (fs.canonical n.object.path) n.object.soname
  have hlt : key.toNat < g.size := hnum.known n.name key (by rw [hfind, if_pos rfl])
  refine ⟨hk.trans hkey.symm, _, rfl, ?_, (ObjectGraph.keeps_insert new hi).trans hkeep, ?_,
    hnum.withNames _ _ hlt⟩
  · rw [ObjectGraph.nodes_withNames, hnodes]
  · rw [hkey, ← hk]
    exact hkeep n.name key (by rw [hfind, if_pos rfl])

/-- **Placing an object** under a new name, if it succeeds. -/
theorem placed_of_place {l' : Loader} (hl : l.Consistent) (hg : l.graph.Numbered) (ho : o.Sound)
    (new : l.graph.find? name = none) (h : (place fs name o).Yields l key l') :
    ∃ n, key = n.key ∧ Placed l name o n l' := by
  obtain ⟨n, l₁, hsettle, henroll⟩ := Stage.yields_bind_iff.1 h
  obtain ⟨address, map, -, hr, -⟩ := of_settle hsettle
  obtain ⟨memory, ns, hrun, hsize, hbytes⟩ := run_settle name hl ho hr
  obtain ⟨hreserved, hleast, hfixed⟩ := reserveFor_eq_ok hl hr
  rw [Stage.Yields, hrun] at hsettle
  obtain ⟨hn, rfl⟩ := hsettle
  cases hn
  obtain ⟨rfl, graph, rfl, hnodes, hkeeps, hfind, hnum⟩ :=
    of_enroll (l := { l with map, memory }) hg rfl new henroll
  have hrange := l.range_nodeAt name o address
  refine ⟨_, rfl, ?_, ?_, ?_, ?_, ?_, hsize, hbytes, hnodes, hkeeps, hfind, hnum, rfl⟩
  · rw [hrange]
  · rw [hrange]
    exact hreserved
  · rw [hrange]
    exact hr
  · rw [hrange]
    exact hleast
  · rw [hrange]
    exact hfixed

/-- Names that an object does not have mean what they meant before it was placed. -/
theorem find?_of_place {l' : Loader} {other : String} (new : l.graph.find? name = none)
    (h : (place fs name o).Yields l key l') (hname : other ≠ name)
    (hpath : other ≠ fs.canonical o.path) (hsoname : o.soname ≠ some other) :
    l'.graph.find? other = l.graph.find? other := by
  obtain ⟨n, l₁, hsettle, henroll⟩ := Stage.yields_bind_iff.1 h
  obtain ⟨address, map, memory, -, rfl, rfl⟩ := of_settle hsettle
  obtain ⟨g, hi, rfl⟩ := yields_enroll_iff.1 henroll
  obtain ⟨-, -, -, -, hfind⟩ := ObjectGraph.insert_eq_ok new hi
  exact (g.find?_withNames_of_ne key hpath hsoname).trans ((hfind other).trans (if_neg hname))

end ElfLoader.Loader
