import ElfLoader.Proofs.OneLibrary

/-!
# The bytes of a loaded program

Before the program is linked, memory holds the segments of its objects and nothing else
that is new: an address of an object has the byte that the object asks for there, or else
the byte that was there at first, and an address of no object has the byte that was there
at first. This holds of a memory with any content at the start.

Placing an object cannot fail once its addresses are reserved, and it does not touch those
placed before. This is said of all loaders that loading goes through
(`ElfLoader.Loader.Reachable`).
-/

namespace ElfLoader.Loader

variable {fs : FileSystem} {path : String} {config : Config} {processor : Processor}
  {memory : Memory} {l l' : Loader}

/-- **The loaders that objects are placed in**, from a new loader on: the one that is
prepared for the executable, and then one after each request that is served. -/
inductive Reachable (fs : FileSystem) (config : Config) (processor : Processor)
    (memory : Memory) : Loader → Prop
  /-- A new loader has been prepared for an executable. -/
  | prepared {path : String} {o : Object} {l : Loader}
    (h : Prepared fs config processor memory path o l) : Reachable fs config processor memory l
  /-- The executable has been placed. -/
  | initiated {path : String} {entry : UInt32} {l : Loader}
    (h : (initiate fs path).Yields (new config processor memory) entry l) :
    Reachable fs config processor memory l
  /-- A request has been served. -/
  | served {r : Request} {l l' : Loader} {more : List Request} {ns : List Notice}
    (before : Reachable fs config processor memory l)
    (h : serve fs r l = ⟨.ok more, l', ns⟩) : Reachable fs config processor memory l'

/-- **A loader that loading goes through is orderly.** -/
theorem Reachable.orderly (h : Reachable fs config processor memory l) :
    (∃ root, l.Orderly memory root) ∧ isPowerOfTwo l.config.pageSize.toNat := by
  induction h with
  | prepared h => exact ⟨⟨_, h.orderly⟩, h.config_eq ▸ h.pageSize⟩
  | initiated h =>
    obtain ⟨n, hn⟩ := initiated_of_initiate h
    exact ⟨⟨n.object, hn.orderly⟩, hn.config_eq ▸ hn.pageSize⟩
  | served before h ih =>
    obtain ⟨⟨root, horderly⟩, hpage⟩ := ih
    have hserved := served_of_serve horderly hpage h
    exact ⟨⟨root, hserved.orderly horderly hpage⟩, hserved.config_eq ▸ hpage⟩

/-- **Settling an object leaves the others alone**, and it succeeds once the addresses of
the object are reserved. -/
theorem Reachable.settle_of_reserved (h : Reachable fs config processor memory l)
    {name : String} {o : Object} {address : UInt32} {map : AddressMap}
    (ho : (Object.open fs path l.config.pageSize.toNat).result = .ok o)
    (hr : l.reserveFor l.graph.nextKey o = .ok (address, map)) :
    ∃ n l', (settle name o).Yields l n l' ∧
      ∀ m ∈ l.graph.toList, ∀ a, m.Holds a → l'.memory.byteAt a = l.memory.byteAt a := by
  obtain ⟨⟨root, horderly⟩, hpage⟩ := h.orderly
  have hsound := Object.sound_of_open (pos_of_isPowerOfTwo hpage) ho
  obtain ⟨memory', ns, hrun, -, hbytes⟩ :=
    run_settle name horderly.consistent hsound hr
  obtain ⟨hreserved, -⟩ := reserveFor_eq_ok horderly.consistent hr
  refine ⟨_, _, Stage.yields_of_run hrun, ?_⟩
  intro m hm a ha
  -- what belongs to another object is owned, so it has not been reserved
  have howner : l.map.ownerOf? a = some (.object m.key) :=
    (horderly.ownerOf?_eq_some_iff a (.object m.key)).2
      ⟨m.settled, List.mem_map_of_mem hm, rfl, ha⟩
  rw [hbytes, if_neg]
  intro hn
  rw [Node.Holds, range_nodeAt] at hn
  rw [hreserved.free a hn.1 hn.2] at howner
  cases howner

/-- An address of an object is owned under the object's key. -/
theorem Orderly.ownerOf?_eq_object_iff {root : Object} (h : l.Orderly memory root) {n : Node}
    (hn : n ∈ l.graph.toList) (a : Nat) :
    l.map.ownerOf? a = some (.object n.key) ↔ n.Holds a := by
  rw [h.ownerOf?_eq_some_iff]
  constructor
  · rintro ⟨m, hm, hkey, ha⟩
    obtain ⟨i, hi⟩ := List.mem_iff_getElem?.1 hn
    obtain ⟨m', hm', rfl⟩ := List.mem_map.1 hm
    obtain ⟨j, hj⟩ := List.mem_iff_getElem?.1 hm'
    rw [ObjectGraph.getElem?_toList] at hi hj
    have hsame : some m' = some n := by
      rw [← h.numbered.get?_key hi, ← h.numbered.get?_key hj]
      exact congrArg l.graph.get? hkey
    cases hsame
    exact ha
  · exact fun ha => ⟨n.settled, List.mem_map_of_mem hn, rfl, ha⟩

/-- **The bytes of a loaded program.** An address that belongs to an object has the byte
that the last of the object's segments around it asks for, or the byte that it had at
first if there is no such segment. An address that belongs to no object has the byte that
it had at first. On the way to it, an object whose addresses had been reserved could
always be put into memory, and that changed no byte of the objects before it. -/
theorem byteAt_of_phases {entry : UInt32} {u : Unit}
    (hinitiate : (initiate fs path).Yields (new config processor memory) entry l)
    (hload : (loadLibraries fs).Yields l u l') :
    (∀ n ∈ l'.graph.toList, ∀ a, l'.map.ownerOf? a = some (.object n.key) →
      l'.memory.byteAt a = (n.object.byteAt? (n.linkAddress a)).getD (memory.byteAt a)) ∧
    (∀ a, (∀ n ∈ l'.graph.toList, l'.map.ownerOf? a ≠ some (.object n.key)) →
      l'.memory.byteAt a = memory.byteAt a) ∧
    ∀ k, Reachable fs config processor memory k → ∀ path o,
      (Object.open fs path k.config.pageSize.toNat).result = .ok o → ∀ address map,
      k.reserveFor k.graph.nextKey o = .ok (address, map) → ∀ name, ∃ n k',
        (settle name o).Yields k n k' ∧
        ∀ m ∈ k.graph.toList, ∀ a, k.map.ownerOf? a = some (.object m.key) →
          k'.memory.byteAt a = k.memory.byteAt a := by
  obtain ⟨root, -, -, -, -, horderly⟩ := serves_of_phases hinitiate hload
  refine ⟨?_, ?_, ?_⟩
  · intro n hn a ha
    rw [horderly.ownerOf?_eq_object_iff hn] at ha
    exact horderly.held n.settled (List.mem_map_of_mem hn) a ha
  · intro a ha
    refine horderly.unheld a ?_
    intro n hn hheld
    obtain ⟨m, hm, rfl⟩ := List.mem_map.1 hn
    exact ha m hm ((horderly.ownerOf?_eq_object_iff hm a).2 hheld)
  · intro k hk path o ho address map hr name
    obtain ⟨⟨root, hk'⟩, -⟩ := hk.orderly
    obtain ⟨n, k', hsettle, hbytes⟩ := hk.settle_of_reserved ho hr
    refine ⟨n, k', hsettle, ?_⟩
    intro m hm a ha
    exact hbytes m hm a ((hk'.ownerOf?_eq_object_iff hm a).1 ha)

/-- **The bytes of a program of two objects**, in a memory that was in use: a letter from the file
of the library, a byte in its page that no segment asks for, and the byte behind the page. When the
library was placed, the executable kept its bytes. -/
theorem byteAt_of_phases_copyFiles : ∃ entry l l',
    (initiate copyFiles "a").Yields (new .standard .arm litteredMemory) entry l ∧
      (loadLibraries copyFiles).Yields l () l' ∧ l'.memory.byteAt 0x20e8 = 0x63 ∧
      l'.memory.byteAt 0x2fff = 7 ∧ l'.memory.byteAt 0x3000 = 9 ∧
      ∃ n k, (settle "d/b" copyLibrary).Yields l n k ∧
        ∀ a, 0x1000 ≤ a → a < 0x2000 → k.memory.byteAt a = l.memory.byteAt a := by
  obtain ⟨entry, l, l', hinitiate, hbegun, hload, -, -, -, hmap, hlist⟩ :=
    exists_phases_copy .arm litteredMemory rfl size_litteredMemory
  obtain ⟨hheld, hunheld, hplaced⟩ := byteAt_of_phases hinitiate hload
  have hnode : copyNode ∈ l'.graph.toList := hlist ▸ List.mem_cons_of_mem _ List.mem_cons_self
  rw [hmap] at hheld hunheld
  refine ⟨entry, l, l', hinitiate, hload, ?_, ?_, ?_, ?_⟩
  · rw [hheld copyNode hnode 0x20e8 (by decide +kernel)]
    decide +kernel
  · have hnone : copyNode.object.byteAt? (copyNode.linkAddress 0x2fff) = none := by decide +kernel
    rw [hheld copyNode hnode 0x2fff (by decide +kernel), hnone]
    exact byteAt_litteredMemory.1
  · rw [hunheld 0x3000]
    · exact byteAt_litteredMemory.2
    · rw [hlist, List.forall_mem_cons, List.forall_mem_singleton]
      decide +kernel
  · obtain ⟨n, k, hsettle, hkept⟩ := hplaced l (.initiated hinitiate) "d/b" copyLibrary
      (hbegun.initiated.config_eq ▸ open_copyLibrary) _ _
      (hbegun.reserveFor_of_onePage onePage_copyLibrary) "d/b"
    refine ⟨n, k, hsettle, fun a hlow hhigh => ?_⟩
    have hroot : rootAt "a" copyExecutable 0x1000 ∈ l.graph.toList := by
      rw [ObjectGraph.toList, hbegun.initiated.nodes_eq]
      exact List.mem_singleton_self _
    refine hkept _ hroot a ?_
    rw [hbegun.initiated.orderly.ownerOf?_eq_object_iff hroot]
    have hrange : (rootAt "a" copyExecutable 0x1000).range = ⟨0x1000, 0x1000⟩ := ranges_copy.1
    unfold Node.Holds
    rw [hrange]
    exact ⟨hlow, hhigh⟩

end ElfLoader.Loader
