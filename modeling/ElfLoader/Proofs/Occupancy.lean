import ElfLoader.Proofs.Placing

/-!
# What memory is used for

While a program is loaded, its loader is *orderly* (`ElfLoader.Loader.Orderly`): every
address belongs to the stack, to the guard page, to just one object, or to nobody; the
bytes of an object are at its addresses, and all other bytes are those that the memory
had at first; and each shared object lies as low as the stack, the guard page and the
objects before it allow.

Placing an object keeps a loader orderly (`ElfLoader.Loader.Orderly.placed`). Edges
between objects and further names make no difference, as the objects are looked at
without their edges (`ElfLoader.Loader.Orderly.congr`).
-/

namespace ElfLoader.Loader

/-! ### Who owns an address -/

/-- **Whether an address belongs to an owner.** The stack is at the top of the memory. The
guard page is at zero, unless the executable, `root`, lies there. -/
def Owns (l : Loader) (root : Object) (address : Nat) : Owner → Prop
  | .object key => ∃ n ∈ l.graph.settled, n.key = key ∧ n.Holds address
  | .stack => l.map.size - l.config.stackSize.toNat ≤ address ∧ address < l.map.size
  | .guard => (root.isShared || l.config.pageSize ≤ root.extent.start) = true ∧
      address < l.config.pageSize.toNat

/-- Whether an address is free as far as the stack, the guard page and the first `count`
objects are concerned. -/
def Vacant (l : Loader) (root : Object) (count address : Nat) : Prop :=
  address < l.map.size ∧ ¬ l.Owns root address .stack ∧ ¬ l.Owns root address .guard ∧
    ∀ n ∈ l.graph.settled.take count, ¬ n.Holds address

/-- The aligned addresses from which on an object has room, as far as the stack, the guard
page and the first `count` objects are concerned. -/
def roomFor (l : Loader) (root : Object) (count : Nat) (n : Node) : Set Nat :=
  {x | l.config.pageSize.toNat ∣ x ∧
    ∀ a, x ≤ a → a < x + max n.object.extent.size.toNat 1 → l.Vacant root count a}

/-- **A loader is orderly.** Its executable is `root`, and its memory was `memory` at
first. -/
structure Orderly (memory : Memory) (root : Object) (l : Loader) : Prop where
  /-- The owners of addresses are consistent with the memory. -/
  consistent : l.Consistent
  /-- The memory has the size it had. -/
  size_memory : l.memory.size = memory.size
  /-- Keys are positions. -/
  numbered : l.graph.Numbered
  /-- The objects make sense. -/
  sound : ∀ n ∈ l.graph.settled, n.object.Sound
  /-- Every address belongs to its owner. -/
  ownerOf?_eq_some_iff : ∀ a owner, l.map.ownerOf? a = some owner ↔ l.Owns root a owner
  /-- A shared object lies as low as what was there before allows. -/
  least : ∀ i n, l.graph.settled[i]? = some n → n.object.isShared = true →
    IsLeast (l.roomFor root i n) n.range.start.toNat
  /-- The bytes of an object are at its addresses. -/
  held : ∀ n ∈ l.graph.settled, ∀ a, n.Holds a →
    l.memory.byteAt a = (n.object.byteAt? (n.linkAddress a)).getD (memory.byteAt a)
  /-- All other bytes are those of the start. -/
  unheld : ∀ a, (∀ n ∈ l.graph.settled, ¬ n.Holds a) → l.memory.byteAt a = memory.byteAt a

namespace Orderly

variable {memory : Memory} {root o : Object} {l l' : Loader} {n : Node} {name : String}

/-- Nothing but the settings, the owners, the memory and the objects without their edges
matters. -/
theorem congr (h : l.Orderly memory root) (hconfig : l'.config = l.config)
    (hmap : l'.map = l.map) (hmemory : l'.memory = l.memory)
    (hsettled : l'.graph.settled = l.graph.settled) (hnumbered : l'.graph.Numbered) :
    l'.Orderly memory root := by
  have howns : l'.Owns root = l.Owns root := by
    funext a owner
    cases owner <;> simp only [Owns, hconfig, hmap, hsettled]
  have hroom : l'.roomFor root = l.roomFor root := by
    funext i n
    simp only [roomFor, Vacant, howns, hconfig, hmap, hsettled]
  obtain ⟨hcon, hsize, -, hsound, howner, hleast, hheld, hunheld⟩ := h
  exact ⟨⟨hmap ▸ hcon.wellOrdered, by rw [hmap, hmemory, hcon.size_map]⟩, by rw [hmemory, hsize],
    hnumbered, by rwa [hsettled], by rwa [hmap, howns], by rwa [hsettled, hroom],
    by rwa [hsettled, hmemory], by rwa [hsettled, hmemory]⟩

/-- An address is free if nobody owns it. -/
theorem vacant_size_iff (h : l.Orderly memory root) (a : Nat) :
    l.Vacant root l.graph.size a ↔ a < l.map.size ∧ l.map.ownerOf? a = none := by
  unfold Vacant
  rw [← l.graph.length_settled, List.take_length]
  refine and_congr_right fun _ => ?_
  constructor
  · rintro ⟨hstack, hguard, hobjects⟩
    apply Option.eq_none_iff_forall_ne_some.2
    intro owner howner
    rw [h.ownerOf?_eq_some_iff] at howner
    cases owner with
    | object key =>
      obtain ⟨n, hn, -, ha⟩ := howner
      exact hobjects n hn ha
    | stack => exact hstack howner
    | guard => exact hguard howner
  · intro hnone
    have hfree : ∀ owner, ¬ l.Owns root a owner := by
      intro owner howner
      rw [← h.ownerOf?_eq_some_iff, hnone] at howner
      cases howner
    exact ⟨hfree _, hfree _, fun n hn ha => hfree (.object n.key) ⟨n, hn, rfl, ha⟩⟩

/-- Where an object fits on the map it has room. -/
theorem fits_iff (h : l.Orderly memory root) (hpage : isPowerOfTwo l.config.pageSize.toNat)
    (n : Node) (x : Nat) :
    l.map.Fits (AddressMap.grain l.config.pageSize) (AddressMap.room n.object.extent.size) x ↔
      x ∈ l.roomFor root l.graph.size n := by
  have hroom := AddressMap.room_pos n.object.extent.size
  rw [AddressMap.grain_eq hpage]
  constructor
  · rintro ⟨haligned, hwithin, hfree⟩
    refine ⟨haligned, ?_⟩
    intro a hxa hax
    change a < x + AddressMap.room n.object.extent.size at hax
    exact (h.vacant_size_iff a).2 ⟨by omega, hfree a hxa hax⟩
  · rintro ⟨haligned, hvacant⟩
    change ∀ a, x ≤ a → a < x + AddressMap.room n.object.extent.size → _ at hvacant
    refine ⟨haligned, ?_, fun a hxa hax => ((h.vacant_size_iff a).1 (hvacant a hxa hax)).2⟩
    -- the last address lies within the map, so all of them do
    have hlast := ((h.vacant_size_iff _).1 (hvacant (x + AddressMap.room n.object.extent.size - 1)
      (by omega) (by omega))).1
    omega

/-! ### Placing an object -/

section Placed

variable (hp : l.Placed name o n l')

include hp

theorem settled_placed : l'.graph.settled = l.graph.settled ++ [n] := by
  have hn : n.settled = n := by rw [hp.node_eq]; rfl
  simp [ObjectGraph.settled, ObjectGraph.toList, hp.nodes_eq, hn]

theorem object_placed : n.object = o := by
  rw [hp.node_eq]
  rfl

/-- The addresses of the new object are the ones that were reserved. -/
theorem holds_placed_iff (a : Nat) :
    n.Holds a ↔ n.range.start.toNat ≤ a ∧
      a < n.range.start.toNat + AddressMap.room o.extent.size := by
  have hsize : n.range.size = o.extent.size := by rw [← object_placed hp]; rfl
  rw [Node.Holds, hsize]

theorem owns_placed_iff (a : Nat) (owner : Owner) :
    l'.Owns root a owner ↔ l.Owns root a owner ∨ owner = .object n.key ∧ n.Holds a := by
  have hmap := hp.reserved.size_eq
  have hconfig : l'.config = l.config := by rw [hp.state_eq]
  cases owner with
  | object key =>
    simp only [Owns, settled_placed hp, List.mem_append, List.mem_singleton, Owner.object.injEq]
    constructor
    · rintro ⟨m, hm | rfl, hkey, ha⟩
      · exact .inl ⟨m, hm, hkey, ha⟩
      · exact .inr ⟨hkey.symm, ha⟩
    · rintro (⟨m, hm, hkey, ha⟩ | ⟨hkey, ha⟩)
      · exact ⟨m, .inl hm, hkey, ha⟩
      · exact ⟨n, .inr rfl, hkey.symm, ha⟩
  | stack => simp [Owns, hmap, hconfig]
  | guard => simp [Owns, hconfig]

/-- What is free for an object that was there before is what was free for it then. -/
theorem roomFor_placed {i : Nat} (hi : i ≤ l.graph.size) :
    l'.roomFor root i = l.roomFor root i := by
  have hmap := hp.reserved.size_eq
  have hconfig : l'.config = l.config := by rw [hp.state_eq]
  have htake : l'.graph.settled.take i = l.graph.settled.take i := by
    rw [settled_placed hp, List.take_append_of_le_length (by rwa [l.graph.length_settled])]
  funext m
  simp only [roomFor, Vacant, Owns, htake, hmap, hconfig]

/-- No address of an object that was there before goes to the new one. -/
theorem not_holds_of_held (h : l.Orderly memory root) {m : Node} (hm : m ∈ l.graph.settled)
    {a : Nat} (ha : m.Holds a) : ¬ n.Holds a := by
  intro hn
  rw [holds_placed_iff hp] at hn
  have hfree := hp.reserved.free a hn.1 hn.2
  rw [(h.ownerOf?_eq_some_iff a (.object m.key)).2 ⟨m, hm, rfl, ha⟩] at hfree
  cases hfree

/-- **Placing an object keeps a loader orderly.** -/
theorem placed (h : l.Orderly memory root) (hpage : isPowerOfTwo l.config.pageSize.toNat)
    (ho : o.Sound) : l'.Orderly memory root where
  consistent := by
    refine ⟨hp.reserved.wellOrdered, ?_⟩
    rw [hp.reserved.size_eq, hp.size_memory, h.consistent.size_map]
  size_memory := hp.size_memory.trans h.size_memory
  numbered := hp.numbered
  sound m hm := by
    rw [settled_placed hp, List.mem_append, List.mem_singleton] at hm
    rcases hm with hm | rfl
    · exact h.sound m hm
    · rwa [object_placed hp]
  ownerOf?_eq_some_iff a owner := by
    rw [owns_placed_iff hp, hp.reserved.ownerOf?_eq]
    by_cases hn : n.Holds a
    · -- the address was free, so it has no other owner
      have hin := (holds_placed_iff hp a).1 hn
      have hnone : ¬ l.Owns root a owner := by
        rw [← h.ownerOf?_eq_some_iff, hp.reserved.free a hin.1 hin.2]
        exact nofun
      rw [if_pos hin]
      simp [hnone, hn, eq_comm]
    · rw [if_neg fun hin => hn ((holds_placed_iff hp a).2 hin), h.ownerOf?_eq_some_iff]
      simp [hn]
  least i m hm hshared := by
    rw [settled_placed hp, List.getElem?_append, l.graph.length_settled] at hm
    split at hm
    · next hi =>
      rw [roomFor_placed hp hi.le]
      exact h.least i m hm hshared
    · next hi =>
      -- the new object is where the map was searched, and its position is the last one
      rw [List.getElem?_singleton] at hm
      obtain ⟨hzero, hm⟩ := Option.ite_none_right_eq_some.1 hm
      cases hm
      have hi : i = l.graph.size := by omega
      have hobject := object_placed hp
      rw [hi, roomFor_placed hp le_rfl]
      have hleast := hp.least (hobject ▸ hshared)
      rw [← hobject] at hleast
      simpa only [h.fits_iff hpage, Set.ofPred_mem_eq] using hleast
  held m hm a ha := by
    rw [settled_placed hp, List.mem_append, List.mem_singleton] at hm
    rw [hp.byteAt_eq]
    rcases hm with hm | rfl
    · rw [if_neg (not_holds_of_held hp h hm ha), h.held m hm a ha]
    · -- until now nobody has written to the addresses of the new object
      rw [if_pos ha, object_placed hp, h.unheld a]
      intro k hk hka
      exact not_holds_of_held hp h hk hka ha
  unheld a ha := by
    simp only [settled_placed hp, List.mem_append, List.mem_singleton] at ha
    rw [hp.byteAt_eq, if_neg (ha n (.inr rfl)), h.unheld a fun m hm => ha m (.inl hm)]

end Placed

end Orderly

end ElfLoader.Loader
