import ElfLoader.Proofs.Regions
import Mathlib.Order.Nat

/-!
# The first fit

A reservation anywhere looks for room gap by gap, and in each gap at the first aligned address
only. It comes out at the lowest of all aligned addresses with enough free addresses behind
them, its *openings* (`ElfLoader.AddressMap.openings`), and fails just when there is none
(`ElfLoader.AddressMap.reserveAnywhere_of_operations`). This holds up to the last address of
the 32-bit space: an opening is an address of the map, so no bit of it is lost.
-/

namespace ElfLoader.AddressMap

/-- **The addresses where `room` addresses can be had**: the multiples of the grain with that
many addresses behind them which lie in the map and belong to nobody. -/
def openings (m : AddressMap) (grain room : Nat) : Set Nat :=
  {a | grain ∣ a ∧ a + room ≤ m.size ∧ ∀ x, a ≤ x → x < a + room → m.ownerOf? x = none}

/-- A stretch fits at the openings of a map. -/
theorem setOf_fits (m : AddressMap) (grain room : Nat) :
    {a | m.Fits grain room a} = m.openings grain room :=
  Set.ext fun _ => ⟨fun h => ⟨h.aligned, h.within, h.free⟩, fun h => ⟨h.1, h.2.1, h.2.2⟩⟩

variable {m : AddressMap} {size alignment : UInt32} {owner : Owner}

/-- **Without an opening there is no space**, and whoever asks for it gets nothing. -/
theorem reserveAnywhere_of_openings_eq_empty (h : m.WellOrdered)
    (hnone : m.openings (grain alignment) (room size) = ∅) :
    m.reserveAnywhere size alignment owner = .error (.noSpace none size) := by
  have hfound (x : Nat) := findSome?_gaps_eq_some_iff h (grain_pos alignment) (room_pos size) x
  unfold reserveAnywhere
  split
  · next x hx =>
    have hfits : m.Fits (grain alignment) (room size) x := ((hfound x).1 hx).1.2
    rw [← setOf_fits] at hnone
    exact absurd hfits (Set.eq_empty_iff_forall_notMem.1 hnone x)
  · rfl

/-- **With an opening there is space**: the lowest one is taken. -/
theorem exists_reserveAnywhere (h : m.WellOrdered) {a : Nat}
    (ha : a ∈ m.openings (grain alignment) (room size)) :
    ∃ start m', m.reserveAnywhere size alignment owner = .ok (start, m') := by
  classical
  obtain ⟨x, hleast⟩ : ∃ x, IsLeast (m.openings (grain alignment) (room size)) x :=
    ⟨_, Set.Nonempty.isLeast_natFind ⟨a, ha⟩⟩
  rw [← setOf_fits] at hleast
  exact ⟨_, _, (reserveAnywhere_eq_ok_iff h).2 ⟨x, hleast, rfl, rfl⟩⟩

/-- **Reserving anywhere is first fit**, after any operations on a map that nobody used at first.
The room is at least one address, and the grain the least power of two that is not below the
alignment. If there is an opening, the reservation succeeds and takes the lowest one: its
addresses belong to the owner from then on, and no other address changes hands. If there is
none, no space is found, and the map stays as it is. -/
theorem reserveAnywhere_of_operations {bound : Nat} (hbound : bound ≤ 0x100000000)
    {ops : List Operation} (hm : ops.foldl perform (free bound) = m) (size alignment : UInt32)
    (owner : Owner) : m.size = bound ∧
      ∃ grain, IsLeast {g | (∃ k, g = 2 ^ k) ∧ max alignment.toNat 1 ≤ g} grain ∧
        ((∃ start m', m.reserveAnywhere size alignment owner = .ok (start, m')) ↔
          (m.openings grain (max size.toNat 1)).Nonempty) ∧
        (∀ start m', m.reserveAnywhere size alignment owner = .ok (start, m') →
          IsLeast (m.openings grain (max size.toNat 1)) start.toNat ∧
          m.perform (.reserveAnywhere size alignment owner) = m' ∧ m'.size = bound ∧
          ∀ x, m'.ownerOf? x =
            if start.toNat ≤ x ∧ x < start.toNat + max size.toNat 1 then some owner
            else m.ownerOf? x) ∧
        (m.openings grain (max size.toNat 1) = ∅ →
          m.reserveAnywhere size alignment owner = .error (.noSpace none size) ∧
          m.perform (.reserveAnywhere size alignment owner) = m) := by
  obtain ⟨hcoherent, hsize⟩ := (coherent_free bound).foldl_perform ops
  rw [hm] at hcoherent hsize
  change m.size = bound at hsize
  have horder := hcoherent.wellOrdered
  refine ⟨hsize, grain alignment, isLeast_nextPowerOfTwo _, ⟨?_, ?_⟩, ?_, ?_⟩
  · rintro ⟨start, m', hr⟩
    obtain ⟨x, hleast, -, -⟩ := (reserveAnywhere_eq_ok_iff horder).1 hr
    rw [setOf_fits] at hleast
    exact ⟨x, hleast.1⟩
  · rintro ⟨a, ha⟩
    exact exists_reserveAnywhere horder ha
  · intro start m' hr
    obtain ⟨hleast, hreserved⟩ := reserveAnywhere_eq_ok horder (hsize ▸ hbound) hr
    rw [setOf_fits] at hleast
    refine ⟨hleast, ?_, hreserved.size_eq.trans hsize, hreserved.ownerOf?_eq⟩
    simp only [perform, hr]
  · intro hnone
    have hr : m.reserveAnywhere size alignment owner = .error (.noSpace none size) :=
      reserveAnywhere_of_openings_eq_empty horder hnone
    refine ⟨hr, ?_⟩
    simp only [perform, hr]

/-- In the map that some operations leave, the lowest opening for an alignment of half the
address space is its middle. For an alignment that is larger by one there is none, as only
address 0 is a multiple of the whole address space. -/
theorem reserveAnywhere_of_joiningOperations :
    ∃ m', (joiningOperations.foldl perform (free 0x100000000)).reserveAnywhere 0x1000 0x80000000
        .guard = .ok (0x80000000, m') ∧
      (∃ grain, IsLeast ((joiningOperations.foldl perform (free 0x100000000)).openings grain 0x1000)
        0x80000000) ∧
      m'.ownerOf? 0x80000fff = some .guard ∧ m'.ownerOf? 0x80001000 = none ∧
      (joiningOperations.foldl perform (free 0x100000000)).reserveAnywhere 0x1000 0x80000001
        .guard = .error (.noSpace none 0x1000) := by
  have hm : joiningOperations.foldl perform (free 0x100000000) = _ := rfl
  obtain ⟨-, grain, -, -, hok, -⟩ :=
    reserveAnywhere_of_operations le_rfl hm 0x1000 0x80000000 .guard
  have hr : (joiningOperations.foldl perform (free 0x100000000)).reserveAnywhere 0x1000 0x80000000
      .guard = .ok (0x80000000, ⟨0x100000000, [⟨0, 1, .object (.ofNat 1)⟩,
        ⟨0x1000, 0x3000, .object (.ofNat 0)⟩, ⟨0x80000000, 0x80001000, .guard⟩,
        ⟨0xfffff000, 0x100000000, .stack⟩]⟩) := by decide +kernel
  obtain ⟨hleast, -, -, howner⟩ := hok _ _ hr
  refine ⟨_, hr, ⟨grain, hleast⟩, ?_, ?_, ?_⟩
  · exact (howner _).trans (if_pos (by decide))
  · rw [howner, if_neg (by decide)]
    decide +kernel
  · obtain ⟨-, grain, ⟨⟨⟨k, rfl⟩, hk⟩, -⟩, -, -, hnone⟩ :=
      reserveAnywhere_of_operations le_rfl hm 0x1000 0x80000001 .guard
    refine (hnone (Set.eq_empty_of_forall_notMem ?_)).1
    rintro a ⟨hdvd, hwithin, hfree⟩
    have hexp : 31 < k := (Nat.pow_lt_pow_iff_right (by decide : 1 < 2)).1 hk
    obtain ⟨c, rfl⟩ := Nat.dvd_trans (Nat.pow_dvd_pow 2 hexp) hdvd
    -- all multiples but the first one are past the end, and address 0 belongs to an object
    rcases Nat.eq_zero_or_pos c with rfl | hc
    · exact absurd (hfree 0 (by omega) (by decide)) (by decide +kernel)
    · have hsize : (joiningOperations.foldl perform (free 0x100000000)).size = 0x100000000 := by
        decide +kernel
      omega

end ElfLoader.AddressMap
