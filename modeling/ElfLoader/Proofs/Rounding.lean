import ElfLoader.Proofs.Bounds
import ElfLoader.Proofs.Heap
import ElfLoader.Proofs.Tidiness
import Mathlib.Data.Nat.Bitwise

/-!
# Rounding in words

Numbers are rounded as words of 64 bits: the bits below the alignment are cut off with a mask
(`ElfLoader.wordDown`), and for rounding up the alignment less one is added before
(`ElfLoader.wordUp`). For a power of two this is rounding to multiples
(`ElfLoader.toNat_wordUp`, `ElfLoader.toNat_wordDown`), as long as the number that is cut fits into
a word. The sum from which one is taken away may then just miss to fit. It is zero as a word, and
taking one away leads back to what it should be. This takes sums that wrap around; a build that
checks sums for overflow stops there.

Nothing comes near that limit where the loader rounds (`ElfLoader.Roundable`): addresses in a map
are at most `2 ^ 32`, and so are the alignments that are asked for, and no segment ends behind
`2 ^ 33` (`ElfLoader.rounding_of_words`).
-/

namespace ElfLoader

/-! ### Words -/

/-- Rounding down with a mask. -/
def wordDown (n align : UInt64) : UInt64 := n &&& ~~~(align - 1)

/-- Rounding up with a mask. The sum and the difference wrap around, as in a build that does not
check for overflow: if `n + align` is `2 ^ 64`, the sum is zero. -/
def wordUp (n align : UInt64) : UInt64 := (n + align - 1) &&& ~~~(align - 1)

/-- A number of 64 bits without its lowest bits is a multiple. -/
theorem and_two_pow_sub_two_pow {n k : Nat} (hn : n < 2 ^ 64) (hk : k < 64) :
    n &&& (2 ^ 64 - 1 - (2 ^ k - 1)) = alignDown n (2 ^ k) := by
  have hlow : 2 ^ k - 1 < 2 ^ 64 :=
    (Nat.sub_le _ _).trans_lt (Nat.pow_lt_pow_right (by decide) hk)
  have hmask : 2 ^ 64 - 1 - (2 ^ k - 1) = 2 ^ 64 - (2 ^ k - 1 + 1) := by omega
  rw [hmask, alignDown]
  refine Nat.eq_of_testBit_eq fun i => ?_
  rw [Nat.testBit_and, Nat.testBit_two_pow_sub_succ hlow, Nat.testBit_two_pow_sub_one,
    Nat.testBit_mul_two_pow, Nat.testBit_div_two_pow]
  rcases Nat.lt_or_ge i k with hi | hi
  · simp [hi]
  · rw [Nat.sub_add_cancel hi]
    rcases Nat.lt_or_ge i 64 with hlt | hge
    · simp [hi, hlt]
    · -- there are no bits behind those of a word
      have hbit : n.testBit i = false :=
        Nat.testBit_lt_two_pow (hn.trans_le (Nat.pow_le_pow_right (by decide) hge))
      simp [hbit]

variable {n align : UInt64}

/-- **Rounding a word down.** -/
theorem toNat_wordDown (n : UInt64) (h : ∃ k, align.toNat = 2 ^ k) :
    (wordDown n align).toNat = alignDown n.toNat align.toNat := by
  obtain ⟨k, hk⟩ := h
  have halign := align.toNat_lt
  have hpos := Nat.two_pow_pos k
  have hk64 : k < 64 := (Nat.pow_lt_pow_iff_right (by decide)).1 (hk ▸ halign)
  have hless : (align - 1).toNat = 2 ^ k - 1 := by
    rw [UInt64.toNat_sub, hk]
    change (2 ^ 64 - 1 + 2 ^ k) % 2 ^ 64 = 2 ^ k - 1
    omega
  rw [wordDown, UInt64.toNat_and, UInt64.toNat_not, hless, hk]
  exact and_two_pow_sub_two_pow n.toNat_lt hk64

/-- **Rounding a word up.** -/
theorem toNat_wordUp (h : ∃ k, align.toNat = 2 ^ k) (hn : n.toNat + align.toNat - 1 < 2 ^ 64) :
    (wordUp n align).toNat = alignUp n.toNat align.toNat := by
  have hpos : 0 < align.toNat := by
    obtain ⟨k, hk⟩ := h
    exact hk ▸ Nat.two_pow_pos k
  have hsum : (n + align - 1).toNat = n.toNat + align.toNat - 1 := by
    rw [UInt64.toNat_sub, UInt64.toNat_add]
    change (2 ^ 64 - 1 + (n.toNat + align.toNat) % 2 ^ 64) % 2 ^ 64 = _
    omega
  have hdown := toNat_wordDown (n + align - 1) h
  rw [hsum] at hdown
  exact hdown

/-! ### Numbers -/

/-- **A number can be rounded in words**: the alignment is a power of two, and adding it gives a
word. -/
structure Roundable (n align : Nat) : Prop where
  /-- The alignment is a power of two. -/
  powerOfTwo : ∃ k, align = 2 ^ k
  /-- The sum is a word. -/
  sum_lt : n + align < 2 ^ 64

/-- Both numbers are words. -/
theorem Roundable.toNat_ofNat {n align : Nat} (h : Roundable n align) :
    (UInt64.ofNat n).toNat = n ∧ (UInt64.ofNat align).toNat = align := by
  have hsum := h.sum_lt
  exact ⟨UInt64.toNat_ofNat_of_lt' (show n < 2 ^ 64 by omega),
    UInt64.toNat_ofNat_of_lt' (show align < 2 ^ 64 by omega)⟩

theorem Roundable.toNat_wordDown {n align : Nat} (h : Roundable n align) :
    (wordDown (.ofNat n) (.ofNat align)).toNat = alignDown n align := by
  obtain ⟨hn, halign⟩ := h.toNat_ofNat
  rw [ElfLoader.toNat_wordDown _ (halign.symm ▸ h.powerOfTwo), hn, halign]

theorem Roundable.toNat_wordUp {n align : Nat} (h : Roundable n align) :
    (wordUp (.ofNat n) (.ofNat align)).toNat = alignUp n align := by
  obtain ⟨hn, halign⟩ := h.toNat_ofNat
  have hsum := h.sum_lt
  rw [ElfLoader.toNat_wordUp (halign.symm ▸ h.powerOfTwo) (by rw [hn, halign]; omega), hn, halign]

/-! ### Where the loader rounds -/

theorem exists_of_isPowerOfTwo {n : Nat} (h : isPowerOfTwo n) : ∃ k, n = 2 ^ k :=
  ⟨n.log2, by rw [← Nat.one_shiftLeft]; exact eq_shiftLeft_of_isPowerOfTwo h⟩

namespace AddressMap

variable {m : AddressMap} {gap : Nat × Nat}

/-- Free stretches are within the bounds. -/
theorem le_of_mem_gaps {size start : Nat} {rs : List Reservation} (h : Ordered size start rs)
    (hgap : gap ∈ gaps size start rs) : gap.1 ≤ gap.2 ∧ gap.2 ≤ size := by
  induction rs generalizing start with
  | nil =>
    rw [gaps] at hgap
    split at hgap
    · next hlt =>
      obtain rfl := List.mem_singleton.1 hgap
      exact ⟨hlt.le, le_rfl⟩
    · cases hgap
  | cons r rest ih =>
    obtain ⟨hstart, hne, hrest⟩ := h
    rw [gaps, List.mem_append] at hgap
    rcases hgap with hgap | hgap
    · split at hgap
      · obtain rfl := List.mem_singleton.1 hgap
        exact ⟨hstart, hne.le.trans hrest.start_le_size⟩
      · cases hgap
    · exact ih hrest hgap

/-- An alignment that is asked for is rounded up to `2 ^ 32` at most. -/
theorem grain_le (alignment : UInt32) : grain alignment ≤ 2 ^ 32 := by
  refine (isLeast_nextPowerOfTwo _).2 ⟨⟨32, rfl⟩, ?_⟩
  have hlt := alignment.toNat_lt
  omega

/-- **Where a map is searched, all sums are words.** -/
theorem roundable_of_mem_gaps (hm : m.WellOrdered) (hsize : m.size ≤ 2 ^ 32)
    (size alignment : UInt32) (hgap : gap ∈ gaps m.size 0 m.reservations) :
    Roundable gap.1 (grain alignment) ∧
      alignUp gap.1 (grain alignment) + room size < 2 ^ 64 := by
  obtain ⟨hle, hwithin⟩ := le_of_mem_gaps hm hgap
  have hgrain := grain_le alignment
  have hup : alignUp gap.1 (grain alignment) ≤ gap.1 + grain alignment - 1 :=
    Nat.div_mul_le_self _ _
  have hroom : room size ≤ 2 ^ 32 := by
    have hlt := size.toNat_lt
    unfold room
    omega
  exact ⟨⟨(isLeast_nextPowerOfTwo _).1.1, by omega⟩, by omega⟩

end AddressMap

namespace Object

/-- No segment ends behind `2 ^ 33`. -/
theorem highest_le (loads : List LoadSegment) : highest loads ≤ 2 ^ 33 := by
  refine highest_le_iff.2 fun s _ => ?_
  have hstart := s.memory.start.toNat_lt
  have hsize := s.memory.size.toNat_lt
  omega

/-- **Where segments start and end can be rounded to pages.** -/
theorem roundable_bounds (loads : List LoadSegment) {pageSize : UInt32}
    (h : isPowerOfTwo pageSize.toNat) :
    Roundable (lowest loads) pageSize.toNat ∧ Roundable (highest loads) pageSize.toNat := by
  have hlow := lowest_lt loads
  have hhigh := highest_le loads
  have hpage := pageSize.toNat_lt
  have hpower := exists_of_isPowerOfTwo h
  exact ⟨⟨hpower, by omega⟩, ⟨hpower, by omega⟩⟩

end Object

namespace Loader

/-- The objects end within the bounds of the map. -/
theorem objectsEnd_le {m : AddressMap} (h : m.Coherent) : objectsEnd m ≤ m.size := by
  refine (clearFrom_iff h).1 fun b owner hb howner => ?_
  exact absurd (h.ownerOf?_lt howner) (Nat.not_lt.2 hb)

/-- **The end of the objects can be rounded** for the memory that the program asks for. -/
theorem Tidy.roundable_objectsEnd {l : Loader} (h : l.Tidy) :
    Roundable (objectsEnd l.map) heapAlignment := by
  have hend := (objectsEnd_le h.coherent).trans h.size_le
  rw [addressSpace] at hend
  exact ⟨⟨3, rfl⟩, by rw [heapAlignment]; omega⟩

end Loader

/-- **Rounding up in words gives the least multiple that is not below, and rounding down the
greatest one that is not above**, if the number that is cut fits into a word. At that limit, where
`n + align` is `2 ^ 64`, the sum wraps around to zero; a build that checks sums for overflow stops
there. Wherever the loader rounds, the sum fits as well, so that words give what the loader uses:
for each free stretch of a map of at most `2 ^ 32` addresses, whatever alignment is asked for; for
the first and the last address of any segments in pages; and for the end of the objects, after any
calls of phases. The page size is a power of two from the end of the first phase on, as this phase
refuses any other one and does nothing then. -/
theorem rounding_of_words :
    (∀ n align : UInt64, (∃ k, align.toNat = 2 ^ k) → n.toNat + align.toNat - 1 < 2 ^ 64 →
      (wordUp n align).toNat = alignUp n.toNat align.toNat ∧
      (wordDown n align).toNat = alignDown n.toNat align.toNat ∧
      IsLeast {m | align.toNat ∣ m ∧ n.toNat ≤ m} (alignUp n.toNat align.toNat) ∧
      IsGreatest {m | align.toNat ∣ m ∧ m ≤ n.toNat} (alignDown n.toNat align.toNat)) ∧
    (∀ n align : Nat, Roundable n align →
      (wordUp (.ofNat n) (.ofNat align)).toNat = alignUp n align ∧
      (wordDown (.ofNat n) (.ofNat align)).toNat = alignDown n align) ∧
    (∀ bound ≤ 2 ^ 32, ∀ (ops : List AddressMap.Operation) (size alignment : UInt32),
      ∀ gap ∈ AddressMap.gaps bound 0 (ops.foldl AddressMap.perform (.free bound)).reservations,
        Roundable gap.1 (AddressMap.grain alignment) ∧
          alignUp gap.1 (AddressMap.grain alignment) + AddressMap.room size < 2 ^ 64) ∧
    (∀ (loads : List LoadSegment) (pageSize : UInt32), isPowerOfTwo pageSize.toNat →
      Roundable (Object.lowest loads) pageSize.toNat ∧
        Roundable (Object.highest loads) pageSize.toNat) ∧
    (∀ (config : Config) (processor : Processor) (memory : Memory) (calls : List Loader.Call),
      Roundable (Loader.objectsEnd ((Loader.new config processor memory).afterAll calls).map)
          Loader.heapAlignment ∧
        (((Loader.new config processor memory).afterAll calls).phase ≠ .created →
          isPowerOfTwo
            ((Loader.new config processor memory).afterAll calls).config.pageSize.toNat)) ∧
    ∀ (l : Loader) (fs : FileSystem) (path : String), ¬ isPowerOfTwo l.config.pageSize.toNat →
      ∃ e, (Loader.initiate fs path).run l = ⟨.error e, l, []⟩ := by
  refine ⟨?_, fun n align h => ⟨h.toNat_wordUp, h.toNat_wordDown⟩, ?_, ?_, ?_, ?_⟩
  · intro n align hpower hn
    have hpos : 0 < align.toNat := by
      obtain ⟨k, hk⟩ := hpower
      exact hk ▸ Nat.two_pow_pos k
    exact ⟨toNat_wordUp hpower hn, toNat_wordDown n hpower, isLeast_alignUp hpos,
      isGreatest_alignDown _ _⟩
  · intro bound hbound ops size alignment gap hgap
    obtain ⟨hcoherent, hsize⟩ := (AddressMap.coherent_free bound).foldl_perform ops
    have hsize' : (ops.foldl AddressMap.perform (.free bound)).size = bound := hsize
    exact AddressMap.roundable_of_mem_gaps hcoherent.wellOrdered (hsize'.trans_le hbound) size
      alignment (by rwa [hsize'])
  · exact fun loads pageSize h => Object.roundable_bounds loads h
  · intro config processor memory calls
    have htidy := Loader.tidy_afterAll config processor memory calls
    exact ⟨htidy.roundable_objectsEnd, htidy.pageSize⟩
  · exact fun l fs path h => Loader.run_initiate_of_not_isPowerOfTwo h fs path

/-- The last multiple of four that fits into a word, whose sum with four does not; a free stretch
and the largest alignment that can be asked for; and a program of two objects. -/
theorem rounding_of_words_edges :
    ((0xfffffffffffffffc : UInt64).toNat + (4 : UInt64).toNat - 1 < 2 ^ 64 ∧
        (wordUp 0xfffffffffffffffc 4).toNat = alignUp 0xfffffffffffffffc 4 ∧
        wordUp 0xfffffffffffffffc 4 = 0xfffffffffffffffc) ∧
      (wordUp (.ofNat 1) (.ofNat (AddressMap.grain 0xffffffff))).toNat = 0x100000000 ∧
      Roundable (Object.highest [⟨⟨0, 16⟩, ⟨0xffffffff, 0xffffffff⟩, 0⟩]) 0x1000 ∧
      Roundable (Loader.objectsEnd (Loader.gapLoader.afterAll Loader.gapCalls).map) 8 ∧
      isPowerOfTwo (Loader.gapLoader.afterAll Loader.gapCalls).config.pageSize.toNat := by
  obtain ⟨hwords, hnumbers, hgaps, hsegments, hloaders, -⟩ := rounding_of_words
  obtain ⟨hend, hpage⟩ := hloaders gapConfig .arm (.zeroed 0x100000) Loader.gapCalls
  obtain ⟨l, m, n, hl, hphase, -⟩ := Loader.afterAll_gapCalls
  have hgap := (hgaps 0x100000000 (by decide) AddressMap.joiningOperations 1 0xffffffff (1, 0x1000)
    (by decide +kernel)).1
  refine ⟨⟨by decide, (hwords 0xfffffffffffffffc 4 ⟨2, rfl⟩ (by decide)).1, by decide⟩, ?_,
    (hsegments _ 0x1000 (by decide)).2, hend, hpage ?_⟩
  · rw [(hnumbers _ _ hgap).1]
    decide +kernel
  · rw [← Loader.gapLoader, hl, hphase]
    decide

end ElfLoader
