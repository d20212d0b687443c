import ElfLoader.Alignment
import Mathlib.Algebra.Ring.Nat
import Mathlib.Order.Bounds.Basic

/-!
# Rounding to multiples

What rounding up and down is for: `ElfLoader.alignUp` gives the least multiple that is
not below a number (`ElfLoader.isLeast_alignUp`), `ElfLoader.alignDown` the greatest one
that is not above it (`ElfLoader.isGreatest_alignDown`). Any alignment is turned into the least
power of two that is not below it (`ElfLoader.isLeast_nextPowerOfTwo`); a page size is one
already, so it is left as it is (`ElfLoader.nextPowerOfTwo_of_isPowerOfTwo`).
-/

namespace ElfLoader

variable {n m align : Nat}

/-! ### Rounding up -/

theorem dvd_alignUp (n align : Nat) : align ∣ alignUp n align := Nat.dvd_mul_left _ _

/-- Rounding up does not go below the number. -/
theorem le_alignUp (h : 0 < align) : n ≤ alignUp n align := by
  have hmod := Nat.mod_lt (n + align - 1) h
  have hdiv := Nat.div_add_mod (n + align - 1) align
  rw [alignUp, Nat.mul_comm]
  omega

/-- Rounding up stops at the first multiple. -/
theorem alignUp_le (h : align ∣ m) (hn : n ≤ m) : alignUp n align ≤ m := by
  rcases Nat.eq_zero_or_pos align with rfl | hpos
  · simp [alignUp]
  obtain ⟨k, rfl⟩ := h
  -- both sides are multiples, so it is enough to compare how often
  rw [alignUp, Nat.mul_comm]
  refine Nat.mul_le_mul_left align (Nat.lt_succ_iff.1 ((Nat.div_lt_iff_lt_mul hpos).2 ?_))
  rw [Nat.succ_mul, Nat.mul_comm k]
  omega

/-- **Rounding up gives the least multiple that is not below.** -/
theorem isLeast_alignUp (h : 0 < align) :
    IsLeast {m | align ∣ m ∧ n ≤ m} (alignUp n align) :=
  ⟨⟨dvd_alignUp n align, le_alignUp h⟩, fun _ hm => alignUp_le hm.1 hm.2⟩

/-! ### Rounding down -/

theorem dvd_alignDown (n align : Nat) : align ∣ alignDown n align := Nat.dvd_mul_left _ _

/-- Rounding down does not go above the number. -/
theorem alignDown_le (n align : Nat) : alignDown n align ≤ n := Nat.div_mul_le_self n align

/-- Rounding down stops at the first multiple. -/
theorem le_alignDown (h : align ∣ m) (hm : m ≤ n) : m ≤ alignDown n align := by
  rcases Nat.eq_zero_or_pos align with rfl | hpos
  · simp [Nat.eq_zero_of_zero_dvd h]
  obtain ⟨k, rfl⟩ := h
  rw [alignDown, Nat.mul_comm align]
  refine Nat.mul_le_mul_right align ((Nat.le_div_iff_mul_le hpos).2 ?_)
  rwa [Nat.mul_comm]

/-- **Rounding down gives the greatest multiple that is not above.** -/
theorem isGreatest_alignDown (n align : Nat) :
    IsGreatest {m | align ∣ m ∧ m ≤ n} (alignDown n align) :=
  ⟨⟨dvd_alignDown n align, alignDown_le n align⟩, fun _ hm => le_alignDown hm.1 hm.2⟩

/-! ### Powers of two -/

theorem eq_shiftLeft_of_isPowerOfTwo (h : isPowerOfTwo n) : n = 1 <<< n.log2 := by
  simp only [isPowerOfTwo, Bool.and_eq_true, beq_iff_eq] at h
  exact h.2

theorem pos_of_isPowerOfTwo (h : isPowerOfTwo n) : 0 < n := by
  simp only [isPowerOfTwo, Bool.and_eq_true, decide_eq_true_eq] at h
  exact Nat.pos_of_ne_zero h.1

/-- A power of two is the least power of two that is not below it. -/
theorem nextPowerOfTwo_of_isPowerOfTwo (h : isPowerOfTwo n) : nextPowerOfTwo n = n := by
  have hpow := eq_shiftLeft_of_isPowerOfTwo h
  rw [nextPowerOfTwo, if_pos hpow.le]
  exact hpow.symm

/-- Every result of rounding up to a power of two is positive. -/
theorem nextPowerOfTwo_pos (n : Nat) : 0 < nextPowerOfTwo n := by
  simp only [nextPowerOfTwo, Nat.one_shiftLeft]
  split <;> exact Nat.two_pow_pos _

/-- **Rounding up to a power of two gives the least one that is not below.** -/
theorem isLeast_nextPowerOfTwo (n : Nat) :
    IsLeast {g | (∃ k, g = 2 ^ k) ∧ n ≤ g} (nextPowerOfTwo n) := by
  simp only [nextPowerOfTwo, Nat.one_shiftLeft]
  split
  · next hle =>
    refine ⟨⟨⟨_, rfl⟩, hle⟩, ?_⟩
    rintro _ ⟨⟨k, rfl⟩, hk⟩
    rcases Nat.eq_zero_or_pos n with rfl | hpos
    · exact Nat.one_le_two_pow
    · exact (Nat.log2_self_le hpos.ne').trans hk
  · next hlt =>
    refine ⟨⟨⟨_, rfl⟩, Nat.lt_log2_self.le⟩, ?_⟩
    rintro _ ⟨⟨k, rfl⟩, hk⟩
    -- a power above the one that is too small is at least twice as large
    have hexp : n.log2 < k := (Nat.pow_lt_pow_iff_right (by decide)).1 ((not_le.1 hlt).trans_le hk)
    exact Nat.pow_le_pow_right (by decide) hexp

end ElfLoader
