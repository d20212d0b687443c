import ElfLoader.Text.Lossy

/-!
# Texts that are not damaged

A text that is written as UTF-8 is read back (`ElfLoader.Lossy.decode_toUTF8`): the bytes of a
character are recognized as such, whatever follows them (`ElfLoader.Lossy.chars_utf8EncodeChar`).
Only the character zero is written with a zero byte (`ElfLoader.Lossy.zero_notMem_toUTF8`), so a
zero byte can mark the end of any other text.
-/

namespace ElfLoader.Lossy

/-! ### The first byte and the others -/

/-- The library's `UInt8.toNat_ofNat_of_lt'`, with the bound as a numeral that `omega` reads. -/
theorem toNat_ofNat {n : Nat} (h : n < 256) : (UInt8.ofNat n).toNat = n :=
  UInt8.toNat_ofNat_of_lt' h

section Bytes

variable {a b : UInt8}

theorem not_lt_of_le (h : 0x80 ≤ a.toNat) : ¬ a < 0x80 := by
  rw [UInt8.lt_iff_toNat_lt]
  exact Nat.not_lt.2 h

theorem continues_of_le (h : 0x80 ≤ b.toNat) (h' : b.toNat ≤ 0xbf) : continues b = true := by
  simp only [continues, Bool.and_eq_true, decide_eq_true_eq, UInt8.le_iff_toNat_le]
  exact ⟨h, h'⟩

theorem followers_eq_one (h : 0xc2 ≤ a.toNat) (h' : a.toNat ≤ 0xdf) : followers a = 1 := by
  simp only [followers, Bool.and_eq_true, decide_eq_true_eq, UInt8.le_iff_toNat_le]
  exact if_pos ⟨h, h'⟩

theorem followers_eq_two (h : 0xe0 ≤ a.toNat) (h' : a.toNat ≤ 0xef) : followers a = 2 := by
  simp only [followers, Bool.and_eq_true, decide_eq_true_eq, UInt8.le_iff_toNat_le,
    UInt8.reduceToNat]
  rw [if_neg (by omega), if_pos ⟨h, h'⟩]

theorem followers_eq_three (h : 0xf0 ≤ a.toNat) (h' : a.toNat ≤ 0xf4) : followers a = 3 := by
  simp only [followers, Bool.and_eq_true, decide_eq_true_eq, UInt8.le_iff_toNat_le,
    UInt8.reduceToNat]
  rw [if_neg (by omega), if_neg (by omega), if_pos ⟨h, h'⟩]

/-- The second byte of a character continues it, and behind some first bytes the bounds are
narrower. -/
theorem second_of_le (h : 0x80 ≤ b.toNat) (h' : b.toNat ≤ 0xbf)
    (he0 : a.toNat = 0xe0 → 0xa0 ≤ b.toNat) (hed : a.toNat = 0xed → b.toNat ≤ 0x9f)
    (hf0 : a.toNat = 0xf0 → 0x90 ≤ b.toNat) (hf4 : a.toNat = 0xf4 → b.toNat ≤ 0x8f) :
    second a b = true := by
  unfold second
  simp only [beq_iff_eq, ← UInt8.toNat_inj]
  split
  · next ha =>
    simp only [Bool.and_eq_true, decide_eq_true_eq, UInt8.le_iff_toNat_le]
    exact ⟨he0 ha, h'⟩
  · split
    · next ha =>
      simp only [Bool.and_eq_true, decide_eq_true_eq, UInt8.le_iff_toNat_le]
      exact ⟨h, hed ha⟩
    · split
      · next ha =>
        simp only [Bool.and_eq_true, decide_eq_true_eq, UInt8.le_iff_toNat_le]
        exact ⟨hf0 ha, h'⟩
      · split
        · next ha =>
          simp only [Bool.and_eq_true, decide_eq_true_eq, UInt8.le_iff_toNat_le]
          exact ⟨h, hf4 ha⟩
        · exact continues_of_le h h'

end Bytes

/-! ### Characters of one to four bytes -/

section Chars

variable {v : Nat} (rest : List UInt8)

/-- What the bytes behind the first one hold. -/
theorem toNat_follower (n : Nat) : (UInt8.ofNat (n % 64 + 0x80)).toNat = n % 64 + 0x80 :=
  toNat_ofNat (by omega)

theorem chars_one (h : v < 0x80) : chars (UInt8.ofNat v :: rest) = Char.ofNat v :: chars rest := by
  have ha : (UInt8.ofNat v).toNat = v := toNat_ofNat (by omega)
  have hlt : UInt8.ofNat v < 0x80 := by
    rw [UInt8.lt_iff_toNat_lt, ha]
    exact h
  rw [chars.eq_def]
  dsimp only
  rw [if_pos hlt, ha]

theorem chars_two (h : 0x80 ≤ v) (h' : v < 0x800) :
    chars (UInt8.ofNat (v / 64 % 32 + 0xc0) :: UInt8.ofNat (v % 64 + 0x80) :: rest) =
      Char.ofNat v :: chars rest := by
  have ha : (UInt8.ofNat (v / 64 % 32 + 0xc0)).toNat = v / 64 % 32 + 0xc0 :=
    toNat_ofNat (by omega)
  have hb := toNat_follower v
  generalize UInt8.ofNat (v / 64 % 32 + 0xc0) = a at ha ⊢
  generalize UInt8.ofNat (v % 64 + 0x80) = b at hb ⊢
  have hvalue : a.toNat % 32 * 64 + low b = v := by
    rw [low, ha, hb]
    omega
  have hfollowers : followers a = 1 := followers_eq_one (by omega) (by omega)
  have hsecond : second a b = true := second_of_le (by omega) (by omega) (by omega) (by omega)
    (by omega) (by omega)
  rw [chars.eq_def]
  dsimp only
  rw [if_neg (not_lt_of_le (by omega))]
  simp [hfollowers, hsecond, hvalue]

/-- Surrogates are no characters. -/
theorem chars_three (h : 0x800 ≤ v) (h' : v < 0x10000) (hv : v < 0xd800 ∨ 0xdfff < v) :
    chars (UInt8.ofNat (v / 4096 % 16 + 0xe0) :: UInt8.ofNat (v / 64 % 64 + 0x80) ::
      UInt8.ofNat (v % 64 + 0x80) :: rest) = Char.ofNat v :: chars rest := by
  have ha : (UInt8.ofNat (v / 4096 % 16 + 0xe0)).toNat = v / 4096 % 16 + 0xe0 :=
    toNat_ofNat (by omega)
  have hb := toNat_follower (v / 64)
  have hc := toNat_follower v
  generalize UInt8.ofNat (v / 4096 % 16 + 0xe0) = a at ha ⊢
  generalize UInt8.ofNat (v / 64 % 64 + 0x80) = b at hb ⊢
  generalize UInt8.ofNat (v % 64 + 0x80) = c at hc ⊢
  have hvalue : a.toNat % 16 * 4096 + low b * 64 + low c = v := by
    rw [low, low, ha, hb, hc]
    omega
  have hfollowers : followers a = 2 := followers_eq_two (by omega) (by omega)
  have hsecond : second a b = true := second_of_le (by omega) (by omega) (by omega) (by omega)
    (by omega) (by omega)
  have hthird : continues c = true := continues_of_le (by omega) (by omega)
  rw [chars.eq_def]
  dsimp only
  rw [if_neg (not_lt_of_le (by omega))]
  simp [hfollowers, hsecond, hthird, hvalue]

theorem chars_four (h : 0x10000 ≤ v) (h' : v < 0x110000) :
    chars (UInt8.ofNat (v / 262144 % 8 + 0xf0) :: UInt8.ofNat (v / 4096 % 64 + 0x80) ::
      UInt8.ofNat (v / 64 % 64 + 0x80) :: UInt8.ofNat (v % 64 + 0x80) :: rest) =
        Char.ofNat v :: chars rest := by
  have ha : (UInt8.ofNat (v / 262144 % 8 + 0xf0)).toNat = v / 262144 % 8 + 0xf0 :=
    toNat_ofNat (by omega)
  have hb := toNat_follower (v / 4096)
  have hc := toNat_follower (v / 64)
  have hd := toNat_follower v
  generalize UInt8.ofNat (v / 262144 % 8 + 0xf0) = a at ha ⊢
  generalize UInt8.ofNat (v / 4096 % 64 + 0x80) = b at hb ⊢
  generalize UInt8.ofNat (v / 64 % 64 + 0x80) = c at hc ⊢
  generalize UInt8.ofNat (v % 64 + 0x80) = d at hd ⊢
  have hvalue : a.toNat % 8 * 262144 + low b * 4096 + low c * 64 + low d = v := by
    rw [low, low, low, ha, hb, hc, hd]
    omega
  have hfollowers : followers a = 3 := followers_eq_three (by omega) (by omega)
  have hsecond : second a b = true := second_of_le (by omega) (by omega) (by omega) (by omega)
    (by omega) (by omega)
  have hthird : continues c = true := continues_of_le (by omega) (by omega)
  have hfourth : continues d = true := continues_of_le (by omega) (by omega)
  rw [chars.eq_def]
  dsimp only
  rw [if_neg (not_lt_of_le (by omega))]
  simp [hfollowers, hsecond, hthird, hfourth, hvalue]

end Chars

/-- **A character is read back** from its bytes, and decoding goes on behind them. -/
theorem chars_utf8EncodeChar (c : Char) (rest : List UInt8) :
    chars (String.utf8EncodeChar c ++ rest) = c :: chars rest := by
  have hc : Char.ofNat c.val.toNat = c := Char.ofNat_toNat c
  have hvalid : c.val.toNat < 0xd800 ∨ 0xdfff < c.val.toNat ∧ c.val.toNat < 0x110000 := c.valid
  unfold String.utf8EncodeChar
  dsimp only
  generalize c.val.toNat = v at hc hvalid
  split
  · exact (chars_one rest (by omega)).trans (by rw [hc])
  · split
    · exact (chars_two rest (by omega) (by omega)).trans (by rw [hc])
    · split
      · exact (chars_three rest (by omega) (by omega) (by omega)).trans (by rw [hc])
      · exact (chars_four rest (by omega) (by omega)).trans (by rw [hc])

/-! ### Texts -/

theorem chars_flatMap (text : List Char) : chars (text.flatMap String.utf8EncodeChar) = text := by
  induction text with
  | nil => rfl
  | cons c text ih => rw [List.flatMap_cons, chars_utf8EncodeChar, ih]

theorem toList_toUTF8 (text : String) :
    text.toUTF8.data.toList = text.toList.flatMap String.utf8EncodeChar := by
  conv => lhs; rw [← String.ofList_toList (s := text)]
  exact congrArg Array.toList List.data_toByteArray

/-- **A text is read back** from its bytes. -/
theorem decode_toUTF8 (text : String) : decode text.toUTF8.data.toList = text := by
  rw [decode, toList_toUTF8, chars_flatMap, String.ofList_toList]

/-- No other character than zero is written with a zero byte. -/
theorem zero_notMem_utf8EncodeChar {c : Char} (h : c ≠ '\x00') :
    0 ∉ String.utf8EncodeChar c := by
  have hv : c.val.toNat ≠ 0 := fun hzero => h (Char.ext (UInt32.toNat_inj.1 hzero))
  have hbyte : ∀ n, n % 256 ≠ 0 → (0 : UInt8) ≠ UInt8.ofNat n := by
    intro n hn heq
    exact hn (UInt8.toNat_ofNat' ▸ (congrArg UInt8.toNat heq).symm)
  unfold String.utf8EncodeChar
  dsimp only
  generalize c.val.toNat = v at hv
  split
  · simp only [List.mem_singleton]
    exact hbyte v (by omega)
  · split
    · simp only [List.mem_cons, List.not_mem_nil, or_false, not_or]
      exact ⟨hbyte _ (by omega), hbyte _ (by omega)⟩
    · split
      · simp only [List.mem_cons, List.not_mem_nil, or_false, not_or]
        exact ⟨hbyte _ (by omega), hbyte _ (by omega), hbyte _ (by omega)⟩
      · simp only [List.mem_cons, List.not_mem_nil, or_false, not_or]
        exact ⟨hbyte _ (by omega), hbyte _ (by omega), hbyte _ (by omega), hbyte _ (by omega)⟩

/-- **A text without the character zero has no zero byte.** -/
theorem zero_notMem_toUTF8 {text : String} (h : '\x00' ∉ text.toList) :
    0 ∉ text.toUTF8.data.toList := by
  rw [toList_toUTF8, List.mem_flatMap]
  rintro ⟨c, hc, hzero⟩
  exact zero_notMem_utf8EncodeChar (fun heq => h (heq ▸ hc)) hzero

end ElfLoader.Lossy
