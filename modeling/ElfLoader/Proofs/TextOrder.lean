import ElfLoader.Proofs.Texts
import Mathlib.Data.String.Basic

/-!
# Texts in the order of their bytes

Texts are compared character by character, and file names byte by byte. The order is the same
(`ElfLoader.Lossy.lt_iff_toUTF8_lt`), because UTF-8 keeps the order of characters: a character that
takes more bytes has a greater first byte, and the bytes of two that take as many are the digits of
their values, the most significant first (`ElfLoader.Lossy.utf8EncodeChar_append_lt`).
-/

namespace ElfLoader.Lossy

variable {a b v w : Nat} {xs ys : List UInt8}

/-! ### Characters of one to four bytes -/

/-- The first bytes decide, and if they are the same, those behind them. -/
theorem ofNat_cons_lt (hb : b < 256) (h : a < b ∨ a = b ∧ xs < ys) :
    UInt8.ofNat a :: xs < UInt8.ofNat b :: ys := by
  rw [List.cons_lt_cons_iff]
  rcases h with h | ⟨rfl, h⟩
  · refine .inl (UInt8.lt_iff_toNat_lt.2 ?_)
    rwa [toNat_ofNat (h.trans hb), toNat_ofNat hb]
  · exact .inr ⟨rfl, h⟩

theorem two_lt (h : v < w) (hw : w < 0x800) :
    UInt8.ofNat (v / 64 % 32 + 0xc0) :: UInt8.ofNat (v % 64 + 0x80) :: xs <
      UInt8.ofNat (w / 64 % 32 + 0xc0) :: UInt8.ofNat (w % 64 + 0x80) :: ys := by
  refine ofNat_cons_lt (by omega) ?_
  by_cases h₁ : v / 64 = w / 64
  · exact .inr ⟨by rw [h₁], ofNat_cons_lt (by omega) (.inl (by omega))⟩
  · exact .inl (by omega)

theorem three_lt (h : v < w) (hw : w < 0x10000) :
    UInt8.ofNat (v / 4096 % 16 + 0xe0) :: UInt8.ofNat (v / 64 % 64 + 0x80) ::
        UInt8.ofNat (v % 64 + 0x80) :: xs <
      UInt8.ofNat (w / 4096 % 16 + 0xe0) :: UInt8.ofNat (w / 64 % 64 + 0x80) ::
        UInt8.ofNat (w % 64 + 0x80) :: ys := by
  refine ofNat_cons_lt (by omega) ?_
  by_cases h₁ : v / 4096 = w / 4096
  · refine .inr ⟨by rw [h₁], ofNat_cons_lt (by omega) ?_⟩
    by_cases h₂ : v / 64 = w / 64
    · exact .inr ⟨by rw [h₂], ofNat_cons_lt (by omega) (.inl (by omega))⟩
    · exact .inl (by omega)
  · exact .inl (by omega)

theorem four_lt (h : v < w) (hw : w < 0x110000) :
    UInt8.ofNat (v / 262144 % 8 + 0xf0) :: UInt8.ofNat (v / 4096 % 64 + 0x80) ::
        UInt8.ofNat (v / 64 % 64 + 0x80) :: UInt8.ofNat (v % 64 + 0x80) :: xs <
      UInt8.ofNat (w / 262144 % 8 + 0xf0) :: UInt8.ofNat (w / 4096 % 64 + 0x80) ::
        UInt8.ofNat (w / 64 % 64 + 0x80) :: UInt8.ofNat (w % 64 + 0x80) :: ys := by
  refine ofNat_cons_lt (by omega) ?_
  by_cases h₁ : v / 262144 = w / 262144
  · refine .inr ⟨by rw [h₁], ofNat_cons_lt (by omega) ?_⟩
    by_cases h₂ : v / 4096 = w / 4096
    · refine .inr ⟨by rw [h₂], ofNat_cons_lt (by omega) ?_⟩
      by_cases h₃ : v / 64 = w / 64
      · exact .inr ⟨by rw [h₃], ofNat_cons_lt (by omega) (.inl (by omega))⟩
      · exact .inl (by omega)
    · exact .inl (by omega)
  · exact .inl (by omega)

/-- **UTF-8 keeps the order of characters**, whatever comes behind them. -/
theorem utf8EncodeChar_append_lt {c d : Char} (h : c < d) :
    String.utf8EncodeChar c ++ xs < String.utf8EncodeChar d ++ ys := by
  replace h : c.val.toNat < d.val.toNat := h
  have hd : d.val.toNat < 0x110000 := by
    rcases d.valid with hd | hd
    · exact hd.trans (by decide)
    · exact hd.2
  unfold String.utf8EncodeChar
  dsimp only
  generalize c.val.toNat = v at h
  generalize d.val.toNat = w at h hd
  -- the smaller character takes as many bytes, or fewer and then its first byte is smaller
  by_cases hv₁ : v ≤ 0x7f
  · rw [if_pos hv₁]
    split_ifs <;> exact ofNat_cons_lt (by omega) (.inl (by omega))
  rw [if_neg hv₁, if_neg (by omega : ¬ w ≤ 0x7f)]
  by_cases hv₂ : v ≤ 0x7ff
  · rw [if_pos hv₂]
    split_ifs with hw₂
    · exact two_lt h (by omega)
    all_goals exact ofNat_cons_lt (by omega) (.inl (by omega))
  rw [if_neg hv₂, if_neg (by omega : ¬ w ≤ 0x7ff)]
  by_cases hv₃ : v ≤ 0xffff
  · rw [if_pos hv₃]
    split_ifs with hw₃
    · exact three_lt h (by omega)
    · exact ofNat_cons_lt (by omega) (.inl (by omega))
  rw [if_neg hv₃, if_neg (by omega : ¬ w ≤ 0xffff)]
  exact four_lt h hd

/-! ### Texts -/

theorem flatMap_utf8EncodeChar_lt {cs ds : List Char} (h : cs < ds) :
    cs.flatMap String.utf8EncodeChar < ds.flatMap String.utf8EncodeChar := by
  induction List.lex_lt.2 h with
  | @nil d ds =>
    obtain ⟨first, behind, hd⟩ :=
      List.exists_cons_of_ne_nil (String.utf8EncodeChar_ne_nil (c := d))
    rw [List.flatMap_nil, List.flatMap_cons, hd]
    exact List.nil_lt_cons first _
  | @rel c cs d ds hlt =>
    rw [List.flatMap_cons, List.flatMap_cons]
    exact utf8EncodeChar_append_lt hlt
  | @cons c cs ds hlex ih =>
    rw [List.flatMap_cons, List.flatMap_cons]
    exact List.append_left_lt (ih (List.lex_lt.1 hlex))

/-- **The order of texts is that of their bytes.** -/
theorem lt_iff_toUTF8_lt (s t : String) :
    s < t ↔ s.toUTF8.data.toList < t.toUTF8.data.toList := by
  have hmono : ∀ {s t : String}, s < t → s.toUTF8.data.toList < t.toUTF8.data.toList := by
    intro s t h
    rw [toList_toUTF8, toList_toUTF8]
    exact flatMap_utf8EncodeChar_lt (String.lt_iff.1 h)
  constructor
  · exact hmono
  · intro h
    rcases lt_trichotomy s t with hlt | rfl | hgt
    · exact hlt
    · exact absurd h (List.lt_irrefl _)
    · exact absurd h (List.lt_asymm (hmono hgt))

end ElfLoader.Lossy
