import ElfLoader.Text.Width.Sequence

/-!
# Widths of texts on a grid

Text in columns is laid out on a grid of places. `ElfLoader.Width.ofText` is the number of
places that a text takes, read from its end character by character
(`ElfLoader.Width.step`). Ordinary text takes a place for each character
(`ElfLoader.Width.ofText_of_visible`).
-/

namespace ElfLoader.Width

/-- The places that characters take, and what they are to a character before them. -/
def ofChars (setting : Setting) (cs : List Char) : Int × Follower :=
  cs.foldr (fun c behind =>
    let added := step setting c behind.2
    (behind.1 + added.1, added.2)) (0, .plain)

/-- The places that a text takes. -/
def ofText (setting : Setting) (text : String) : Nat := (ofChars setting text.toList).1.toNat

/-- Visible characters of the Latin alphabet take a place each. -/
theorem ofChars_of_visible {setting : Setting} {cs : List Char}
    (h : ∀ c ∈ cs, 0x20 ≤ c.toNat ∧ c.toNat ≤ 0x7e) :
    ofChars setting cs = ((cs.length : Int), .plain) := by
  induction cs with
  | nil => rfl
  | cons c cs ih =>
    have hc := h c (by simp)
    have hcs := ih fun d hd => h d (by simp [hd])
    unfold ofChars at hcs ⊢
    rw [List.foldr_cons, hcs]
    simp [step_plain hc.1 hc.2]

/-- **Ordinary text takes a place for each character.** -/
theorem ofText_of_visible {setting : Setting} {text : String}
    (h : ∀ c ∈ text.toList, 0x20 ≤ c.toNat ∧ c.toNat ≤ 0x7e) :
    ofText setting text = text.length := by
  simp [ofText, ofChars_of_visible h, String.length_toList]

example : ofText .narrow "e\u0301…" = 2 ∧ ofText .wide "e\u0301…" = 3 := by decide +kernel

example : ofText .narrow "中文" = 4 ∧ ofText .narrow "❤\ufe0f" = 2 := by decide +kernel

end ElfLoader.Width
