/-!
# Terminal escape sequences

Colours and styles reach a terminal as sequences that start with the escape
character and end with the letter `m`. `ElfLoader.Escape.strip` leaves what is
shown: everything outside such a sequence, in order. A sequence without an end
swallows the rest.
-/

namespace ElfLoader.Escape

/-- The character that starts a sequence. -/
def start : Char := '\x1b'

/-- The characters outside escape sequences; `inside` says whether the text starts
within one. -/
def visible (inside : Bool) : List Char → List Char
  | [] => []
  | c :: cs =>
    if c = start then visible true cs
    else if inside then visible (c != 'm') cs
    else c :: visible false cs

/-- A text that does not start a sequence is visible. -/
theorem visible_of_notMem {cs : List Char} (h : start ∉ cs) : visible false cs = cs := by
  induction cs with
  | nil => rfl
  | cons c cs ih =>
    have hc : c ≠ start := fun e => h (by simp [e])
    simp [visible, hc, ih fun hs => h (by simp [hs])]

/-- A text without its escape sequences. -/
def strip (text : String) : String := String.ofList (visible false text.toList)

end ElfLoader.Escape
