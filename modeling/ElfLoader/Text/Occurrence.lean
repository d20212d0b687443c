/-!
# Occurrences

`ElfLoader.occursIn` decides whether one list stands somewhere within another, in
one piece (`ElfLoader.occursIn_iff`). File names are matched this way, and so is
the signature of a C library within an executable.
-/

namespace ElfLoader

variable {α : Type} [BEq α]

/-- Whether `part` stands somewhere within a list. -/
def occursIn (part : List α) : List α → Bool
  | [] => part.isEmpty
  | a :: rest => part.isPrefixOf (a :: rest) || occursIn part rest

/-- **A part occurs where the whole is something, the part, and something.** -/
theorem occursIn_iff [LawfulBEq α] (part whole : List α) :
    occursIn part whole = true ↔ part <:+: whole := by
  induction whole with
  | nil => simp [occursIn]
  | cons a rest ih =>
    simp only [occursIn, Bool.or_eq_true, List.isPrefixOf_iff_prefix, ih, List.infix_cons_iff]

end ElfLoader
