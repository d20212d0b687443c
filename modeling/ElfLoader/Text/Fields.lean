/-!
# Fields of a text

`ElfLoader.Fields.split` cuts a text at every occurrence of a separator. The
fields, with the separator between them, make up the text again
(`ElfLoader.Fields.intercalate_splitChars`), so a text without the separator is its own only
field, and the empty text has one empty field.
-/

namespace ElfLoader.Fields

/-- The fields of a run of characters. -/
def splitChars (separator : Char) : List Char → List (List Char)
  | [] => [[]]
  | c :: cs =>
    if c = separator then [] :: splitChars separator cs
    else match splitChars separator cs with
      | [] => [[c]]
      | field :: rest => (c :: field) :: rest

/-- A text has a field. -/
theorem splitChars_ne_nil (separator : Char) (cs : List Char) :
    splitChars separator cs ≠ [] := by
  cases cs with
  | nil => simp [splitChars]
  | cons c cs =>
    unfold splitChars
    split
    · simp
    · split <;> simp

/-- **The fields make up the text**, with the separator between them. -/
theorem intercalate_splitChars (separator : Char) (cs : List Char) :
    [separator].intercalate (splitChars separator cs) = cs := by
  induction cs with
  | nil => rfl
  | cons c cs ih =>
    obtain ⟨field, rest, h⟩ := List.exists_cons_of_ne_nil (splitChars_ne_nil separator cs)
    rw [h] at ih
    unfold splitChars
    by_cases hc : c = separator
    · rw [if_pos hc, h, List.intercalate_cons_cons, ih, hc]
      rfl
    · rw [if_neg hc, h]
      change [separator].intercalate ((c :: field) :: rest) = c :: cs
      rw [← ih]
      cases rest <;> simp [List.intercalate]

/-- The fields of a text. -/
def split (separator : Char) (text : String) : List String :=
  (splitChars separator text.toList).map String.ofList

end ElfLoader.Fields
