import ElfLoader.Text.Escape
import ElfLoader.Text.Width

/-!
# Styled text

Titles, cells and notices are written in a style. Styled text is one line: the lines of the
text, each filled up to the widest one and with escape sequences around it, one behind the
other (`ElfLoader.Styled.pieces`).

* `ElfLoader.Styled.visible` – what is seen of it;
* `ElfLoader.Styled.room` – the places that it needs in a column, where escape sequences are
  counted too.

Text of one line without escape sequences and without characters that are wider among
ideographs is seen as it is (`ElfLoader.Styled.visible_of_visible`).
-/

namespace ElfLoader.Styled

/-- A run of `n` blanks. -/
def blanks (n : Nat) : String := String.ofList (List.replicate n ' ')

/-- A line without the return that belongs to its end. -/
def dropReturn (line : List Char) : List Char :=
  if line.getLast? = some '\r' then line.dropLast else line

/-- The lines of characters, behind the characters `line` of the first one in reverse. The
last line need not have an end. -/
def linesFrom (line : List Char) : List Char → List (List Char)
  | [] => if line.isEmpty then [] else [line.reverse]
  | c :: cs =>
    if c = '\n' then dropReturn line.reverse :: linesFrom [] cs else linesFrom (c :: line) cs

/-- The lines of a text. -/
def lines (text : String) : List String := (linesFrom [] text.toList).map String.ofList

/-- The width of the widest line, among ideographs. -/
def span (text : String) : Nat := (((lines text).map (Width.ofText .wide)).max?).getD 0

/-- The blanks behind a line in a text of a span. Places that a line takes only among
ideographs are filled up a second time. -/
def fill (span : Nat) (line : String) : String :=
  blanks (span + Width.ofText .wide line - 2 * Width.ofText .narrow line)

/-- The lines of a text with the blanks behind them. -/
def pieces (text : String) : List String :=
  (lines text).map fun line => line ++ fill (span text) line

/-- **What is seen of a text.** An escape sequence in it ends with its line. -/
def visible (text : String) : String := String.join ((pieces text).map Escape.strip)

/-- The length of the escape sequences around a line. -/
def marks : Nat := 8

/-- **The places that a text needs in a column**, with its escape sequences. -/
def room (text : String) : Nat :=
  ((pieces text).map fun piece => marks + Width.ofText .narrow piece).foldr (· + ·) 0

/-! ### Ordinary text -/

/-- Characters without an end of a line are one line, unless there are none. -/
theorem linesFrom_of_notMem {cs : List Char} (h : '\n' ∉ cs) (line : List Char) :
    linesFrom line cs = if line = [] ∧ cs = [] then [] else [line.reverse ++ cs] := by
  induction cs generalizing line with
  | nil => cases line <;> simp [linesFrom]
  | cons c cs ih =>
    have hc : c ≠ '\n' := fun e => h (by simp [e])
    simp [linesFrom, hc, ih fun hn => h (by simp [hn])]

/-- **Ordinary text is seen as it is.** -/
theorem visible_of_visible {text : String}
    (h : ∀ c ∈ text.toList, 0x20 ≤ c.toNat ∧ c.toNat ≤ 0x7e) : visible text = text := by
  have hn : '\n' ∉ text.toList := fun hm => absurd (h _ hm).1 (by decide)
  have hs : Escape.start ∉ text.toList := fun hm => absurd (h _ hm).1 (by decide)
  have hw (setting : Width.Setting) : Width.ofText setting text = text.length :=
    Width.ofText_of_visible h
  by_cases he : text.toList = []
  · have ht : text = "" := String.toList_eq_nil_iff.1 he
    subst ht
    rfl
  · have hl : lines text = [text] := by
      simp [lines, linesFrom_of_notMem hn, he, String.ofList_toList]
    have hspan : span text = text.length := by simp [span, hl, hw]
    have hfill : fill text.length text = "" := by
      have h0 : text.length + text.length - 2 * text.length = 0 := by omega
      simp [fill, hw, h0, blanks]
    simp [visible, pieces, hl, hspan, hfill, Escape.strip, Escape.visible_of_notMem hs,
      String.ofList_toList]

end ElfLoader.Styled
