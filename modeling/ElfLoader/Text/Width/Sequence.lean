import ElfLoader.Text.Width.Classes

/-!
# Characters in a sequence

The width of a text is not always the sum of the widths of its characters: a pictograph can
be made up of several, and some scripts write two letters as one shape. Read from its end, a
text has these widths step by step: what a character adds depends only on the
`ElfLoader.Width.Follower`, which says what stands behind it.

* `ElfLoader.Width.ofChar` – the places that a character takes by itself;
* `ElfLoader.Width.Kind.letterRule` – letters that are written as one shape;
* `ElfLoader.Width.Kind.pictographRule` – pictographs that are put together;
* `ElfLoader.Width.step` – what a character adds to the text behind it. It can be less than
  nothing, where a mark shortens what has been counted already.
-/

namespace ElfLoader.Width

/-- What a text is shown among. -/
inductive Setting where
  /-- Letters of alphabets. -/
  | narrow
  /-- Ideographs: the characters of `ambiguous` are as wide as they are. -/
  | wide
  deriving DecidableEq, Repr, Inhabited

/-! ### Characters by themselves -/

/-- The places that a character takes by itself. -/
def ofChar (setting : Setting) (c : Char) : Nat :=
  if c.toNat ≤ 0xa0 then 1
  else if c.toNat = 0x17d8 then 3
  else if unseen.has c then 0
  else if double.has c then 2
  else if setting = .wide ∧ ambiguous.has c then 2
  else 1

/-- Marks that are not shown and that leave the letters on both sides of them together. -/
def ignorable : CharRanges :=
  [(0x34f, 0x34f), (0x17b4, 0x17b5), (0x180b, 0x180d), (0x180f, 0x180f), (0xfe00, 0xfe0f),
    (0xe0100, 0xe01ef)]

/-- Whether a mark leaves the Arabic letters on both sides of it together. -/
def joinsAcross (c : Char) : Bool := 0xa0 < c.toNat && unseen.has c && !apart.has c

/-- The joiner, which asks for one shape of what is on both sides of it. -/
def joiner : Nat := 0x200d

/-- The letters that flags are spelled with. -/
def flagLetters : CharRanges := [(0x1f1e6, 0x1f1ff)]

/-- The colours of skin. -/
def skins : CharRanges := [(0x1f3fb, 0x1f3ff)]

/-- The letters of tags. -/
def tagLetters : CharRanges := [(0xe0061, 0xe007a)]

/-- The digits of tags. -/
def tagDigits : CharRanges := [(0xe0030, 0xe0039)]

/-- The Arabic letter lam and its variants. -/
def lams : CharRanges :=
  [(0x644, 0x644), (0x6b5, 0x6b8), (0x76a, 0x76a), (0x8a6, 0x8a6), (0x8c7, 0x8c7)]

/-- The Arabic letter alef and its variants. -/
def alefs : CharRanges :=
  [(0x622, 0x623), (0x625, 0x625), (0x627, 0x627), (0x671, 0x673), (0x675, 0x675),
    (0x773, 0x774), (0x870, 0x882)]

/-- The Khmer letters that can be written below another one. -/
def khmerLetters : CharRanges :=
  [(0x1780, 0x1782), (0x1784, 0x1787), (0x1789, 0x178c), (0x178e, 0x1793), (0x1795, 0x1798),
    (0x179b, 0x179d), (0x17a0, 0x17a0), (0x17a2, 0x17a2), (0x17a7, 0x17a7), (0x17ab, 0x17ac),
    (0x17af, 0x17af)]

/-- The consonants of Tifinagh. -/
def tifinaghLetters : CharRanges := [(0x2d31, 0x2d65), (0x2d6f, 0x2d6f)]

/-- The tone letters of Lisu that come first. -/
def lisuFirstTones : CharRanges := [(0xa4f8, 0xa4fb)]

/-- The tone letters of Lisu that come second. -/
def lisuSecondTones : CharRanges := [(0xa4fc, 0xa4fd)]

/-- The quotation marks that are wide or narrow on demand. -/
def quotes : CharRanges := [(0x2018, 0x2019), (0x201c, 0x201d)]

/-! ### What stands behind a character -/

/-- What stands behind a character, as far as its width can depend on it. -/
inductive Kind where
  /-- Nothing that matters. -/
  | plain
  /-- The end of a line. -/
  | lineEnd
  /-- A pictograph. -/
  | pictograph
  /-- A colour of skin. -/
  | skin
  /-- One letter of a flag. -/
  | flagLetter
  /-- Several letters of flags. -/
  | flagSpelling
  /-- A joiner and a pictograph. -/
  | joinedPictograph
  /-- A frame of a key that is joined to a pictograph. -/
  | joinedKeycap
  /-- One letter of a flag that is joined to a pictograph. -/
  | joinedFlagLetter
  /-- Letters of flags that are joined to a pictograph, an even number of them. -/
  | joinedFlags
  /-- Letters of flags that are joined to a pictograph, an odd number of them. -/
  | joinedFlagsAndLetter
  /-- The end of a tag that is joined to a pictograph, behind so many letters. -/
  | tagEnd (letters : Nat)
  /-- Digits of a tag that is joined to a pictograph. -/
  | tagNumber (digits : Nat)
  /-- The Kirat Rai vowel E. -/
  | kiratE
  /-- The Kirat Rai vowel AI. -/
  | kiratAi
  /-- An Arabic alef. -/
  | alef
  /-- A stroke across the character before it. -/
  | stroke
  /-- A stroke, and an Arabic alef behind it. -/
  | strokeAlef
  /-- The Hebrew letter lamed, possibly behind a joiner. -/
  | lamed (joined : Bool)
  /-- The Buginese letter ya, possibly behind a joiner. -/
  | buginese (joined : Bool)
  /-- A Buginese vowel that is joined to the letter ya. -/
  | bugineseVowel
  /-- A consonant of Tifinagh, possibly behind a joiner. -/
  | tifinagh (joined : Bool)
  /-- The joiner of Tifinagh, and a consonant behind it. -/
  | tifinaghJoiner
  /-- A second tone letter of Lisu. -/
  | lisuTone
  /-- The Old Turkic letter I, possibly behind a joiner. -/
  | turkic (joined : Bool)
  /-- A Khmer letter that can be written below another one. -/
  | khmerLetter
  deriving DecidableEq, Repr, Inhabited

/-- How the character before is to be shown. -/
inductive Style where
  /-- As usual. -/
  | usual
  /-- As text. -/
  | text
  /-- As a pictograph. -/
  | pictograph
  /-- As a quotation mark of the less usual width. -/
  | quote
  deriving DecidableEq, Repr, Inhabited

/-- What stands behind a character. -/
structure Follower where
  /-- What it is. -/
  kind : Kind
  /-- What it asks for. -/
  style : Style
  deriving DecidableEq, Repr, Inhabited

namespace Kind

/-- What a character is to the one before it. -/
def ofChar (setting : Setting) (c : Char) : Kind :=
  if c.toNat = 0x5dc then .lamed false
  else if alefs.has c then .alef
  else if khmerLetters.has c then .khmerLetter
  else if c.toNat = 0x1a10 then .buginese false
  else if tifinaghLetters.has c then .tifinagh false
  else if lisuSecondTones.has c then .lisuTone
  else if c.toNat = 0x10c03 then .turkic false
  else if c.toNat = 0x16d67 then .kiratE
  else if c.toNat = 0x16d68 then .kiratAi
  else if flagLetters.has c then .flagLetter
  else if skins.has c then .skin
  else if pictographs.has c then .pictograph
  else if setting = .wide ∧ c.toNat = 0x338 then .stroke
  else .plain

/-- Whether it is the end of a sequence of letters or of a letter and a stroke. -/
def isLetter : Kind → Bool
  | alef | stroke | strokeAlef | lamed _ | buginese _ | bugineseVowel | tifinagh _ => true
  | tifinaghJoiner | lisuTone | turkic _ | khmerLetter => true
  | _ => false

/-- Whether the sequence goes on in front of a mark that is not shown. -/
def skipsMarks (k : Kind) : Bool := k.isLetter && k != .alef

/-- What it is behind a joiner. -/
def joined : Kind → Kind
  | strokeAlef => .stroke
  | lamed _ => .lamed true
  | buginese _ => .buginese true
  | tifinagh _ => .tifinagh true
  | turkic _ => .turkic true
  | k => k

/-- Whether it is joined to a pictograph in front of it. -/
def joinsPictograph (k : Kind) : Bool := k == .joinedPictograph || k == .joinedKeycap

/-- **Letters that are written as one shape**: what the first of them adds, and what they
are to the character before them. -/
def letterRule (setting : Setting) (k : Kind) (c : Char) : Option (Int × Kind) :=
  match k with
  -- Arabic lam and alef are one letter wide, with marks between them or without.
  | alef =>
    if lams.has c then some (0, .plain)
    else if setting = .wide ∧ c.toNat = 0x338 then some (0, .strokeAlef)
    else if joinsAcross c then some (0, .alef)
    else none
  | strokeAlef =>
    if lams.has c then some (0, .plain)
    else if accents.has c then
      some (Width.ofChar setting c, if joinsAcross c then .strokeAlef else .stroke)
    else if joinsAcross c then some (0, .alef)
    else none
  -- A stroke is looked for behind the signs of comparison only, whatever else is on them.
  | stroke => if accents.has c then some (Width.ofChar setting c, .stroke) else none
  | lamed true => if c.toNat = 0x5d0 then some (0, .plain) else none
  -- The Khmer letter has been counted, but it is written below the one before it.
  | khmerLetter => if c.toNat = 0x17d2 then some (-1, .plain) else none
  | buginese true => if c.toNat = 0x1a17 then some (0, .bugineseVowel) else none
  | bugineseVowel => if c.toNat = 0x1a15 then some (0, .plain) else none
  | tifinagh joined =>
    if c.toNat = 0x2d7f then some (1, .tifinaghJoiner)
    else if joined && tifinaghLetters.has c then some (0, .plain)
    else none
  | tifinaghJoiner => if tifinaghLetters.has c then some (-1, .plain) else none
  | lisuTone => if lisuFirstTones.has c then some (0, .plain) else none
  | turkic true => if c.toNat = 0x10c32 then some (0, .plain) else none
  -- The Kirat Rai vowels are put together from AA and E.
  | kiratE =>
    if c.toNat = 0x16d63 ∨ c.toNat = 0x16d69 then some (0, .plain)
    else if c.toNat = 0x16d67 then some (0, .kiratAi)
    else if c.toNat = 0x16d68 then some (1, .kiratE)
    else none
  | kiratAi => if c.toNat = 0x16d63 then some (0, .plain) else none
  | _ => none

/-- The rule for a character in front of a joiner and a pictograph. -/
def joinedRule (c : Char) : Option (Int × Kind) :=
  if c.toNat = 0x20e3 then some (0, .joinedKeycap)
  else if flagLetters.has c then some (1, .joinedFlagLetter)
  else if skins.has c then some (0, .skin)
  else if c.toNat = 0xe007f then some (0, .tagEnd 0)
  else if pictographs.has c then some (0, .pictograph)
  else none

/-- The rule for a character in front of a tag that is joined to a pictograph. -/
def tagRule (c : Char) : Kind → Option (Int × Kind)
  | tagEnd letters =>
    if letters < 6 ∧ tagLetters.has c then some (0, .tagEnd (letters + 1))
    else if letters < 5 ∧ tagDigits.has c then some (0, .tagNumber 1)
    else if 3 ≤ letters ∧ c.toNat = 0x1f3f4 then some (0, .pictograph)
    else none
  | tagNumber digits =>
    if digits < 3 ∧ tagDigits.has c then some (0, .tagNumber (digits + 1))
    else if digits = 3 ∧ c.toNat = 0x1f3f4 then some (0, .pictograph)
    else none
  | _ => none

/-- **Pictographs that are put together**: what the first part adds, and what they are to the
character before them. -/
def pictographRule (k : Kind) (c : Char) : Option (Int × Kind) :=
  let join := if c.toNat = joiner then some (0, .joinedPictograph) else none
  match k with
  | pictograph => join
  | skin => if modifierBases.has c then some (0, .pictograph) else join
  -- Two letters are a flag; without the second one there is nothing to join.
  | flagLetter => if flagLetters.has c then some (1, .flagSpelling) else none
  | flagSpelling => if flagLetters.has c then some (1, .flagSpelling) else join
  | joinedPictograph => joinedRule c
  -- Letters are paired from the left, so each one changes how those behind it are paired.
  | joinedFlagLetter => if flagLetters.has c then some (-1, .joinedFlags) else none
  | joinedFlags => if flagLetters.has c then some (3, .joinedFlagsAndLetter) else join
  | joinedFlagsAndLetter => if flagLetters.has c then some (-1, .joinedFlags) else join
  | k => tagRule c k

end Kind

namespace Follower

/-- Nothing that matters. -/
def plain : Follower := ⟨.plain, .usual⟩

/-- The same without what it asks for. Only sequences of letters stay what they are. -/
def unstyled (f : Follower) : Follower :=
  if f.style = .usual then f else if f.kind.isLetter then ⟨f.kind, .usual⟩ else plain

/-- The same behind a mark that asks for a style. -/
def withStyle (f : Follower) (style : Style) : Follower :=
  if f.kind.isLetter || (style = .pictograph && f.kind.joinsPictograph) then ⟨f.kind, style⟩
  else ⟨.plain, style⟩

end Follower

/-! ### Steps -/

/-- What a mark asks for, if it is a mark of that sort. A quotation mark that is narrow can be
asked to be wide, and a wide one to be narrow. -/
def styleOf? (setting : Setting) (c : Char) : Option Style :=
  match setting, c.toNat with
  | _, 0xfe0f => some .pictograph
  | .narrow, 0xfe0e => some .text
  | .narrow, 0xfe01 => some .quote
  | .wide, 0xfe00 => some .quote
  | .wide, 0xfe02 => some .quote
  | _, _ => none

/-- Whether a pictograph is narrower where it is shown as text. -/
def narrowsAsText (c : Char) : Bool :=
  pictographs.has c && pictographBases.has c && !(0x1f200 ≤ c.toNat && c.toNat ≤ 0x1f2ff)

/-- The places of a quotation mark that is asked to be of the less usual width. -/
def quoteWidth : Setting → Int
  | .narrow => 2
  | .wide => 1

/-- What a character of the Latin alphabet or a control character adds. -/
def latinStep (c : Char) (f : Follower) : Int × Follower :=
  if c = '\n' then (1, ⟨.lineEnd, .usual⟩)
  else if c = '\r' ∧ f.kind = .lineEnd then (0, .plain)
  else (1, .plain)

/-- What a character adds that is asked to be shown in a style, or that is in no sequence
because of it. -/
def styledStep (setting : Setting) (c : Char) (f : Follower) : Int × Follower :=
  if f.style = .text ∧ narrowsAsText c then (1, .plain)
  else if f.style = .quote ∧ quotes.has c then (quoteWidth setting, .plain)
  else
    let f := f.unstyled
    if f.kind.skipsMarks ∧ c.toNat = joiner then (0, ⟨f.kind.joined, .usual⟩)
    else if f.kind.skipsMarks ∧ ignorable.has c then (0, f)
    else match (f.kind.letterRule setting c).or (f.kind.pictographRule c) with
      | some (places, kind) => (places, ⟨kind, .usual⟩)
      | none => (ofChar setting c, ⟨.ofChar setting c, .usual⟩)

/-- **What a character adds** to the text behind it, and what both are to the character
before them. -/
def step (setting : Setting) (c : Char) (f : Follower) : Int × Follower :=
  if f.style = .pictograph ∧ pictographBases.has c then
    (if f.kind.joinsPictograph then 0 else 2, ⟨.pictograph, .usual⟩)
  else
    let f := if f.style = .pictograph then f.unstyled else f
    if (f.kind = .stroke ∨ f.kind = .strokeAlef) ∧ (c = '<' ∨ c = '=' ∨ c = '>') then
      (2, .plain)
    else if c.toNat ≤ 0xa0 then latinStep c f
    else match styleOf? setting c with
      | some style => (0, f.withStyle style)
      | none => styledStep setting c f

/-- A visible character of the Latin alphabet takes a place, and the one before it is not
touched by it. -/
theorem step_plain {setting : Setting} {c : Char} (h : 0x20 ≤ c.toNat) (h' : c.toNat ≤ 0x7e) :
    step setting c .plain = (1, .plain) := by
  have hn : c ≠ '\n' := by rintro rfl; simp at h
  have hl : c.toNat ≤ 0xa0 := by omega
  simp [step, Follower.plain, latinStep, hn, hl]

end ElfLoader.Width
