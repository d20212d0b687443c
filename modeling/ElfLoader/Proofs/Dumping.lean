import ElfLoader.Inspector.Answer
import ElfLoader.Proofs.Memory
import ElfLoader.Text.Numeral
import Mathlib.Data.List.Forall2
import Mathlib.Tactic.IntervalCases

/-!
# Reading a dump

A dump of memory is text, and here it is read again: a line gives the number at its start, the
bytes of its hexadecimal columns and the characters behind them (`ElfLoader.Inspector.readRow`).
The columns end at two blanks, while the gap in the middle of a line is a single one, so no column
of characters is taken for digits.

Each line is read back as it was meant (`ElfLoader.Inspector.readRow_dumpLine`), hence the lines
together give the bytes of memory from the address on, none of them twice and none left out, as
far as there is memory (`ElfLoader.Inspector.rows_of_dump`).
-/

namespace ElfLoader

/-! ### Hexadecimal digits are read back -/

namespace Numeral

theorem continue?_append (base acc : Nat) (cs ds : List Char) :
    continue? base acc (cs ++ ds) = (continue? base acc cs).bind fun v => continue? base v ds := by
  induction cs generalizing acc with
  | nil => rfl
  | cons c cs ih =>
    rw [List.cons_append, continue?, continue?]
    cases digit? base c with
    | none => rfl
    | some d => exact ih (base * acc + d)

/-- A digit is read back. -/
theorem digit?_digitChar {d : Nat} (h : d < 16) : digit? 16 (Nat.digitChar d) = some d := by
  interval_cases d <;> decide

theorem continue?_singleton {d : Nat} (h : d < 16) (acc : Nat) :
    continue? 16 acc [Nat.digitChar d] = some (16 * acc + d) := by
  rw [continue?, digit?_digitChar h]
  rfl

/-- **The digits of a number are read back.** -/
theorem continue?_toDigits (n : Nat) : continue? 16 0 (Nat.toDigits 16 n) = some n := by
  induction n using Nat.strongRecOn with
  | ind n ih =>
    rw [Nat.toDigits_eq_if (by decide)]
    split
    · next hlt => rw [continue?_singleton hlt, Nat.mul_zero, Nat.zero_add]
    · next hge =>
      rw [continue?_append, ih (n / 16) (by omega), Option.bind_some,
        continue?_singleton (Nat.mod_lt n (by decide)), Nat.div_add_mod]

/-- Leading zeros make no difference. -/
theorem continue?_replicate (count : Nat) (cs : List Char) :
    continue? 16 0 (List.replicate count '0' ++ cs) = continue? 16 0 cs := by
  induction count with
  | zero => rfl
  | succ count ih => exact ih

/-- Every character of a number that can be read is a digit. -/
theorem isSome_digit?_of_continue? {base acc v : Nat} {cs : List Char}
    (h : continue? base acc cs = some v) : ∀ c ∈ cs, (digit? base c).isSome := by
  induction cs generalizing acc with
  | nil => simp
  | cons c cs ih =>
    obtain ⟨d, hd, hrest⟩ := Option.bind_eq_some_iff.1 h
    rintro c' (_ | ⟨_, hc'⟩)
    · exact Option.isSome_of_eq_some hd
    · exact ih hrest c' hc'

/-- A run of digits without a sign. -/
theorem ofChars?_of_continue? {v : Nat} {cs : List Char} (hne : cs ≠ [])
    (h : continue? 16 0 cs = some v) : ofChars? 16 cs = some v := by
  have hdigit := isSome_digit?_of_continue? h
  have hplus : ¬ (digit? 16 '+').isSome := by decide
  unfold ofChars?
  split
  · exact absurd rfl hne
  · exact absurd (hdigit '+' List.mem_cons_self) hplus
  · exact absurd (hdigit '+' List.mem_cons_self) hplus
  · exact h

end Numeral

namespace Hex

/-- A number that is filled up with zeros is read back. -/
theorem continue?_padded (width n : Nat) :
    Numeral.continue? 16 0 (padded width n).toList = some n := by
  rw [padded, String.toList_ofList, Numeral.continue?_replicate, Numeral.continue?_toDigits]

theorem toList_padded_ne_nil (width n : Nat) : (padded width n).toList ≠ [] := by
  rw [padded, String.toList_ofList]
  exact List.append_ne_nil_of_right_ne_nil _ Nat.toDigits_ne_nil

end Hex

/-! ### Lines of a dump -/

namespace Inspector

/-- **What a line of a dump says.** -/
structure DumpRow where
  /-- The number at its start. -/
  label : Option Nat
  /-- The bytes in its columns of digits. -/
  bytes : List UInt8
  /-- The characters behind them. -/
  glyphs : List Char

/-- Reads columns of two digits up to two blanks, and the characters behind those. A single blank
between two columns means nothing. -/
def readColumns : List Char → Option (List UInt8 × List Char)
  | ' ' :: ' ' :: glyphs => some ([], glyphs)
  | ' ' :: rest => readColumns rest
  | c :: d :: ' ' :: rest => do
    let high ← Numeral.digit? 16 c
    let low ← Numeral.digit? 16 d
    let (bytes, glyphs) ← readColumns rest
    return (UInt8.ofNat (16 * high + low) :: bytes, glyphs)
  | _ => none

/-- Reads the number at the start of a line, which a colon and a blank end. -/
def readLabel (cs : List Char) : Option (Nat × List Char) :=
  match cs.dropWhile (· ≠ ':') with
  | ':' :: ' ' :: rest => do return (← Numeral.ofChars? 16 (cs.takeWhile (· ≠ ':')), rest)
  | _ => none

/-- Reads the number at the start of a line, if lines have one. -/
def readStart (labels : DumpLabels) (cs : List Char) : Option (Option Nat × List Char) :=
  match labels with
  | .none => some (none, cs)
  | _ => (readLabel cs).map fun start => (some start.1, start.2)

/-- **Reads a line of a dump.** -/
def readRow (labels : DumpLabels) (line : String) : Option DumpRow := do
  let (label, rest) ← readStart labels line.toList
  let (bytes, glyphs) ← readColumns rest
  return ⟨label, bytes, glyphs⟩

/-- A character shows a byte: a visible character shows the byte of its own code, and a dot any
byte that is not that of a visible character. -/
def Shows (b : UInt8) (c : Char) : Prop :=
  if 0x21 ≤ b.toNat ∧ b.toNat ≤ 0x7e then c.toNat = b.toNat else c = '.'

/-- The number that belongs to a line: the address of its first byte, or how far that is from the
start. -/
def labelOf (labels : DumpLabels) (address line : Nat) : Option Nat :=
  match labels with
  | .none => none
  | .address => some (address + 16 * line)
  | .offset => some (16 * line)

/-! ### One line -/

/-- A blank is no digit. -/
theorem digitChar_ne_blank {d : Nat} (h : d < 16) : Nat.digitChar d ≠ ' ' := by
  interval_cases d <;> decide

theorem toList_byte (b : UInt8) : (Hex.byte b).toList =
    [Nat.digitChar (b.toNat / 16), Nat.digitChar (b.toNat % 16)] := by
  rw [Hex.byte, String.toList_ofList]

theorem digits_cons (b : UInt8) (bytes : List UInt8) :
    (digits (b :: bytes)).toList = (Hex.byte b).toList ++ ' ' :: (digits bytes).toList := by
  simp [digits, String.toList_join]

/-- Two digits and a blank are a byte. -/
theorem readColumns_byte (b : UInt8) (rest : List Char) :
    readColumns ((Hex.byte b).toList ++ ' ' :: rest) =
      (readColumns rest).map fun row => (b :: row.1, row.2) := by
  have hlt := b.toNat_lt
  have hhigh : b.toNat / 16 < 16 := by omega
  have hlow : b.toNat % 16 < 16 := Nat.mod_lt _ (by decide)
  have hvalue : UInt8.ofNat (16 * (b.toNat / 16) + b.toNat % 16) = b := by
    rw [Nat.div_add_mod, UInt8.ofNat_toNat]
  rw [toList_byte, List.cons_append, List.cons_append, List.nil_append, readColumns]
  · rw [Numeral.digit?_digitChar hhigh, Numeral.digit?_digitChar hlow, Option.bind_eq_bind,
      Option.bind_some, Option.bind_eq_bind, Option.bind_some, hvalue]
    cases readColumns rest <;> rfl
  · exact fun h => absurd h (digitChar_ne_blank hhigh)
  · exact fun h => absurd h (digitChar_ne_blank hhigh)

/-- **The digits of bytes are read back**, whatever follows them. -/
theorem readColumns_digits (bytes : List UInt8) (rest : List Char) :
    readColumns ((digits bytes).toList ++ rest) =
      (readColumns rest).map fun row => (bytes ++ row.1, row.2) := by
  induction bytes with
  | nil => cases h : readColumns rest <;> simp [digits, h]
  | cons b bytes ih =>
    rw [digits_cons, List.append_assoc, List.cons_append, readColumns_byte, ih, Option.map_map]
    rfl

/-- A gap in front of digits means nothing. -/
theorem readColumns_gap (b : UInt8) (bytes : List UInt8) (rest : List Char) :
    readColumns (' ' :: ((digits (b :: bytes)).toList ++ rest)) =
      readColumns ((digits (b :: bytes)).toList ++ rest) := by
  have hhigh : b.toNat / 16 < 16 := by
    have := b.toNat_lt
    omega
  rw [digits_cons, toList_byte, List.append_assoc, List.cons_append, readColumns]
  exact fun glyphs h => digitChar_ne_blank hhigh (List.cons.inj h).1

/-- **The columns of a line are read back**: the two blanks at their end are no gap. -/
theorem readColumns_digitColumns (bytes : List UInt8) (glyphs : List Char) :
    readColumns ((digitColumns bytes).toList ++ ' ' :: ' ' :: glyphs) = some (bytes, glyphs) := by
  have hend : readColumns (' ' :: ' ' :: glyphs) = some ([], glyphs) := by rw [readColumns]
  unfold digitColumns
  dsimp only
  cases hsecond : bytes.drop (lineLength / 2) with
  | nil =>
    -- all bytes stand in front of the gap, so there is none
    have htake : bytes.take (lineLength / 2) = bytes :=
      List.take_of_length_le (List.drop_eq_nil_iff.1 hsecond)
    rw [htake, List.isEmpty_nil, if_pos rfl, String.append_empty, readColumns_digits, hend]
    simp
  | cons b second =>
    rw [List.isEmpty_cons, if_neg Bool.false_ne_true, String.toList_append, String.toList_append,
      List.append_assoc, readColumns_digits]
    change (readColumns (' ' :: ((digits (b :: second)).toList ++ _))).map _ = _
    rw [readColumns_gap, readColumns_digits, hend, ← hsecond]
    simp

/-- **The label of a line is read back.** -/
theorem readLabel_padded (width n : Nat) (rest : List Char) :
    readLabel ((Hex.padded width n).toList ++ ':' :: ' ' :: rest) = some (n, rest) := by
  have hvalue := Hex.continue?_padded width n
  have hcolon : ∀ c ∈ (Hex.padded width n).toList, decide (c ≠ ':') = true := by
    intro c hc
    refine decide_eq_true ?_
    rintro rfl
    exact absurd (Numeral.isSome_digit?_of_continue? hvalue ':' hc) (by decide)
  rw [readLabel, List.dropWhile_append_of_pos hcolon, List.takeWhile_append_of_pos hcolon]
  change (do
    return (← Numeral.ofChars? 16 ((Hex.padded width n).toList ++ []), rest) : Option _) = _
  rw [List.append_nil, Numeral.ofChars?_of_continue? (Hex.toList_padded_ne_nil width n) hvalue]
  rfl

theorem readStart_label (labels : DumpLabels) (address line : Nat) (rest : List Char) :
    readStart labels ((label labels address (16 * line)).toList ++ rest) =
      some (labelOf labels address line, rest) := by
  have hend : ": ".toList ++ rest = ':' :: ' ' :: rest := rfl
  cases labels with
  | none => rfl
  | address =>
    rw [label, String.toList_append, List.append_assoc, hend]
    simp only [readStart, readLabel_padded, Option.map_some, labelOf]
  | offset =>
    rw [label, String.toList_append, List.append_assoc, hend]
    simp only [readStart, readLabel_padded, Option.map_some, labelOf]

/-- The character of a byte shows it. -/
theorem shows_glyph (b : UInt8) : Shows b (glyph b) := by
  have hglyph : glyph b =
      if 0x21 ≤ b.toNat ∧ b.toNat ≤ 0x7e then Char.ofNat b.toNat else '.' := rfl
  rw [Shows, hglyph]
  split
  · next h =>
    have hvalid : b.toNat.isValidChar := Or.inl (by omega)
    rw [Char.ofNat, dif_pos hvalid]
    rfl
  · rfl

/-- **A line is read back**: its number, its bytes and their characters. -/
theorem readRow_dumpLine (labels : DumpLabels) (address line : Nat) (bytes : List UInt8) :
    readRow labels (dumpLine labels address (16 * line) bytes) =
      some ⟨labelOf labels address line, bytes, bytes.map glyph⟩ := by
  have hline : (dumpLine labels address (16 * line) bytes).toList =
      (label labels address (16 * line)).toList ++
        ((digitColumns bytes).toList ++ ' ' :: ' ' :: bytes.map glyph) := by
    simp [dumpLine]
  simp only [readRow, hline, readStart_label, readColumns_digitColumns, Option.bind_eq_bind,
    Option.bind_some, Option.pure_def]

/-! ### All lines -/

/-- **A row that tells its line.** -/
structure DumpRow.Tells (row : DumpRow) (labels : DumpLabels) (address line : Nat) : Prop where
  /-- The number is that of the line. -/
  label : row.label = labelOf labels address line
  /-- There is one character for each byte, and it shows the byte. -/
  glyphs : List.Forall₂ Shows row.bytes row.glyphs
  /-- There are not more bytes than fit. -/
  length : row.bytes.length ≤ 16

/-- The row of a line tells it. -/
theorem tells_row (labels : DumpLabels) (address line : Nat) (bytes : List UInt8) :
    DumpRow.Tells ⟨labelOf labels address line, bytes.take 16, (bytes.take 16).map glyph⟩ labels
      address line where
  label := rfl
  glyphs := List.forall₂_map_right_iff.2 (List.forall₂_same.2 fun b _ => shows_glyph b)
  length := List.length_take_le 16 bytes

/-- **The lines of a dump are read back**: together they hold all bytes, and all but the last of
them are full. -/
theorem exists_rows (labels : DumpLabels) (address count line : Nat) (bytes : List UInt8)
    (hroom : bytes.length ≤ 16 * count) (hneed : 16 * count < bytes.length + 16) :
    ∃ rows, (dumpLines labels address count (16 * line) bytes).mapM (readRow labels) = some rows ∧
      rows.length = count ∧ rows.flatMap (·.bytes) = bytes ∧
      ∀ i row, rows[i]? = some row → row.Tells labels address (line + i) ∧
        (i + 1 < count → row.bytes.length = 16) := by
  induction count generalizing line bytes with
  | zero =>
    obtain rfl := List.eq_nil_of_length_eq_zero (Nat.le_zero.1 hroom)
    exact ⟨[], rfl, rfl, rfl, by simp⟩
  | succ count ih =>
    obtain ⟨rows, hread, hlength, hbytes, hrows⟩ := ih (line + 1) (bytes.drop 16)
      (by rw [List.length_drop]; omega) (by rw [List.length_drop]; omega)
    refine ⟨⟨labelOf labels address line, bytes.take 16, (bytes.take 16).map glyph⟩ :: rows,
      ?_, ?_, ?_, ?_⟩
    · rw [dumpLines, List.mapM_cons, lineLength, readRow_dumpLine, ← Nat.mul_succ, hread]
      rfl
    · rw [List.length_cons, hlength]
    · rw [List.flatMap_cons, hbytes, List.take_append_drop]
    · intro i row hi
      cases i with
      | zero =>
        obtain rfl := Option.some.inj hi
        refine ⟨tells_row labels address line bytes, ?_⟩
        intro hmore
        change (bytes.take 16).length = 16
        rw [List.length_take]
        omega
      | succ i =>
        obtain ⟨htells, hfull⟩ := hrows i row hi
        refine ⟨?_, fun hmore => hfull (by omega)⟩
        rwa [Nat.add_right_comm, Nat.add_assoc] at htells

/-! ### Dumps -/

variable {l : Loader}

/-- What is shown of memory from an address inside it. -/
theorem dump_of_lt {address : Nat} (hsize : l.memory.size ≤ 4294967296)
    (haddress : address < l.memory.size) (count : Nat) (labels : DumpLabels) :
    dump l address count labels =
      display (dumpOf labels address
        (l.memory.load address (min count (l.memory.size - address)))) := by
  have hnarrow : (UInt32.ofNat address).toNat = address :=
    UInt32.toNat_ofNat_of_lt' (Nat.lt_of_lt_of_le haddress hsize)
  have hread : l.memory.read (UInt32.ofNat address) (min count (l.memory.size - address)) = _ :=
    Memory.read_of_le (by omega)
  rw [dump, if_neg (by omega)]
  simp only [hread, hnarrow]

/-- **A dump shows memory**, from the address on and as far as there is memory: the lines hold its
bytes in order, none of them twice, and every line tells where it is. Past the end there is nothing
to show. -/
theorem rows_of_dump (l : Loader) (hsize : l.memory.size ≤ 4294967296) (address count : Nat)
    (labels : DumpLabels) :
    (l.memory.size ≤ address →
      answer l (.dump address count labels) = ⟨[], [.pastMemory address l.memory.size]⟩) ∧
    (address < l.memory.size →
      ∃ rows, (answer l (.dump address count labels)).lines.mapM (readRow labels) = some rows ∧
        (answer l (.dump address count labels)).notices = [] ∧
        rows.length = (min count (l.memory.size - address) + 15) / 16 ∧
        rows.flatMap (·.bytes) = (List.range (min count (l.memory.size - address))).map
          (fun i => l.memory.byteAt (address + i)) ∧
        ∀ i row, rows[i]? = some row → row.Tells labels address i ∧
          (i + 1 < rows.length → row.bytes.length = 16)) := by
  refine ⟨fun hpast => if_pos hpast, fun haddress => ?_⟩
  have hanswer : answer l (.dump address count labels) = _ := dump_of_lt hsize haddress count labels
  generalize min count (l.memory.size - address) = n at hanswer ⊢
  have hlength : (l.memory.load address n).length = n := l.memory.length_load address n
  obtain ⟨rows, hread, hcount, hbytes, hrows⟩ := exists_rows labels address ((n + 15) / 16) 0
    (l.memory.load address n) (by omega) (by omega)
  refine ⟨rows, ?_, ?_, hcount, hbytes, ?_⟩
  · rw [hanswer, display, dumpOf, hlength]
    exact hread
  · rw [hanswer, display]
  · intro i row hi
    have hrow := hrows i row hi
    rwa [← hcount, Nat.zero_add] at hrow

/-- A loader with a small memory, whose last line is short and holds part of a text. -/
def shortMemory : Loader :=
  Loader.new .standard .arm ((Memory.zeroed 21).store 15 [0x68, 0x69])

/-- **A dump of two lines**: more bytes are asked for than there are, and the text goes on from the
one line to the other. -/
theorem rows_of_dump_shortMemory : shortMemory.memory.size ≤ 4294967296 ∧
    ∃ rows, (answer shortMemory (.dump 0 100 .address)).lines.mapM (readRow .address) = some rows ∧
      rows.length = 2 ∧
      rows.flatMap (·.bytes) = List.replicate 15 0 ++ [0x68, 0x69, 0, 0, 0, 0] := by
  have hsize : shortMemory.memory.size ≤ 4294967296 := by decide +kernel
  have hbyte (i : Nat) : shortMemory.memory.byteAt (0 + i) =
      if 15 ≤ i then [0x68, 0x69].getD (i - 15) 0 else 0 := by
    simp [shortMemory, Loader.new, Memory.byteAt_store]
  obtain ⟨rows, hread, -, hlength, hbytes, -⟩ :=
    (rows_of_dump shortMemory hsize 0 100 .address).2 (by decide +kernel)
  refine ⟨hsize, rows, hread, hlength.trans (by decide +kernel), hbytes.trans ?_⟩
  simp only [hbyte]
  decide +kernel

end Inspector

end ElfLoader
