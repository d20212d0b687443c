import ElfLoader.Object.File
import ElfLoader.Proofs.Outcomes

/-!
# What a file holds

The accesses to a file refuse whatever does not lie within it. What they give otherwise is a matter
of the bytes alone: the value at an offset is made from the bytes there
(`ElfLoader.ObjectFile.wordAt`), and a text goes on up to the next zero byte
(`ElfLoader.ObjectFile.textAt`), which has to be there (`ElfLoader.ObjectFile.Terminated`). So each
access splits into a condition and a value (`ElfLoader.ObjectFile.word_eq_ok_iff`,
`ElfLoader.ObjectFile.string_eq_ok_iff`), and so does all that is read with several of them.
-/

namespace ElfLoader.ObjectFile

variable (f : ObjectFile)

/-! ### Values and texts -/

/-- A byte of a file; zero past its end. -/
def byteAt (offset : Nat) : UInt8 := f.bytes[offset]?.getD 0

/-- The half at an offset. -/
def halfAt (offset : Nat) : UInt16 := f.order.half (f.byteAt offset) (f.byteAt (offset + 1))

/-- **The word at an offset.** -/
def wordAt (offset : Nat) : UInt32 :=
  f.order.word (f.byteAt offset) (f.byteAt (offset + 1)) (f.byteAt (offset + 2))
    (f.byteAt (offset + 3))

/-- The bytes from an offset on. -/
def behind (offset : Nat) : List UInt8 := f.bytes.data.toList.drop offset

/-- **A text at an offset ends within the file**: there is a zero byte at the offset or behind
it. -/
def Terminated (offset : Nat) : Prop := 0 ∈ f.behind offset

instance (offset : Nat) : Decidable (f.Terminated offset) :=
  inferInstanceAs (Decidable (0 ∈ f.behind offset))

/-- **The text at an offset**, up to the first zero byte. -/
def textAt (offset : Nat) : String := Lossy.decode ((f.behind offset).takeWhile (· != 0))

/-! ### Accesses -/

variable {f} {offset : Nat}

theorem byteAt_eq_getElem (offset : Nat) (h : offset < f.bytes.size) :
    f.byteAt offset = f.bytes[offset] := by
  rw [byteAt, getElem?_pos f.bytes offset h, Option.getD_some]

/-- A byte can be read if it is there. -/
theorem byte_eq_ok_iff {v : UInt8} :
    f.byte offset = .ok v ↔ offset < f.size ∧ f.byteAt offset = v := by
  unfold byte size
  split
  · next h => simp [byteAt_eq_getElem offset h, h]
  · next h => simp [h]

/-- A half can be read if its bytes are there. -/
theorem half_eq_ok_iff {v : UInt16} :
    f.half offset = .ok v ↔ offset + 2 ≤ f.size ∧ f.halfAt offset = v := by
  unfold half size
  split
  · next h =>
    rw [halfAt, byteAt_eq_getElem offset (by omega),
      byteAt_eq_getElem (offset + 1) (by omega), Except.ok.injEq, and_iff_right h]
  · next h => simp [h]

/-- **A word can be read if its bytes are there.** -/
theorem word_eq_ok_iff {v : UInt32} :
    f.word offset = .ok v ↔ offset + 4 ≤ f.size ∧ f.wordAt offset = v := by
  unfold word size
  split
  · next h =>
    rw [wordAt, byteAt_eq_getElem offset (by omega),
      byteAt_eq_getElem (offset + 1) (by omega),
      byteAt_eq_getElem (offset + 2) (by omega),
      byteAt_eq_getElem (offset + 3) (by omega), Except.ok.injEq, and_iff_right h]
  · next h => simp [h]

/-- What is behind an offset starts with the byte there. -/
theorem behind_eq_cons (h : offset < f.bytes.size) :
    f.behind offset = f.bytes[offset] :: f.behind (offset + 1) :=
  List.drop_eq_getElem_cons h

/-- A text that ends within the file starts within it. -/
theorem Terminated.lt_size (h : f.Terminated offset) : offset < f.bytes.size := by
  have hlength := List.length_pos_of_mem h
  rw [behind, List.length_drop] at hlength
  exact Nat.lt_of_sub_pos hlength

/-- There is a first zero byte if there is one at all, and a text ends in front of it. -/
theorem terminator?_eq (f : ObjectFile) (offset : Nat) :
    terminator? f.bytes offset =
      if f.Terminated offset then some (offset + ((f.behind offset).takeWhile (· != 0)).length)
      else none := by
  induction offset using terminator?.induct f.bytes with
  | case1 offset hlt hzero =>
    have hbehind := behind_eq_cons hlt
    rw [hzero] at hbehind
    have hend : f.Terminated offset := (congrArg (0 ∈ ·) hbehind).mpr List.mem_cons_self
    rw [terminator?, dif_pos hlt, if_pos hzero, if_pos hend, hbehind]
    rfl
  | case2 offset hlt hzero ih =>
    have hmem : f.Terminated offset ↔ f.Terminated (offset + 1) := by
      rw [Terminated, behind_eq_cons hlt, List.mem_cons, or_iff_right (Ne.symm hzero), Terminated]
    rw [terminator?, dif_pos hlt, if_neg hzero, ih]
    simp only [hmem, behind_eq_cons hlt]
    rw [List.takeWhile_cons_of_pos (by simpa using hzero), List.length_cons, Nat.add_assoc,
      Nat.add_comm 1]
  | case3 offset hlt =>
    rw [terminator?, dif_neg hlt, if_neg fun hend => hlt hend.lt_size]

/-- The bytes from one offset up to another one. -/
theorem toList_extract (f : ObjectFile) (offset length : Nat) :
    (f.bytes.extract offset (offset + length)).data.toList = (f.behind offset).take length := by
  rw [ByteArray.data_extract, Array.toList_extract, List.extract_eq_take_drop,
    Nat.add_sub_cancel_left, behind]

/-- **A text can be read if it ends within the file.** -/
theorem string_eq_ok_iff {text : String} :
    f.string offset = .ok text ↔ f.Terminated offset ∧ f.textAt offset = text := by
  have hprefix := List.prefix_iff_eq_take.1 (List.takeWhile_prefix (l := f.behind offset) (· != 0))
  by_cases hend : f.Terminated offset
  · have hle : offset ≤ f.size := Nat.le_of_lt hend.lt_size
    rw [string, if_pos hle, terminator?_eq, if_pos hend]
    dsimp only
    rw [toList_extract, ← hprefix, Except.ok.injEq, textAt, and_iff_right hend]
  · rw [string, terminator?_eq, if_neg hend]
    simp only [hend, false_and, iff_false]
    split <;> nofun

end ElfLoader.ObjectFile
