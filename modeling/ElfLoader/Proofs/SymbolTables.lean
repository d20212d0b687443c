import ElfLoader.Proofs.Binding
import ElfLoader.Proofs.Contents
import ElfLoader.Proofs.Extent
import Mathlib.Data.List.Basic

/-!
# Tables of symbols

A table of symbols can be read if its entries are in the file and each name ends within it; a count
that is too large is refused before anything is read. Each symbol is then told by its own entry
(`ElfLoader.Symbol.decode`), whatever the others are.

The index of names is built up entry by entry, and it comes to what a search through the whole table
finds (`ElfLoader.SymbolTable.find_eq_filter`): the positions of a name are those of all symbols of
that name, in ascending order. The symbol at position zero stands for no symbol, and no symbol is
found by the empty name (`ElfLoader.SymbolTable.find_of_read`).
-/

namespace ElfLoader

variable {f : ObjectFile} {offset strings count : Nat}

/-! ### Entries -/

namespace Symbol

/-- Whether the entry at an offset can be read: it is in the file, and so is its name, unless it has
none. -/
structure Readable (f : ObjectFile) (strings offset : Nat) : Prop where
  /-- The bytes of the entry are there. -/
  within : offset + entrySize ≤ f.size
  /-- The name ends within the file. -/
  named : f.wordAt offset ≠ 0 → f.Terminated (strings + (f.wordAt offset).toNat)

/-- The name that the entry at an offset gives its symbol. -/
def nameAt (f : ObjectFile) (strings offset : Nat) : String :=
  if f.wordAt offset = 0 then "" else f.textAt (strings + (f.wordAt offset).toNat)

/-- **The symbol of the entry at an offset.** -/
def decode (f : ObjectFile) (strings offset : Nat) : Symbol :=
  ofFields (nameAt f strings offset) (f.wordAt (offset + 4)) (f.wordAt (offset + 8))
    (f.byteAt (offset + 12)) (f.byteAt (offset + 13)) (f.halfAt (offset + 14))

/-- **An entry is read** if it can be. -/
theorem read_eq_ok_iff {s : Symbol} : read f offset strings = .ok s ↔
    Readable f strings offset ∧ decode f strings offset = s := by
  unfold read
  simp only [bind_eq_ok_iff, ObjectFile.word_eq_ok_iff, ObjectFile.byte_eq_ok_iff,
    ObjectFile.half_eq_ok_iff, and_assoc, exists_and_left, exists_eq_left']
  constructor
  · rintro ⟨-, -, -, -, -, hlast, h⟩
    -- an entry without a name reads no text
    split at h
    · next hzero =>
      refine ⟨⟨hlast, absurd hzero⟩, ?_⟩
      rw [decode, nameAt, if_pos hzero]
      exact Except.ok.inj h
    · next hzero =>
      obtain ⟨_, hname, hs⟩ := bind_eq_ok_iff.1 h
      obtain ⟨hnamed, rfl⟩ := ObjectFile.string_eq_ok_iff.1 hname
      refine ⟨⟨hlast, fun _ => hnamed⟩, ?_⟩
      rw [decode, nameAt, if_neg hzero]
      exact Except.ok.inj hs
  · rintro ⟨⟨hwithin, hnamed⟩, rfl⟩
    rw [entrySize] at hwithin
    refine ⟨by omega, by omega, by omega, by omega, by omega, hwithin, ?_⟩
    rw [decode, nameAt]
    split
    · rfl
    · next hzero =>
      exact bind_eq_ok_iff.2 ⟨_, ObjectFile.string_eq_ok_iff.2 ⟨hnamed hzero, rfl⟩, rfl⟩

end Symbol

/-! ### Tables -/

namespace SymbolTable

/-- Entries are read one after the other. -/
theorem readFrom_eq_ok_iff {symbols : List Symbol} : readFrom f strings count offset = .ok symbols ↔
    (∀ i < count, Symbol.Readable f strings (offset + 16 * i)) ∧
      (List.range count).map (fun i => Symbol.decode f strings (offset + 16 * i)) = symbols := by
  induction count generalizing offset symbols with
  | zero => simp [readFrom, eq_comm]
  | succ count ih =>
    have hnext : ∀ i, offset + Symbol.entrySize + 16 * i = offset + 16 * (i + 1) := by
      intro i
      rw [Symbol.entrySize]
      omega
    have hall : (∀ i < count + 1, Symbol.Readable f strings (offset + 16 * i)) ↔
        Symbol.Readable f strings offset ∧
          ∀ i < count, Symbol.Readable f strings (offset + 16 * (i + 1)) :=
      Nat.forall_lt_succ_left
    rw [hall, List.range_succ_eq_map, List.map_cons, List.map_map]
    simp only [readFrom, bind_eq_ok_iff, Symbol.read_eq_ok_iff, ih, hnext]
    constructor
    · rintro ⟨_, ⟨hfirst, rfl⟩, _, ⟨hrest, rfl⟩, hsymbols⟩
      exact ⟨⟨hfirst, hrest⟩, Except.ok.inj hsymbols⟩
    · rintro ⟨⟨hfirst, hrest⟩, rfl⟩
      exact ⟨_, ⟨hfirst, rfl⟩, _, ⟨hrest, rfl⟩, rfl⟩

/-- **A table is read** if its entries are in the file and their names end within it. -/
theorem read_eq_ok_iff {t : SymbolTable} : read f offset count strings = .ok t ↔
    offset + 16 * count ≤ f.size ∧
      (∀ i < count, f.wordAt (offset + 16 * i) ≠ 0 →
        f.Terminated (strings + (f.wordAt (offset + 16 * i)).toNat)) ∧
      ofList ((List.range count).map fun i => Symbol.decode f strings (offset + 16 * i)) = t := by
  have hslice : ∀ bytes, f.slice offset (count * Symbol.entrySize) = .ok bytes →
      offset + 16 * count ≤ f.size := by
    intro bytes h
    have hle := ((f.slice_eq_ok_iff _ _ _).1 h).1
    rwa [Nat.mul_comm] at hle
  constructor
  · intro h
    unfold read at h
    simp only [bind_eq_ok_iff, readFrom_eq_ok_iff] at h
    obtain ⟨bytes, hbytes, _, ⟨hreadable, rfl⟩, ht⟩ := h
    exact ⟨hslice bytes hbytes, fun i hi => (hreadable i hi).named, Except.ok.inj ht⟩
  · rintro ⟨hwithin, hnamed, rfl⟩
    refine bind_eq_ok_iff.2 ⟨_, (f.slice_eq_ok_iff _ _ _).2 ⟨?_, rfl⟩, ?_⟩
    · rwa [Nat.mul_comm]
    · refine bind_eq_ok_iff.2 ⟨_, readFrom_eq_ok_iff.2 ⟨fun i hi => ⟨?_, hnamed i hi⟩, rfl⟩, rfl⟩
      rw [Symbol.entrySize]
      omega

/-! ### Names -/

/-- **The positions of a name are those that a search through the table finds.** -/
theorem find_eq_filter (t : SymbolTable) (name : String) :
    t.find name = (List.range t.size).filter fun i =>
      1 ≤ i && name != "" && (t.get? i).any (·.name == name) := by
  have hpositions : t.entries.toList.zipIdx.map Prod.snd = List.range t.size := by
    rw [List.zipIdx_map_snd, Array.length_toList, List.range_eq_range', size]
  rw [find_eq, named, ← hpositions, List.filter_map]
  refine congrArg (List.map Prod.snd) (List.filter_congr fun e he => ?_)
  obtain ⟨s, i⟩ := e
  have hget : t.get? i = some s := by
    rw [List.mem_zipIdx_iff_getElem?, Array.getElem?_toList] at he
    exact he
  have hlisted : (i != 0) = decide (1 ≤ i) := by cases i <;> rfl
  simp only [Function.comp_apply, hget, Option.any_some, isListed, hlisted, Bool.and_assoc]
  -- the symbol has the name, so that it is empty if the name is
  by_cases hname : s.name = name
  · rw [hname]
  · simp only [beq_false_of_ne hname, Bool.and_false]

/-- The positions of a name, each by itself. -/
theorem mem_find_iff {t : SymbolTable} {name : String} {i : Nat} : i ∈ t.find name ↔
    1 ≤ i ∧ name ≠ "" ∧ ∃ s, t.get? i = some s ∧ s.name = name := by
  rw [find_eq_filter, List.mem_filter, List.mem_range]
  simp only [Bool.and_eq_true, decide_eq_true_eq, bne_iff_ne, Option.any_eq_true, beq_iff_eq,
    and_assoc]
  refine and_iff_right_of_imp fun ⟨_, _, s, hget, _⟩ => ?_
  exact (Array.getElem?_eq_some_iff.1 hget).1

/-- The positions of a name are in ascending order. -/
theorem pairwise_find (t : SymbolTable) (name : String) : (t.find name).Pairwise (· < ·) := by
  rw [find_eq_filter]
  exact List.pairwise_lt_range.filter _

/-- The symbols of a table that has been read are those of its entries. -/
theorem get?_of_read {t : SymbolTable} (h : read f offset count strings = .ok t) (i : Nat) :
    t.get? i = if i < count then some (Symbol.decode f strings (offset + 16 * i)) else none := by
  obtain ⟨-, -, rfl⟩ := read_eq_ok_iff.1 h
  rw [get?, ofList, List.getElem?_toArray, List.getElem?_map]
  split
  · next hi => rw [List.getElem?_range hi, Option.map_some]
  · next hi => rw [List.getElem?_eq_none (by simpa using hi), Option.map_none]

/-- **A table is read exactly if its entries are in the file and each name ends within it. Each of
its symbols is told by one entry, and the positions that are found by a name are those of all
symbols of that name but for the one at position zero, in ascending order; there are none for the
empty name.** -/
theorem find_of_read (f : ObjectFile) (offset count strings : Nat) :
    ((∃ t, read f offset count strings = .ok t) ↔
      offset + 16 * count ≤ f.size ∧
        ∀ i < count, f.wordAt (offset + 16 * i) ≠ 0 →
          f.Terminated (strings + (f.wordAt (offset + 16 * i)).toNat)) ∧
    ∀ t, read f offset count strings = .ok t →
      t.size = count ∧
      (∀ i < count, t.get? i = some (Symbol.decode f strings (offset + 16 * i))) ∧
      ∀ name,
        (t.find name).Pairwise (· < ·) ∧
        (∀ i, i ∈ t.find name ↔ 1 ≤ i ∧ name ≠ "" ∧ ∃ s, t.get? i = some s ∧ s.name = name) ∧
        (t.find name = (List.range t.size).filter fun i =>
          1 ≤ i && name != "" && (t.get? i).any (·.name == name)) ∧
        ((name = "" ∨ ∀ i s, t.get? i = some s → s.name ≠ name) → t.find name = []) := by
  refine ⟨⟨?_, ?_⟩, fun t h => ⟨?_, ?_, fun name => ⟨?_, ?_, ?_, ?_⟩⟩⟩
  · rintro ⟨t, h⟩
    obtain ⟨hwithin, hnamed, -⟩ := read_eq_ok_iff.1 h
    exact ⟨hwithin, hnamed⟩
  · rintro ⟨hwithin, hnamed⟩
    exact ⟨_, read_eq_ok_iff.2 ⟨hwithin, hnamed, rfl⟩⟩
  · obtain ⟨-, -, rfl⟩ := read_eq_ok_iff.1 h
    simp [size, ofList]
  · intro i hi
    rw [get?_of_read h, if_pos hi]
  · exact pairwise_find t name
  · exact fun i => mem_find_iff
  · exact find_eq_filter t name
  · intro hunknown
    refine List.eq_nil_iff_forall_not_mem.2 fun i hi => ?_
    obtain ⟨-, hname, s, hget, hs⟩ := mem_find_iff.1 hi
    exact hunknown.elim hname fun h => h i s hget hs

/-- The bytes of an entry that has a name, and nothing else. -/
def namedEntry (nameOffset : UInt8) : List UInt8 := nameOffset :: List.replicate 15 0

/-- A file with a table of five symbols, two of them of the same name and one without a name. -/
def repeatedFile : ObjectFile :=
  ⟨"a", .little, ⟨([0, 1, 0, 1, 3].flatMap namedEntry ++ [0, 0x66, 0, 0x67, 0]).toArray⟩⟩

/-- A name that two symbols have, and no name. -/
theorem find_of_read_repeated : ∃ t, read repeatedFile 0 5 80 = .ok t ∧
    t.find "f" = [1, 3] ∧ t.find "" = [] := by
  obtain ⟨t, h⟩ := (find_of_read repeatedFile 0 5 80).1.2 ⟨by decide +kernel, by decide +kernel⟩
  obtain ⟨hsize, hget, hfind⟩ := (find_of_read repeatedFile 0 5 80).2 t h
  refine ⟨t, h, ?_, (hfind "").2.2.2 (.inl rfl)⟩
  rw [(hfind "f").2.2.1, hsize, List.filter_congr (q := fun i => 1 ≤ i && "f" != "" &&
    (Symbol.decode repeatedFile 80 (0 + 16 * i)).name == "f")
    fun i hi => by rw [hget i (List.mem_range.1 hi), Option.any_some]]
  decide +kernel

end SymbolTable

end ElfLoader
