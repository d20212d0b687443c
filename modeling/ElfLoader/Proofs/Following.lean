import ElfLoader.Image.Records
import ElfLoader.Object.Version
import ElfLoader.Proofs.Contents
import Mathlib.Data.List.Basic

/-!
# Following chains of version records

A chain of records is given by a first offset, by how many records there are at most, and by a link
in each record: the distance to the next one, or zero in the last one
(`ElfLoader.VersionTable.chain`). As a link only leads forwards, the records of a chain are in
ascending order, and none of them comes twice, however the links are set
(`ElfLoader.VersionTable.pairwise_chain`).

The tables of versions are read along such chains. They can be read exactly if each record of the
chains is readable, and the table has then the entries of these records, where a later one replaces
an earlier one of the same index (`ElfLoader.VersionTable.read_chains`). Past a record that is cut
off, a chain as it is told here may go on with links that nobody reads. That does not matter, as the
record in question is not readable already.
-/

namespace ElfLoader.VersionTable

/-! ### Chains -/

/-- **The offsets of the records of a chain** that has at most `count` of them. -/
def chain (link : Nat → UInt32) : (count offset : Nat) → List Nat
  | 0, _ => []
  | count + 1, offset =>
    offset :: if link offset = 0 then [] else chain link count (offset + (link offset).toNat)

/-- Whether records are those of a chain: the first one is at the offset, and each one is followed
by the one that its link leads to, unless the number is reached or the link is zero. -/
structure IsChain (link : Nat → UInt32) (count offset : Nat) (records : List Nat) : Prop where
  /-- The chain starts at the offset. -/
  first : records[0]? = if count = 0 then none else some offset
  /-- The chain goes on with the link of each record. -/
  next : ∀ k r, records[k]? = some r →
    records[k + 1]? = if k + 1 < count ∧ link r ≠ 0 then some (r + (link r).toNat) else none

variable {link : Nat → UInt32} {count offset : Nat} {records : List Nat}

theorem isChain_chain (link : Nat → UInt32) (count offset : Nat) :
    IsChain link count offset (chain link count offset) := by
  induction count generalizing offset with
  | zero => exact ⟨rfl, nofun⟩
  | succ count ih =>
    refine ⟨rfl, fun k r hr => ?_⟩
    rw [chain] at hr ⊢
    rw [List.getElem?_cons_succ]
    by_cases hlink : link offset = 0
    · rw [if_pos hlink] at hr ⊢
      cases k with
      | zero =>
        obtain rfl : offset = r := Option.some.inj hr
        rw [if_neg fun h => h.2 hlink, List.getElem?_nil]
      | succ k => exact nomatch hr
    · rw [if_neg hlink] at hr ⊢
      cases k with
      | zero =>
        obtain rfl : offset = r := Option.some.inj hr
        rw [(ih _).first]
        cases count <;> simp [hlink]
      | succ k =>
        rw [List.getElem?_cons_succ] at hr
        rw [(ih _).next k r hr]
        simp only [Nat.add_lt_add_iff_right]

/-- **There are no other records** in a chain. -/
theorem isChain_iff : IsChain link count offset records ↔ records = chain link count offset := by
  refine ⟨fun h => List.ext_getElem? fun k => ?_, fun h => h ▸ isChain_chain link count offset⟩
  have hchain := isChain_chain link count offset
  induction k with
  | zero => rw [h.first, hchain.first]
  | succ k ih =>
    rcases hr : records[k]? with _ | r
    · rw [hr] at ih
      rw [List.getElem?_eq_none (Nat.le_succ_of_le (List.getElem?_eq_none_iff.1 hr)),
        List.getElem?_eq_none (Nat.le_succ_of_le (List.getElem?_eq_none_iff.1 ih.symm))]
    · rw [h.next k r hr, hchain.next k r (ih ▸ hr)]

theorem le_of_mem_chain {r : Nat} (h : r ∈ chain link count offset) : offset ≤ r := by
  induction count generalizing offset with
  | zero => exact nomatch h
  | succ count ih =>
    rw [chain, List.mem_cons] at h
    rcases h with rfl | h
    · exact Nat.le_refl _
    · split at h
      · exact nomatch h
      · exact Nat.le_trans (Nat.le_add_right _ _) (ih h)

/-- **Each record is behind those before it**, so that no record comes twice. -/
theorem pairwise_chain (link : Nat → UInt32) (count offset : Nat) :
    (chain link count offset).Pairwise (· < ·) := by
  induction count generalizing offset with
  | zero => exact List.Pairwise.nil
  | succ count ih =>
    rw [chain]
    by_cases hlink : link offset = 0
    · rw [if_pos hlink]
      exact List.pairwise_singleton _ _
    · rw [if_neg hlink]
      refine List.Pairwise.cons (fun r hr => ?_) (ih _)
      have hpos : 0 < (link offset).toNat :=
        Nat.pos_of_ne_zero fun h => hlink (UInt32.toNat_inj.1 h)
      exact Nat.lt_of_lt_of_le (Nat.lt_add_of_pos_right hpos) (le_of_mem_chain hr)

/-- **What is read along a chain**: if the first record has to be good and adds its entries, and
what is behind it is read then, all records have to be good and all their entries are added in
turn. -/
theorem read_chain_iff {β : Type} {good : Nat → Prop} {entries : Nat → List (UInt16 × β)}
    {read : Nat → Nat → Std.TreeMap UInt16 β → Except LoadError (Std.TreeMap UInt16 β)}
    (hzero : ∀ offset known, read 0 offset known = .ok known)
    (hsucc : ∀ count offset known t, read (count + 1) offset known = .ok t ↔ good offset ∧
      (if link offset = 0 then .ok (known.insertMany (entries offset))
        else read count (offset + (link offset).toNat) (known.insertMany (entries offset))) = .ok t)
    (known t : Std.TreeMap UInt16 β) : read count offset known = .ok t ↔
      (∀ r ∈ chain link count offset, good r) ∧
        known.insertMany ((chain link count offset).flatMap entries) = t := by
  induction count generalizing offset known with
  | zero => simp [hzero, chain]
  | succ count ih =>
    rw [hsucc, chain, List.forall_mem_cons, List.flatMap_cons, Std.TreeMap.insertMany_append,
      and_assoc]
    refine and_congr_right fun _ => ?_
    split
    · simp
    · exact ih _

/-- The last entry of an index counts. -/
theorem getElem?_insertMany {β : Type} (known : Std.TreeMap UInt16 β) (l : List (UInt16 × β))
    (index : UInt16) :
    (known.insertMany l)[index]? = (l.reverse.lookup index).or known[index]? := by
  have hkey : ∀ e : UInt16 × β, (if compare e.1 index = .eq then some e.2 else none) =
      if index == e.1 then some e.2 else none := by
    intro e
    simp only [Std.compare_eq_iff_eq, beq_iff_eq, eq_comm (a := index)]
  rw [Std.TreeMap.getElem?_insertMany_list, List.findSomeRev?_eq_findSome?_reverse,
    List.lookup_eq_findSome?]
  simp only [hkey]

/-! ### Needs -/

/-- Whether the record of a needed version can be read. -/
structure NeedReadable (f : ObjectFile) (strings offset : Nat) : Prop where
  /-- The bytes of the record are there. -/
  within : offset + 16 ≤ f.size
  /-- The name of the version ends within the file. -/
  named : f.Terminated (strings + (f.wordAt (offset + 8)).toNat)

instance (f : ObjectFile) (strings offset : Nat) : Decidable (NeedReadable f strings offset) :=
  decidable_of_iff (offset + 16 ≤ f.size ∧ f.Terminated (strings + (f.wordAt (offset + 8)).toNat))
    ⟨fun ⟨hwithin, hnamed⟩ => ⟨hwithin, hnamed⟩, fun h => ⟨h.within, h.named⟩⟩

/-- **The version that the record at an offset needs** from a file, with its index. -/
def needAt (f : ObjectFile) (strings : Nat) (file : String) (offset : Nat) :
    UInt16 × VersionNeed :=
  (f.halfAt (offset + 6), ⟨file, f.textAt (strings + (f.wordAt (offset + 8)).toNat),
    f.halfAt (offset + 4) &&& weakFlag != 0⟩)

/-- The records of the versions that are needed from the file of the record at an offset. -/
def needChain (f : ObjectFile) (offset : Nat) : List Nat :=
  chain (fun r => f.wordAt (r + 12)) (f.halfAt (offset + 2)).toNat
    (offset + (f.wordAt (offset + 8)).toNat)

/-- Whether the record of a file can be read, with those of the versions needed from it. -/
structure FileReadable (f : ObjectFile) (strings offset : Nat) : Prop where
  /-- The bytes of the record are there. -/
  within : offset + 16 ≤ f.size
  /-- The record is of the layout that is known. -/
  known : f.halfAt offset = layout
  /-- The name of the file ends within the file that is read. -/
  named : f.Terminated (strings + (f.wordAt (offset + 4)).toNat)
  /-- The records of the versions can be read. -/
  versions : ∀ r ∈ needChain f offset, NeedReadable f strings r

instance (f : ObjectFile) (strings offset : Nat) : Decidable (FileReadable f strings offset) :=
  decidable_of_iff (offset + 16 ≤ f.size ∧ f.halfAt offset = layout ∧
      f.Terminated (strings + (f.wordAt (offset + 4)).toNat) ∧
      ∀ r ∈ needChain f offset, NeedReadable f strings r)
    ⟨fun ⟨hwithin, hknown, hnamed, hversions⟩ => ⟨hwithin, hknown, hnamed, hversions⟩,
      fun h => ⟨h.within, h.known, h.named, h.versions⟩⟩

/-- **The versions that are needed from the file of the record at an offset**, with their
indexes. -/
def needsAt (f : ObjectFile) (strings offset : Nat) : List (UInt16 × VersionNeed) :=
  (needChain f offset).map
    (needAt f strings (f.textAt (strings + (f.wordAt (offset + 4)).toNat)))

/-- The records of the files that versions are needed from. -/
def fileChain (f : ObjectFile) (count offset : Nat) : List Nat :=
  chain (fun r => f.wordAt (r + 12)) count offset

variable {f : ObjectFile} {strings : Nat}

/-- The records of versions are read one after the other. -/
theorem readNeedsOf_eq_ok_iff {file : String} (known t : VersionNeeds) :
    readNeedsOf f strings file count offset known = .ok t ↔
      (∀ r ∈ chain (fun r => f.wordAt (r + 12)) count offset, NeedReadable f strings r) ∧
        known.insertMany ((chain (fun r => f.wordAt (r + 12)) count offset).map
          (needAt f strings file)) = t := by
  rw [List.map_eq_flatMap]
  refine read_chain_iff (fun _ _ => rfl) (fun count offset known t => ?_) known t
  rw [Std.TreeMap.insertMany_list_singleton, readNeedsOf]
  simp only [bind_eq_ok_iff, ObjectFile.word_eq_ok_iff, ObjectFile.half_eq_ok_iff,
    ObjectFile.string_eq_ok_iff, and_assoc, exists_and_left, exists_eq_left']
  constructor
  · rintro ⟨-, -, -, -, hlast, hnamed, h⟩
    exact ⟨⟨hlast, hnamed⟩, h⟩
  · rintro ⟨⟨hwithin, hnamed⟩, h⟩
    exact ⟨by omega, by omega, by omega, by omega, hwithin, hnamed, h⟩

/-- **The needs of all files are read one file after the other.** -/
theorem readNeeds_eq_ok_iff (known t : VersionNeeds) :
    readNeeds f strings count offset known = .ok t ↔
      (∀ r ∈ fileChain f count offset, FileReadable f strings r) ∧
        known.insertMany ((fileChain f count offset).flatMap (needsAt f strings)) = t := by
  refine read_chain_iff (fun _ _ => rfl) (fun count offset known t => ?_) known t
  rw [readNeeds]
  simp only [bind_eq_ok_iff, ObjectFile.word_eq_ok_iff, ObjectFile.half_eq_ok_iff,
    ObjectFile.string_eq_ok_iff, ensure_eq_ok_iff, readNeedsOf_eq_ok_iff, and_assoc,
    exists_and_left, exists_eq_left', exists_const]
  constructor
  · rintro ⟨-, -, -, -, hlast, hlayout, hnamed, hversions, h⟩
    exact ⟨⟨hlast, hlayout, hnamed, hversions⟩, h⟩
  · rintro ⟨⟨hwithin, hlayout, hnamed, hversions⟩, h⟩
    exact ⟨by omega, by omega, by omega, by omega, hwithin, hlayout, hnamed, hversions, h⟩

/-! ### Definitions -/

/-- Whether the record of a definition can be read, with its first name if it has any. -/
structure DefinitionReadable (f : ObjectFile) (strings offset : Nat) : Prop where
  /-- The bytes of the record are there. -/
  within : offset + 20 ≤ f.size
  /-- The record is of the layout that is known. -/
  known : f.halfAt offset = layout
  /-- The offset of the first name is there, and the name ends within the file. -/
  named : f.halfAt (offset + 6) ≠ 0 →
    offset + (f.wordAt (offset + 12)).toNat + 4 ≤ f.size ∧
      f.Terminated (strings + (f.wordAt (offset + (f.wordAt (offset + 12)).toNat)).toNat)

instance (f : ObjectFile) (strings offset : Nat) :
    Decidable (DefinitionReadable f strings offset) :=
  decidable_of_iff (offset + 20 ≤ f.size ∧ f.halfAt offset = layout ∧
      (f.halfAt (offset + 6) ≠ 0 →
        offset + (f.wordAt (offset + 12)).toNat + 4 ≤ f.size ∧
          f.Terminated (strings + (f.wordAt (offset + (f.wordAt (offset + 12)).toNat)).toNat)))
    ⟨fun ⟨hwithin, hknown, hnamed⟩ => ⟨hwithin, hknown, hnamed⟩,
      fun h => ⟨h.within, h.known, h.named⟩⟩

/-- **The version that the record at an offset defines**, with its index: the version of the first
name, if there is any. -/
def definitionsAt (f : ObjectFile) (strings offset : Nat) : List (UInt16 × VersionDefinition) :=
  if f.halfAt (offset + 6) = 0 then []
  else [(f.halfAt (offset + 4),
    ⟨f.textAt (strings + (f.wordAt (offset + (f.wordAt (offset + 12)).toNat)).toNat),
      f.halfAt (offset + 2) &&& baseFlag != 0⟩)]

/-- The records of the versions that are defined. -/
def definitionChain (f : ObjectFile) (count offset : Nat) : List Nat :=
  chain (fun r => f.wordAt (r + 16)) count offset

/-- The fields of the record of a definition. -/
theorem DefinitionRecord.read_eq_ok_iff {d : DefinitionRecord} :
    DefinitionRecord.read f offset = .ok d ↔
      offset + 20 ≤ f.size ∧ f.halfAt offset = layout ∧
        ⟨f.halfAt (offset + 2), f.halfAt (offset + 4), f.halfAt (offset + 6),
          f.wordAt (offset + 12), f.wordAt (offset + 16)⟩ = d := by
  unfold DefinitionRecord.read
  simp only [bind_eq_ok_iff, ObjectFile.word_eq_ok_iff, ObjectFile.half_eq_ok_iff,
    ensure_eq_ok_iff, and_assoc, exists_and_left, exists_eq_left', exists_const]
  constructor
  · rintro ⟨-, -, -, -, -, -, hlast, hlayout, h⟩
    exact ⟨hlast, hlayout, Except.ok.inj h⟩
  · rintro ⟨hwithin, hlayout, rfl⟩
    exact ⟨by omega, by omega, by omega, by omega, by omega, by omega, hwithin, hlayout, rfl⟩

/-- **Definitions are read one after the other.** -/
theorem readDefinitions_eq_ok_iff (known t : VersionDefinitions) :
    readDefinitions f strings count offset known = .ok t ↔
      (∀ r ∈ definitionChain f count offset, DefinitionReadable f strings r) ∧
        known.insertMany ((definitionChain f count offset).flatMap (definitionsAt f strings)) =
          t := by
  refine read_chain_iff (fun _ _ => rfl) (fun count offset known t => ?_) known t
  rw [readDefinitions, definitionsAt, bind_eq_ok_iff]
  simp only [DefinitionRecord.read_eq_ok_iff, and_assoc, exists_and_left, exists_eq_left']
  by_cases hnames : f.halfAt (offset + 6) = 0
  · -- a record without a name only leads on
    simp only [if_pos hnames]
    constructor
    · rintro ⟨hwithin, hlayout, h⟩
      exact ⟨⟨hwithin, hlayout, absurd hnames⟩, h⟩
    · rintro ⟨⟨hwithin, hlayout, -⟩, h⟩
      exact ⟨hwithin, hlayout, h⟩
  · simp only [if_neg hnames, bind_eq_ok_iff, ObjectFile.word_eq_ok_iff,
      ObjectFile.string_eq_ok_iff, and_assoc, exists_and_left, exists_eq_left',
      Std.TreeMap.insertMany_list_singleton]
    constructor
    · rintro ⟨hwithin, hlayout, haux, hnamed, _, hknown, h⟩
      obtain rfl := Except.ok.inj hknown
      exact ⟨⟨hwithin, hlayout, fun _ => ⟨haux, hnamed⟩⟩, h⟩
    · rintro ⟨⟨hwithin, hlayout, hnamed⟩, h⟩
      obtain ⟨haux, hnamed⟩ := hnamed hnames
      exact ⟨hwithin, hlayout, haux, hnamed, _, rfl, h⟩

/-! ### Both tables -/

/-- **Chains of version records are followed link by link, and always forwards. The needs and the
definitions can be read exactly if all records of their chains are readable; the table has the
entries of these records then, of which the last one of an index counts, on top of what was
known.** -/
theorem read_chains (f : ObjectFile) (strings : Nat) :
    (∀ link count offset records,
      IsChain link count offset records ↔ records = chain link count offset) ∧
    (∀ link count offset, (chain link count offset).Pairwise (· < ·)) ∧
    (∀ count offset known,
      ((∃ t, readNeeds f strings count offset known = .ok t) ↔
        ∀ r ∈ fileChain f count offset, FileReadable f strings r) ∧
      ∀ t, readNeeds f strings count offset known = .ok t → ∀ index : UInt16, t[index]? =
        (((fileChain f count offset).flatMap (needsAt f strings)).reverse.lookup index).or
          known[index]?) ∧
    (∀ count offset known,
      ((∃ t, readDefinitions f strings count offset known = .ok t) ↔
        ∀ r ∈ definitionChain f count offset, DefinitionReadable f strings r) ∧
      ∀ t, readDefinitions f strings count offset known = .ok t → ∀ index : UInt16, t[index]? =
        (((definitionChain f count offset).flatMap
          (definitionsAt f strings)).reverse.lookup index).or known[index]?) := by
  refine ⟨fun _ _ _ _ => isChain_iff, pairwise_chain, fun count offset known => ⟨?_, ?_⟩,
    fun count offset known => ⟨?_, ?_⟩⟩
  · simp only [readNeeds_eq_ok_iff, exists_and_left, exists_eq', and_true]
  · intro t h index
    obtain ⟨-, rfl⟩ := (readNeeds_eq_ok_iff known t).1 h
    exact getElem?_insertMany _ _ index
  · simp only [readDefinitions_eq_ok_iff, exists_and_left, exists_eq', and_true]
  · intro t h index
    obtain ⟨-, rfl⟩ := (readDefinitions_eq_ok_iff known t).1 h
    exact getElem?_insertMany _ _ index

/-- A file with the names `a`, `u`, `v` and `b` at its start, then two records of files with their
versions, the second one with a number of versions that is too large, and then two records of
definitions, the second one without a name. -/
def chainedFile : ObjectFile :=
  let le := ByteOrder.little
  ⟨"a", le, ⟨([0, 0x61, 0, 0x75, 0, 0x76, 0, 0x62, 0, 0, 0, 0, 0, 0, 0, 0] ++
    le.halves [1, 2] ++ le.words [1, 16, 48] ++
      le.words [0] ++ le.halves [0, 2] ++ le.words [3, 16] ++
      le.words [0] ++ le.halves [2, 3] ++ le.words [5, 0] ++
    le.halves [1, 9] ++ le.words [7, 16, 0] ++
      le.words [0] ++ le.halves [0, 2] ++ le.words [3, 0] ++
    le.halves [1, 1, 1, 1] ++ le.words [0, 20, 28] ++ le.words [1, 0] ++
    le.halves [1, 0, 2, 0] ++ le.words [0, 0, 0]).toArray⟩⟩

/-- A later need of an index replaces an earlier one, and a definition without a name is left
out. -/
theorem read_chains_chainedFile :
    (∃ t, readNeeds chainedFile 0 5 16 ∅ = .ok t ∧ t[(2 : UInt16)]? = some ⟨"b", "u", false⟩ ∧
      t[(3 : UInt16)]? = some ⟨"a", "v", true⟩ ∧ t[(4 : UInt16)]? = none) ∧
    ∃ t, readDefinitions chainedFile 0 2 96 ∅ = .ok t ∧ t[(1 : UInt16)]? = some ⟨"a", true⟩ ∧
      t[(2 : UInt16)]? = none := by
  obtain ⟨-, -, hneeds, hdefinitions⟩ := read_chains chainedFile 0
  refine ⟨?_, ?_⟩
  · obtain ⟨hok, hentries⟩ := hneeds 5 16 ∅
    obtain ⟨t, h⟩ := hok.2 (by decide +kernel)
    refine ⟨t, h, ?_, ?_, ?_⟩ <;> rw [hentries t h] <;> decide +kernel
  · obtain ⟨hok, hentries⟩ := hdefinitions 2 96 ∅
    obtain ⟨t, h⟩ := hok.2 (by decide +kernel)
    refine ⟨t, h, ?_, ?_⟩ <;> rw [hentries t h] <;> decide +kernel

end ElfLoader.VersionTable
