import ElfLoader.Proofs.VersionChains
import Mathlib.Data.List.Nodup
import Mathlib.Data.Nat.Bitwise

/-!
# The versions of a planned file

A plan numbers its versions: first the object's own name, then the versions that it defines, then
those that it needs. As long as the numbers stay below the bit that hides a definition, no two
versions share one (`ElfLoader.ImagePlan.Numbered`). So each symbol gets back the version that it
was planned with (`ElfLoader.ImagePlan.requested?_versions`,
`ElfLoader.ImagePlan.defined?_versions`).
-/

namespace ElfLoader

/-! ### Maps that are filled from a list -/

/-- **A map is filled from a list** that gives no key two values. -/
theorem getElem?_insertMany_iff {β : Type} {l : List (UInt16 × β)}
    (h : ∀ k v w, (k, v) ∈ l → (k, w) ∈ l → v = w) (k : UInt16) (v : β) :
    ((∅ : Std.TreeMap UInt16 β).insertMany l)[k]? = some v ↔ (k, v) ∈ l := by
  have hmem : ∀ w, ((∅ : Std.TreeMap UInt16 β).insertMany l)[k]? = some w → (k, w) ∈ l := by
    intro w hw
    rw [Std.TreeMap.getElem?_insertMany_list, Std.TreeMap.getElem?_emptyc, Option.or_none,
      List.findSomeRev?_eq_findSome?_reverse] at hw
    obtain ⟨t, ht, hw⟩ := List.exists_of_findSome?_eq_some hw
    obtain ⟨a, b⟩ := t
    dsimp only at hw
    split at hw
    · next hcmp =>
      cases hw
      rw [← Std.LawfulEqCmp.eq_of_compare hcmp]
      exact List.mem_reverse.1 ht
    · cases hw
  refine ⟨hmem v, fun hv => ?_⟩
  have hcontains : ((∅ : Std.TreeMap UInt16 β).insertMany l)[k]?.isSome := by
    rw [← Std.TreeMap.contains_eq_isSome_getElem?, Std.TreeMap.contains_insertMany_list,
      Bool.or_eq_true]
    exact .inr (List.contains_iff_mem.2 (List.mem_map_of_mem hv))
  obtain ⟨w, hw⟩ := Option.isSome_iff_exists.1 hcontains
  rw [hw, h k w v (hmem w hw) hv]

/-! ### The bit that hides -/

namespace VersionTable

variable {index : UInt16}

theorem plain_of_lt (h : index.toNat < 0x8000) : plain index = index := by
  rw [← UInt16.toNat_inj, plain, UInt16.toNat_and]
  exact (Nat.and_two_pow_sub_one_eq_mod _ 15).trans (Nat.mod_eq_of_lt h)

theorem isHidden_of_lt (h : index.toNat < 0x8000) : isHidden index = false := by
  have hbit : index.toNat.testBit 15 = false := Nat.testBit_lt_two_pow h
  have hzero : index &&& hiddenBit = 0 := by
    rw [← UInt16.toNat_inj, UInt16.toNat_and]
    exact (Nat.and_two_pow _ 15).trans (by rw [hbit]; rfl)
  rw [isHidden, hzero]
  rfl

theorem plain_or_hiddenBit (h : index.toNat < 0x8000) : plain (index ||| hiddenBit) = index := by
  have hsum : index.toNat ||| 2 ^ 15 = 2 ^ 15 * 1 + index.toNat := by
    rw [Nat.two_pow_add_eq_or_of_lt h, Nat.or_comm, Nat.mul_one]
  rw [← UInt16.toNat_inj, plain, UInt16.toNat_and, UInt16.toNat_or]
  refine (Nat.and_two_pow_sub_one_eq_mod _ 15).trans ?_
  change (index.toNat ||| 2 ^ 15) % 2 ^ 15 = _
  rw [hsum, Nat.mul_add_mod]
  exact Nat.mod_eq_of_lt h

theorem isHidden_or_hiddenBit : isHidden (index ||| hiddenBit) = true := by
  have hself : (index ||| hiddenBit) &&& hiddenBit = hiddenBit := by
    rw [← UInt16.toNat_inj, UInt16.toNat_and, UInt16.toNat_or]
    refine Nat.eq_of_testBit_eq fun i => ?_
    rw [Nat.testBit_and, Nat.testBit_or]
    cases hiddenBit.toNat.testBit i <;> simp
  rw [isHidden, hself]
  rfl

end VersionTable

namespace ImagePlan

variable {p : ImagePlan}

/-! ### Plans that make sense -/

/-- **A plan makes sense**: no version is needed twice, the versions of the symbols are among
those that are defined or needed, and the relocations have the form of their table. -/
structure WellFormed (p : ImagePlan) : Prop where
  /-- No version is needed twice from one file. -/
  nodup_needs : (p.needs.map fun n => (n.file, n.name)).Nodup
  /-- The versions of definitions are defined. -/
  defined : ∀ s ∈ p.symbols, ∀ name hidden, s.version = .defined name hidden → name ∈ p.definitions
  /-- The versions of references are needed. -/
  needed : ∀ s ∈ p.symbols, ∀ file name, s.version = .needed file name →
    (file, name) ∈ p.needs.map fun n => (n.file, n.name)
  /-- Implicit relocations have no addend. -/
  rel : ∀ e ∈ p.rel, e.addend.isSome = false
  /-- Explicit relocations have one. -/
  rela : ∀ e ∈ p.rela, e.addend.isSome = true
  /-- So have those of the procedure linkage. -/
  plt : ∀ e ∈ p.plt, e.addend.isSome = true

/-- **All versions have numbers** below the bit that hides a definition. -/
def Numbered (p : ImagePlan) : Prop := 1 + p.definitions.length + p.needs.length < 0x8000

/-! ### Numbers of versions -/

/-- Positions that are small enough are not cut off. -/
theorem toNat_two_add_ofNat {m n : Nat} (h : 2 + m + n < 65536) :
    (2 + UInt16.ofNat m + UInt16.ofNat n).toNat = 2 + m + n := by
  simp only [UInt16.toNat_add, UInt16.toNat_ofNat']
  change ((2 + m % 2 ^ 16) % 2 ^ 16 + n % 2 ^ 16) % 2 ^ 16 = _
  omega

/-- **The number of a version that is defined.** -/
theorem Numbered.definitionIndex_eq (h : p.Numbered) {name : String}
    (hname : name ∈ p.definitions) :
    ∃ i, p.definitions[i]? = some name ∧ (p.definitionIndex name).toNat = 2 + i := by
  cases hfind : p.definitions.findIdx? (· == name) with
  | none => exact absurd (List.findIdx?_eq_none_iff.1 hfind name hname) (by simp)
  | some i =>
    obtain ⟨hlt, hfound, -⟩ := List.findIdx?_eq_some_iff_getElem.1 hfind
    rw [beq_iff_eq] at hfound
    refine ⟨i, List.getElem?_eq_some_iff.2 ⟨hlt, hfound⟩, ?_⟩
    rw [definitionIndex, hfind, Option.getD_some]
    exact toNat_two_add_ofNat (m := 0) (by rw [Numbered] at h; omega)

/-- **The number of a version that is needed.** -/
theorem Numbered.needIndex_eq (h : p.Numbered) (hwell : p.WellFormed) {i : Nat} {n : VersionNeed}
    (hn : p.needs[i]? = some n) :
    (p.needIndex n.file n.name).toNat = 2 + p.definitions.length + i := by
  obtain ⟨hlt, rfl⟩ := List.getElem?_eq_some_iff.1 hn
  have hfind : p.needs.findIdx? (fun m => m.file == p.needs[i].file && m.name == p.needs[i].name) =
      some i := by
    refine List.findIdx?_eq_some_iff_getElem.2 ⟨hlt, by simp, fun j hj hsame => ?_⟩
    rw [Bool.and_eq_true, beq_iff_eq, beq_iff_eq] at hsame
    -- no version is needed twice, so an earlier one differs
    have hlength : j < (p.needs.map fun n => (n.file, n.name)).length := by
      rw [List.length_map]
      exact hj.trans hlt
    have hkeys : (p.needs.map fun n => (n.file, n.name))[j]? =
        (p.needs.map fun n => (n.file, n.name))[i]? := by
      rw [List.getElem?_map, List.getElem?_map, List.getElem?_eq_getElem hlt,
        List.getElem?_eq_getElem (hj.trans hlt), Option.map_some, Option.map_some, hsame.1, hsame.2]
    exact absurd ((List.getElem?_inj hlength hwell.nodup_needs).1 hkeys) hj.ne
  rw [needIndex, hfind, Option.getD_some]
  exact toNat_two_add_ofNat (by rw [Numbered] at h; omega)

theorem Numbered.needIndex_injective (h : p.Numbered) (hwell : p.WellFormed) {n m : VersionNeed}
    (hn : n ∈ p.needs) (hm : m ∈ p.needs)
    (heq : p.needIndex n.file n.name = p.needIndex m.file m.name) : n = m := by
  obtain ⟨i, hi⟩ := List.getElem?_of_mem hn
  obtain ⟨j, hj⟩ := List.getElem?_of_mem hm
  have hni := h.needIndex_eq hwell hi
  rw [heq, h.needIndex_eq hwell hj] at hni
  obtain rfl := Nat.add_left_cancel hni
  exact Option.some.inj (hi.symm.trans hj)

/-! ### The tables of a plan -/

/-- The version indexes of the dynamic symbols. -/
def versionIndexes (p : ImagePlan) : List UInt16 :=
  if p.isVersioned then localIndex :: p.dynamicSymbols.map fun s => p.versionIndex s.version
  else []

/-- The versions that are defined, with their indexes. -/
def definitionEntries (p : ImagePlan) : List (UInt16 × VersionDefinition) :=
  (p.definitionNames.zipIdx 0).map VersionTable.definitionAt

/-- The versions that are needed, with their indexes. -/
def needEntries (p : ImagePlan) : List (UInt16 × VersionNeed) :=
  (p.needGroups.flatMap NeedGroup.versions).map (VersionTable.needEntry p)

/-- **The versions of a plan.** -/
def versions (p : ImagePlan) : VersionTable where
  symbols := p.versionIndexes.toArray
  definitions := (∅ : VersionDefinitions).insertMany p.definitionEntries
  needs := (∅ : VersionNeeds).insertMany p.needEntries

/-- All needed versions are in the group of their file. -/
theorem mem_groups_iff {n : VersionNeed} :
    n ∈ p.needGroups.flatMap NeedGroup.versions ↔ n ∈ p.needs := by
  rw [List.mem_flatMap]
  constructor
  · rintro ⟨g, hg, hn⟩
    obtain ⟨file, -, rfl⟩ := List.mem_map.1 hg
    exact (List.mem_filter.1 hn).1
  · intro hn
    refine ⟨⟨n.file, p.needs.filter (·.file == n.file)⟩, ?_, ?_⟩
    · exact List.mem_map.2 ⟨n.file, List.mem_eraseDups.2 (List.mem_map_of_mem hn), rfl⟩
    · exact List.mem_filter.2 ⟨hn, beq_self_eq_true _⟩

theorem mem_needEntries_iff {index : UInt16} {n : VersionNeed} :
    (index, n) ∈ p.needEntries ↔ n ∈ p.needs ∧ index = p.needIndex n.file n.name := by
  rw [needEntries, List.mem_map]
  constructor
  · rintro ⟨m, hm, heq⟩
    cases heq
    exact ⟨mem_groups_iff.1 hm, rfl⟩
  · rintro ⟨hn, rfl⟩
    exact ⟨n, mem_groups_iff.2 hn, rfl⟩

/-- **A number means a needed version** if it is the number of it. -/
theorem Numbered.getElem?_needs_iff (h : p.Numbered) (hwell : p.WellFormed) {index : UInt16}
    {n : VersionNeed} :
    p.versions.needs[index]? = some n ↔ n ∈ p.needs ∧ index = p.needIndex n.file n.name := by
  refine (getElem?_insertMany_iff ?_ index n).trans mem_needEntries_iff
  intro k n m hn hm
  obtain ⟨hn, hk⟩ := mem_needEntries_iff.1 hn
  obtain ⟨hm, hk'⟩ := mem_needEntries_iff.1 hm
  exact h.needIndex_injective hwell hn hm (hk.symm.trans hk')

theorem mem_definitionEntries_iff {index : UInt16} {d : VersionDefinition} :
    (index, d) ∈ p.definitionEntries ↔ ∃ i name, p.definitionNames[i]? = some name ∧
      index = UInt16.ofNat (i + 1) ∧ d = ⟨name, i == 0⟩ := by
  rw [definitionEntries, List.mem_map]
  constructor
  · rintro ⟨⟨name, i⟩, hname, heq⟩
    cases heq
    exact ⟨i, name, List.mk_mem_zipIdx_iff_getElem?.1 hname, rfl, rfl⟩
  · rintro ⟨i, name, hname, rfl, rfl⟩
    exact ⟨(name, i), List.mk_mem_zipIdx_iff_getElem?.2 hname, rfl⟩

theorem length_definitionNames_le : p.definitionNames.length ≤ p.definitions.length + 1 := by
  rw [definitionNames]
  split
  · exact Nat.zero_le _
  · exact Nat.le_refl _

/-- **A number means a defined version** if it is the position of it, counted from one. -/
theorem Numbered.getElem?_definitions_iff (h : p.Numbered) {index : UInt16}
    {d : VersionDefinition} : p.versions.definitions[index]? = some d ↔
      ∃ i name, p.definitionNames[i]? = some name ∧ index.toNat = i + 1 ∧ d = ⟨name, i == 0⟩ := by
  have htoNat : ∀ {i : Nat} {name : String}, p.definitionNames[i]? = some name →
      (UInt16.ofNat (i + 1)).toNat = i + 1 := by
    intro i name hi
    have hlt := (List.getElem?_eq_some_iff.1 hi).1
    have hle := p.length_definitionNames_le
    rw [UInt16.toNat_ofNat']
    exact Nat.mod_eq_of_lt (by rw [Numbered] at h; omega)
  have hentries : (index, d) ∈ p.definitionEntries ↔
      ∃ i name, p.definitionNames[i]? = some name ∧ index.toNat = i + 1 ∧ d = ⟨name, i == 0⟩ := by
    rw [mem_definitionEntries_iff]
    refine exists_congr fun i => exists_congr fun name => and_congr_right fun hi => ?_
    rw [← UInt16.toNat_inj, htoNat hi]
  refine (getElem?_insertMany_iff ?_ index d).trans hentries
  intro k d d' hd hd'
  obtain ⟨i, name, hi, rfl, rfl⟩ := mem_definitionEntries_iff.1 hd
  obtain ⟨j, name', hj, heq, rfl⟩ := mem_definitionEntries_iff.1 hd'
  have hij := congrArg UInt16.toNat heq
  rw [htoNat hi, htoNat hj] at hij
  obtain rfl := Nat.succ_inj.1 hij
  obtain rfl := Option.some.inj (hi.symm.trans hj)
  rfl

/-- The numbers from two on are those of the versions that are defined. -/
theorem Numbered.definitionName?_eq (h : p.Numbered) {index : UInt16} {i : Nat} {name : String}
    (hname : p.definitions[i]? = some name) (hindex : index.toNat = 2 + i) :
    p.versions.definitionName? index = some name := by
  have hne : p.definitions.isEmpty = false := by
    rw [List.isEmpty_eq_false_iff]
    rintro hnil
    rw [hnil] at hname
    cases hname
  have hnames : p.definitionNames[i + 1]? = some name := by
    rw [definitionNames, hne, if_neg (by simp)]
    exact hname
  have hget : p.versions.definitions[index]? = some ⟨name, i + 1 == 0⟩ :=
    h.getElem?_definitions_iff.2 ⟨i + 1, name, hnames, by omega, rfl⟩
  rw [VersionTable.definitionName?, hget]
  rfl

/-- No other number is that of a defined version. -/
theorem Numbered.definitionName?_eq_none (h : p.Numbered) {index : UInt16}
    (hindex : index.toNat = 1 ∨ 2 + p.definitions.length ≤ index.toNat) :
    p.versions.definitionName? index = none := by
  rw [VersionTable.definitionName?]
  cases hget : p.versions.definitions[index]? with
  | none => rfl
  | some d =>
    obtain ⟨i, name, hi, heq, rfl⟩ := h.getElem?_definitions_iff.1 hget
    have hlt := (List.getElem?_eq_some_iff.1 hi).1
    have hle := p.length_definitionNames_le
    obtain rfl : i = 0 := by omega
    rfl

theorem Numbered.getElem?_needs_eq_none (h : p.Numbered) (hwell : p.WellFormed) {index : UInt16}
    (hindex : index.toNat < 2 + p.definitions.length) : p.versions.needs[index]? = none := by
  rw [Option.eq_none_iff_forall_ne_some]
  rintro n hget
  obtain ⟨hn, rfl⟩ := (h.getElem?_needs_iff hwell).1 hget
  obtain ⟨i, hi⟩ := List.getElem?_of_mem hn
  rw [h.needIndex_eq hwell hi] at hindex
  omega

end ImagePlan

/-! ### The versions of symbols -/

namespace PlannedVersion

/-- The version that a reference to a symbol asks for. -/
def requested? : PlannedVersion → Option String
  | .unversioned => none
  | .defined name _ => some name
  | .needed _ name => some name

/-- The version that the definition of a symbol belongs to, and whether it is hidden. -/
def defined? : PlannedVersion → Option (String × Bool)
  | .defined name hidden => some (name, hidden)
  | _ => none

end PlannedVersion

namespace ImagePlan

variable {p : ImagePlan}

/-- The symbols of a plan without versions have none. -/
theorem WellFormed.version_eq (hwell : p.WellFormed) (hnone : p.isVersioned = false)
    {s : PlannedSymbol} (hs : s ∈ p.symbols) : s.version = .unversioned := by
  rw [isVersioned, Bool.or_eq_false_iff, Bool.not_eq_false', Bool.not_eq_false',
    List.isEmpty_iff, List.isEmpty_iff] at hnone
  cases hv : s.version with
  | unversioned => rfl
  | defined name hidden =>
    have hmem := hwell.defined s hs name hidden hv
    rw [hnone.1] at hmem
    exact absurd hmem List.not_mem_nil
  | needed file name =>
    have hmem := hwell.needed s hs file name hv
    rw [hnone.2] at hmem
    exact absurd hmem List.not_mem_nil

/-- The version index of a symbol stands in the table, behind that of no symbol. -/
theorem getElem?_versions_symbols (hversioned : p.isVersioned = true) {i : Nat}
    {s : PlannedSymbol} (hs : p.dynamicSymbols[i]? = some s) :
    p.versions.symbols[i + 1]? = some (p.versionIndex s.version) := by
  have hindexes : p.versionIndexes = localIndex :: p.dynamicSymbols.map fun s =>
      p.versionIndex s.version := if_pos hversioned
  change p.versionIndexes.toArray[i + 1]? = _
  rw [List.getElem?_toArray, hindexes, List.getElem?_cons_succ, List.getElem?_map, hs]
  rfl

/-- **Each symbol gets back the version it asks for and the version it belongs to.** -/
theorem Numbered.versions_symbol (h : p.Numbered) (hwell : p.WellFormed) {i : Nat}
    {s : PlannedSymbol} (hs : p.dynamicSymbols[i]? = some s) :
    p.versions.requested? (i + 1) = s.version.requested? ∧
      p.versions.defined? (i + 1) = s.version.defined? := by
  have hmem : s ∈ p.symbols := (List.mem_filter.1 (List.mem_of_getElem? hs)).1
  cases hversioned : p.isVersioned with
  | false =>
    have hnone : p.versions.symbols[i + 1]? = none := by
      have hindexes : p.versionIndexes = [] := by rw [versionIndexes, hversioned, if_neg (by simp)]
      change p.versionIndexes.toArray[i + 1]? = none
      rw [hindexes]
      rfl
    rw [VersionTable.requested?, VersionTable.defined?, hnone, hwell.version_eq hversioned hmem]
    exact ⟨rfl, rfl⟩
  | true =>
    rw [VersionTable.requested?, VersionTable.defined?, getElem?_versions_symbols hversioned hs]
    dsimp only
    cases hv : s.version with
    | unversioned =>
      have hplain : VersionTable.plain globalIndex = 1 := rfl
      have hlt : (1 : UInt16).toNat < 2 + p.definitions.length :=
        Nat.lt_add_right _ Nat.one_lt_two
      rw [versionIndex, hplain, h.getElem?_needs_eq_none hwell hlt,
        h.definitionName?_eq_none (.inl rfl)]
      exact ⟨rfl, rfl⟩
    | defined name hidden =>
      obtain ⟨j, hj, hindex⟩ := h.definitionIndex_eq (hwell.defined s hmem name hidden hv)
      have hlt := (List.getElem?_eq_some_iff.1 hj).1
      have hsmall : (p.definitionIndex name).toNat < 0x8000 := by
        rw [Numbered] at h
        omega
      have hplain : VersionTable.plain (p.versionIndex (.defined name hidden)) =
          p.definitionIndex name := by
        cases hidden with
        | false => exact VersionTable.plain_of_lt hsmall
        | true => exact VersionTable.plain_or_hiddenBit hsmall
      have hhidden : VersionTable.isHidden (p.versionIndex (.defined name hidden)) = hidden := by
        cases hidden with
        | false => exact VersionTable.isHidden_of_lt hsmall
        | true => exact VersionTable.isHidden_or_hiddenBit
      rw [hplain, hhidden, h.getElem?_needs_eq_none hwell (by omega),
        h.definitionName?_eq hj hindex]
      exact ⟨rfl, rfl⟩
    | needed file name =>
      obtain ⟨n, hn, heq⟩ := List.mem_map.1 (hwell.needed s hmem file name hv)
      cases heq
      obtain ⟨j, hj⟩ := List.getElem?_of_mem hn
      have hlt := (List.getElem?_eq_some_iff.1 hj).1
      have hindex := h.needIndex_eq hwell hj
      have hsmall : (p.needIndex n.file n.name).toNat < 0x8000 := by
        rw [Numbered] at h
        omega
      rw [versionIndex, VersionTable.plain_of_lt hsmall,
        (h.getElem?_needs_iff hwell).2 ⟨hn, rfl⟩, h.definitionName?_eq_none (.inr (by omega))]
      exact ⟨rfl, rfl⟩

end ImagePlan

end ElfLoader
