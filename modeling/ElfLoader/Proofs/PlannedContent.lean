import ElfLoader.Proofs.PlannedTags
import ElfLoader.Proofs.PlannedVersions

/-!
# What the dynamic section of a planned file leads to

Strings, symbols and versions of a plan are read back from the places that its dynamic section
names (`ElfLoader.ImagePlan.Readable.readDynamic_eq`). The number of the symbols is found in the
hash table, or failing that among the section headers.
-/

namespace ElfLoader

namespace ImagePlan

variable {p : ImagePlan} {path : String} {pageSize : Nat}

/-- **A plan is readable**: it has a dynamic section, its file fits into the address space, its
names have no zero byte in them, and it makes sense otherwise. -/
structure Readable (p : ImagePlan) : Prop where
  /-- There is a dynamic section. -/
  isDynamic : p.isDynamic = true
  /-- The file fits into the address space. -/
  fits : p.Fits
  /-- No name has a zero byte in it. -/
  names : ∀ text ∈ p.strings.texts, '\x00' ∉ text.toList
  /-- All versions have numbers. -/
  numbered : p.Numbered
  /-- The plan makes sense. -/
  wellFormed : p.WellFormed

/-- The address of a part leads to its offset. -/
theorem Fits.offsetIn_part (h : p.Fits) (part : ImagePart) (f : ObjectFile) :
    Object.offsetIn f [p.segment] (p.partAddress part) = .ok (p.offset part) :=
  h.offsetIn_addressAt (p.offset_lt_size part) f

/-- The bytes of a part are no more than those of the file. -/
theorem length_fixedBytes_lt (hdynamic : p.isDynamic = true) (part : ImagePart)
    (hpart : part ≠ .dynamic ∧ part ≠ .sectionHeaders) :
    (p.fixedBytes part).length < p.size := by
  have hholds : (p.file "").Holds (p.offset part) (p.fixedBytes part) :=
    holds_fixedBytes hdynamic part hpart
  have hle := hholds.le_size
  have hstart : headerRoom ≤ p.offset part :=
    ((Nat.le_max_right _ _).trans (le_alignUp (by decide))).trans (Nat.le_add_right _ _)
  rw [size_file] at hle
  rw [headerRoom] at hstart
  omega

/-! ### Strings -/

/-- The strings of each kind stand in their place. -/
theorem standsAt_strings :
    StandsAt p.needed 0 p.strings.texts ∧
    StandsAt p.soname.toList p.sonamePosition p.strings.texts ∧
    StandsAt (p.dynamicSymbols.map (·.name)) p.symbolPosition p.strings.texts ∧
    StandsAt p.definitionNames p.definitionPosition p.strings.texts ∧
    StandsAt (p.needGroups.flatMap groupTexts) p.needPosition p.strings.texts := by
  have hall : StandsAt (p.needed ++ p.soname.toList ++ p.dynamicSymbols.map (·.name) ++
      p.definitionNames ++ p.needGroups.flatMap groupTexts) 0 p.strings.texts :=
    ⟨[], [], rfl, (List.append_nil _).symm⟩
  refine ⟨hall.left.left.left.left, ?_, ?_, ?_, ?_⟩
  · simpa only [Nat.zero_add, sonamePosition] using hall.left.left.left.right
  · simpa only [Nat.zero_add, List.length_append, symbolPosition, sonamePosition]
      using hall.left.left.right
  · simpa only [Nat.zero_add, List.length_append, List.length_map, definitionPosition,
      symbolPosition, sonamePosition] using hall.left.right
  · simpa only [Nat.zero_add, List.length_append, List.length_map, needPosition,
      definitionPosition, symbolPosition, sonamePosition] using hall.right

/-- **A name is read back** from its place among the strings. -/
theorem Readable.string_eq (h : p.Readable) {i : Nat} {text : String}
    (hi : p.strings.texts[i]? = some text) : p.strings.offset i ≠ 0 ∧
      (p.file path).string (p.offset .strings + (p.strings.offset i).toNat) = .ok text := by
  have hsize := length_fixedBytes_lt h.isDynamic .strings (by decide)
  have hfits := h.fits
  rw [Fits] at hfits
  exact StringTable.string_of_holds (holds_fixedBytes h.isDynamic .strings (by decide))
    (hsize.trans (by omega)) hi (h.names text (List.mem_of_getElem? hi))

theorem Readable.leads (h : p.Readable) :
    VersionTable.Leads (p.file path) (p.offset .strings) p.strings :=
  fun _ _ hi => (h.string_eq hi).2

/-- Strings that stand one after the other are read back. -/
theorem Readable.string_of_mem_zipIdx (h : p.Readable) {texts : List String} {first : Nat}
    (hstands : StandsAt texts first p.strings.texts) {n : String × Nat}
    (hn : n ∈ texts.zipIdx first) : p.strings.offset n.2 ≠ 0 ∧
      (p.file path).string (p.offset .strings + (p.strings.offset n.2).toNat) = .ok n.1 := by
  obtain ⟨text, i⟩ := n
  obtain ⟨hle, hget⟩ := List.mk_mem_zipIdx_iff_le_and_getElem?_sub.1 hn
  have hi := hstands.getElem? hget
  rw [Nat.add_sub_cancel' hle] at hi
  exact h.string_eq hi

theorem Readable.readStrings_eq (h : p.Readable) {texts : List String} {first : Nat}
    (hstands : StandsAt texts first p.strings.texts) :
    Object.readStrings (p.file path) (p.offset .strings)
      ((texts.zipIdx first).map fun n => p.strings.offset n.2) = .ok texts := by
  induction texts generalizing first with
  | nil => rfl
  | cons text texts ih =>
    refine bind_eq_ok_iff.2 ⟨text, (h.string_eq hstands.head).2, ?_⟩
    exact bind_eq_ok_iff.2 ⟨texts, ih hstands.tail, rfl⟩

/-! ### Sections -/

/-- The section header of a section whose name is at a position. -/
def sectionHeader (p : ImagePlan) (s : PlannedSection × Nat) : SectionHeader :=
  let size := UInt32.ofNat (p.fixedBytes s.1.part).length
  ⟨p.sectionNames.offset s.2, .ofWord s.1.type, 0, ⟨UInt32.ofNat (p.offset s.1.part), size⟩,
    ⟨p.partAddress s.1.part, size⟩, s.1.link, 0, s.1.entrySize⟩

/-- The header of no section. -/
def noSection : SectionHeader := ⟨0, .null, 0, ⟨0, 0⟩, ⟨0, 0⟩, 0, 0, 0⟩

theorem readFrom_of_holds {sections : List (PlannedSection × Nat)} {offset : Nat}
    (h : (p.file path).Holds offset (sections.flatMap fun s => p.sectionBytes p.offset s.1 s.2)) :
    SectionHeader.readFrom (p.file path) 40 sections.length offset =
      .ok (sections.map p.sectionHeader) := by
  induction sections generalizing offset with
  | nil => rfl
  | cons s sections ih =>
    rw [List.flatMap_cons] at h
    have hrest := h.right
    rw [length_sectionBytes] at hrest
    refine bind_eq_ok_iff.2 ⟨_, SectionHeader.read_of_holds h.left, ?_⟩
    exact bind_eq_ok_iff.2 ⟨_, ih hrest, rfl⟩

/-- **The section headers are read back.** -/
theorem Fits.sections_eq (h : p.Fits) :
    (SectionHeader.readAll (p.file path) p.header).result =
      .ok (noSection :: p.sections.zipIdx.map p.sectionHeader) := by
  have hcount : p.header.sectionCount.toNat = p.sections.zipIdx.length + 1 := by
    have hle : p.sections.length ≤ 5 := by
      rw [sections, List.length_append, List.length_append]
      split <;> split <;> exact (by decide)
    have htoNat : (UInt16.ofNat (p.sections.length + 1)).toNat = p.sections.length + 1 := by
      rw [UInt16.toNat_ofNat']
      exact Nat.mod_eq_of_lt (by omega)
    rw [List.length_zipIdx]
    exact htoNat
  have hoffset : p.header.sectionOffset.toNat = p.offset .sectionHeaders :=
    h.toNat_ofNat (p.offset_lt_size _).le
  have hbytes : (p.file path).Holds (p.offset .sectionHeaders) (List.replicate 40 0 ++
      p.sections.zipIdx.flatMap fun s => p.sectionBytes p.offset s.1 s.2) :=
    holds_partBytes .sectionHeaders
  have hzeros : List.replicate 40 0 =
      (p.file path).order.words [0, 0, 0, 0, 0, 0, 0, 0, 0, 0] := by
    change _ = p.order.words _
    cases p.order <;> rfl
  have hrest := hbytes.right
  rw [List.length_replicate] at hrest
  rw [hzeros] at hbytes
  have hread : SectionHeader.readFrom (p.file path) 40 (p.sections.zipIdx.length + 1)
      (p.offset .sectionHeaders) = .ok (noSection :: p.sections.zipIdx.map p.sectionHeader) := by
    refine bind_eq_ok_iff.2 ⟨noSection, SectionHeader.read_of_holds hbytes.left, ?_⟩
    exact bind_eq_ok_iff.2 ⟨_, readFrom_of_holds hrest, rfl⟩
  have hstep : p.header.sectionEntrySize.toNat = 40 := rfl
  rw [SectionHeader.readAll, hcount, hoffset, hstep, hread]
  rfl

/-! ### Symbols -/

theorem length_symbolBytes : (p.fixedBytes .symbols).length = Symbol.entrySize * p.symbolCount := by
  change (p.symbolBytes _ _ _).length = _
  rw [symbolBytes, List.length_append,
    length_flatMap_const fun s _ => PlannedSymbol.length_bytes p.order s.1 _, List.length_zipIdx,
    symbolCount, Nat.mul_succ, Nat.add_comm]
  rfl

/-- **The number of the symbols is found**, with a hash table or without one. -/
theorem Readable.symbolCount_eq (h : p.Readable) :
    (Object.symbolCount (p.file path) p.header [p.segment] p.dynamicSection).result =
      .ok p.symbolCount := by
  have hfits := h.fits
  have hlength := length_fixedBytes_lt h.isDynamic .symbols (by decide)
  rw [length_symbolBytes, Symbol.entrySize] at hlength
  rw [Fits] at hfits
  have hcount : (UInt32.ofNat p.symbolCount).toNat = p.symbolCount := toNat_ofNat (by omega)
  rw [Object.symbolCount, dynamicSection]
  cases hhash : p.hasHash with
  | true =>
    have hbytes : (p.file path).Holds (p.offset .hash) (p.fixedBytes .hash) :=
      holds_fixedBytes h.isDynamic .hash (by decide)
    rw [fixedBytes, if_pos hhash] at hbytes
    refine Report.result_bind_eq_ok_iff.2 ⟨_, h.fits.offsetIn_part .hash _, ?_⟩
    refine Report.result_bind_eq_ok_iff.2 ⟨_, hbytes.words (i := 1) rfl, ?_⟩
    exact congrArg Except.ok hcount
  | false =>
    refine Report.result_bind_eq_ok_iff.2 ⟨_, h.fits.sections_eq, ?_⟩
    -- the dynamic symbols are the first section behind the one that stands for none
    have hsections : ∃ others, p.sections = ⟨".dynsym", 11, .symbols, 2, 16⟩ :: others := by
      rw [sections, if_pos h.isDynamic]
      exact ⟨_, rfl⟩
    obtain ⟨others, hsections⟩ := hsections
    have hsize : (UInt32.ofNat (p.fixedBytes .symbols).length).toNat / Symbol.entrySize =
        p.symbolCount := by
      have htoNat := length_fixedBytes_lt h.isDynamic .symbols (by decide)
      rw [toNat_ofNat (htoNat.trans (by omega)), length_symbolBytes,
        Nat.mul_div_cancel_left _ (by decide)]
    rw [hsections]
    exact congrArg Except.ok hsize

/-- **The dynamic symbols are read back**, behind the one that stands for none. -/
theorem Readable.symbols_eq (h : p.Readable) :
    SymbolTable.read (p.file path) (p.offset .symbols) p.symbolCount (p.offset .strings) =
      .ok (.ofList (.null :: p.dynamicSymbols.map PlannedSymbol.symbol)) := by
  have hbytes : (p.file path).Holds (p.offset .symbols) (p.fixedBytes .symbols) :=
    holds_fixedBytes h.isDynamic .symbols (by decide)
  have hslice : (p.file path).slice (p.offset .symbols) (p.symbolCount * Symbol.entrySize) =
      .ok _ := hbytes.slice (by rw [length_symbolBytes, Nat.mul_comm])
  have hrecords : (p.file path).Holds (p.offset .symbols) (ByteOrder.noSymbol ++
      (p.dynamicSymbols.zipIdx p.symbolPosition).flatMap fun s =>
        s.1.bytes (p.file path).order (p.strings.offset s.2)) := hbytes
  have hnames : ∀ s ∈ p.dynamicSymbols.zipIdx p.symbolPosition, p.strings.offset s.2 ≠ 0 ∧
      (p.file path).string (p.offset .strings + (p.strings.offset s.2).toNat) = .ok s.1.name := by
    intro s hs
    refine h.string_of_mem_zipIdx standsAt_strings.2.2.1 (n := (s.1.name, s.2)) ?_
    rw [List.zipIdx_map]
    exact List.mem_map.2 ⟨s, hs, rfl⟩
  have hothers := SymbolTable.readFrom_of_holds hrecords.right hnames
  refine bind_eq_ok_iff.2 ⟨_, hslice, ?_⟩
  refine bind_eq_ok_iff.2 ⟨_, ?_, rfl⟩
  refine bind_eq_ok_iff.2 ⟨_, Symbol.read_of_noSymbol hrecords.left, ?_⟩
  exact bind_eq_ok_iff.2 ⟨_, hothers, rfl⟩

/-! ### Versions -/

/-- **The version indexes are read back.** -/
theorem Readable.readVersionSymbols_eq (h : p.Readable) :
    Object.readVersionSymbols (p.file path) [p.segment] p.dynamicSection p.symbolCount =
      .ok p.versions.symbols := by
  change _ = Except.ok p.versionIndexes.toArray
  rw [Object.readVersionSymbols, dynamicSection]
  cases hversioned : p.isVersioned with
  | false =>
    rw [versionIndexes, hversioned]
    rfl
  | true =>
    have hindexes : p.versionIndexes = localIndex :: p.dynamicSymbols.map fun s =>
        p.versionIndex s.version := if_pos hversioned
    have hcount : p.versionIndexes.length = p.symbolCount := by
      rw [hindexes, List.length_cons, List.length_map, symbolCount]
    have hbytes : (p.file path).Holds (p.offset .versions)
        ((p.file path).order.halves p.versionIndexes) := by
      have hpart : (p.file path).Holds (p.offset .versions) p.versionBytes :=
        holds_fixedBytes h.isDynamic .versions (by decide)
      rw [versionBytes, if_pos hversioned, ← hindexes] at hpart
      exact hpart
    refine bind_eq_ok_iff.2 ⟨_, h.fits.offsetIn_part .versions _, ?_⟩
    rw [← hcount]
    exact VersionTable.readSymbols_of_holds hbytes

/-- **The versions that are defined are read back.** -/
theorem Readable.readDefinitions_eq (h : p.Readable) :
    Object.readDefinitions (p.file path) [p.segment] p.dynamicSection (p.offset .strings) =
      .ok p.versions.definitions := by
  rw [Object.readDefinitions, dynamicSection]
  cases hnone : p.definitions.isEmpty with
  | true =>
    have hentries : p.definitionEntries = [] := by
      rw [definitionEntries, definitionNames, if_pos hnone]
      rfl
    change Except.ok ∅ = Except.ok ((∅ : VersionDefinitions).insertMany p.definitionEntries)
    rw [hentries]
    rfl
  | false =>
    have hcount : (UInt32.ofNat p.definitionNames.length).toNat = p.definitionNames.length := by
      have hle := p.length_definitionNames_le
      have hnumbered := h.numbered
      rw [Numbered] at hnumbered
      exact toNat_ofNat (by omega)
    have hbytes : (p.file path).Holds (p.offset .definitions)
        ((p.definitionNames.zipIdx 0).flatMap fun n => VersionTable.definitionBytes
          (p.file path).order n.2 (n.2 + 1 == p.definitionNames.length)
            (p.strings.offset (p.definitionPosition + n.2))) := by
      have hpart : (p.file path).Holds (p.offset .definitions) p.definitionBytes :=
        holds_fixedBytes h.isDynamic .definitions (by decide)
      rw [definitionBytes, List.range_eq_range', ← List.zipIdx_map_snd, List.flatMap_map] at hpart
      exact hpart
    refine bind_eq_ok_iff.2 ⟨_, h.fits.offsetIn_part .definitions _, ?_⟩
    rw [hcount]
    refine VersionTable.readDefinitions_of_holds
      (fun i => p.strings.offset (p.definitionPosition + i)) ∅ (Nat.zero_add _).symm hbytes
      fun n hn => ?_
    have hget := List.mk_mem_zipIdx_iff_getElem?.1 hn
    exact (h.string_eq (standsAt_strings.2.2.2.1.getElem? hget)).2

/-- No more files are named than versions are needed. -/
theorem length_eraseDups_le {α : Type} [BEq α] [LawfulBEq α] (l : List α) :
    l.eraseDups.length ≤ l.length := by
  induction hlength : l.length using Nat.strong_induction_on generalizing l with
  | _ n ih =>
    cases l with
    | nil => exact Nat.zero_le _
    | cons a l =>
      have hle := List.length_filter_le (fun b => !b == a) l
      have hrest := ih _ (by rw [← hlength, List.length_cons]; omega)
        (l.filter fun b => !b == a) rfl
      rw [List.eraseDups_cons, List.length_cons, ← hlength, List.length_cons]
      omega

/-- **The versions that are needed are read back.** -/
theorem Readable.readNeeds_eq (h : p.Readable) :
    Object.readNeeds (p.file path) [p.segment] p.dynamicSection (p.offset .strings) =
      .ok p.versions.needs := by
  rw [Object.readNeeds, dynamicSection]
  cases hnone : p.needs.isEmpty with
  | true =>
    have hentries : p.needEntries = [] := by
      rw [needEntries, needGroups, List.isEmpty_iff.1 hnone]
      rfl
    change Except.ok ∅ = Except.ok ((∅ : VersionNeeds).insertMany p.needEntries)
    rw [hentries]
    rfl
  | false =>
    have hnumbered := h.numbered
    rw [Numbered] at hnumbered
    have hgroups : p.needGroups.length ≤ p.needs.length := by
      rw [needGroups, List.length_map]
      exact (length_eraseDups_le _).trans_eq (List.length_map _)
    have hcount : (UInt32.ofNat p.needGroups.length).toNat = p.needGroups.length :=
      toNat_ofNat (by omega)
    have hbytes : (p.file path).Holds (p.offset .needs)
        (p.groupBytes p.needPosition p.needGroups) :=
      holds_fixedBytes h.isDynamic .needs (by decide)
    refine bind_eq_ok_iff.2 ⟨_, h.fits.offsetIn_part .needs _, ?_⟩
    rw [hcount]
    refine VersionTable.readNeeds_of_holds rfl h.leads ∅ hbytes (fun g hg => ?_)
      standsAt_strings.2.2.2.2
    obtain ⟨file, -, rfl⟩ := List.mem_map.1 hg
    refine ⟨(List.length_filter_le _ _).trans_lt (by omega), fun n hn => ?_⟩
    exact beq_iff_eq.1 (List.mem_filter.1 hn).2

/-! ### All of it -/

/-- **What the dynamic section leads to is read back.** -/
theorem Readable.readDynamic_eq (h : p.Readable) :
    (Object.readDynamic (p.file path) p.header [p.segment] p.dynamicSection).result =
      .ok ⟨p.needed, p.soname, .ofList (.null :: p.dynamicSymbols.map PlannedSymbol.symbol),
        p.versions⟩ := by
  have hneeded : Object.readStrings (p.file path) (p.offset .strings) p.dynamicSection.needed =
      .ok p.needed := h.readStrings_eq standsAt_strings.1
  have hindexed : (Object.readSymbols (p.file path) p.header [p.segment] p.dynamicSection
      (p.offset .strings)).result =
        .ok (.ofList (.null :: p.dynamicSymbols.map PlannedSymbol.symbol), p.versions.symbols) := by
    refine Report.result_bind_eq_ok_iff.2 ⟨_, h.symbolCount_eq, ?_⟩
    refine Report.result_bind_eq_ok_iff.2 ⟨_, h.fits.offsetIn_part .symbols _, ?_⟩
    refine Report.result_bind_eq_ok_iff.2 ⟨_, h.symbols_eq, ?_⟩
    exact Report.result_bind_eq_ok_iff.2 ⟨_, h.readVersionSymbols_eq, rfl⟩
  have hrest : ∀ soname : Option String, (do
      let indexed ← Object.readSymbols (p.file path) p.header [p.segment] p.dynamicSection
        (p.offset .strings)
      let definitions ← Object.readDefinitions (p.file path) [p.segment] p.dynamicSection
        (p.offset .strings)
      let needs ← Object.readNeeds (p.file path) [p.segment] p.dynamicSection (p.offset .strings)
      return ⟨p.needed, soname, indexed.1, ⟨indexed.2, definitions, needs⟩⟩ :
        Report Object.DynamicContent).result =
      .ok ⟨p.needed, soname, .ofList (.null :: p.dynamicSymbols.map PlannedSymbol.symbol),
        p.versions⟩ := by
    intro soname
    refine Report.result_bind_eq_ok_iff.2 ⟨_, hindexed, ?_⟩
    refine Report.result_bind_eq_ok_iff.2 ⟨_, h.readDefinitions_eq, ?_⟩
    exact Report.result_bind_eq_ok_iff.2 ⟨_, h.readNeeds_eq, rfl⟩
  refine Report.result_bind_eq_ok_iff.2 ⟨_, h.fits.offsetIn_part .strings _, ?_⟩
  refine Report.result_bind_eq_ok_iff.2 ⟨_, hneeded, ?_⟩
  cases hsoname : p.soname with
  | none =>
    have htag : p.dynamicSection.soname = none := by
      rw [dynamicSection, hsoname]
      rfl
    rw [htag]
    exact Report.result_bind_eq_ok_iff.2 ⟨none, rfl, hrest none⟩
  | some name =>
    have htag : p.dynamicSection.soname = some (p.strings.offset p.sonamePosition) := by
      rw [dynamicSection, hsoname]
      rfl
    have hstands := standsAt_strings (p := p).2.1
    rw [hsoname] at hstands
    have hname : (p.file path).string _ = .ok name := (h.string_eq hstands.head).2
    rw [htag]
    refine Report.result_bind_eq_ok_iff.2 ⟨some name, ?_, hrest (some name)⟩
    exact Report.result_bind_eq_ok_iff.2 ⟨name, hname, rfl⟩

/-! ### The object -/

/-- The object in the file of a plan. -/
def object (p : ImagePlan) (path : String) (extent : Span) : Object where
  file := p.file path
  header := p.header
  loads := [p.segment]
  dynamic := some p.dynamicSection
  needed := p.needed
  soname := p.soname
  interpreter := none
  symbols := .ofList (.null :: p.dynamicSymbols.map PlannedSymbol.symbol)
  versions := p.versions
  extent := extent

/-- **The file of a plan is an object.** -/
theorem Readable.ofFile_eq (h : p.Readable)
    (hroom : p.address.toNat + p.size + p.zeros.toNat + pageSize < 4294967296) :
    ∃ extent, (Object.ofFile (p.file path) pageSize).result = .ok (p.object path extent) := by
  obtain ⟨extent, hextent⟩ : ∃ extent, Object.extentOf (p.file path) [p.segment] pageSize =
      .ok extent := exists_extentOf hroom
  refine ⟨extent, ?_⟩
  unfold Object.ofFile
  refine Report.result_lift_bind_eq_ok_iff.2 ⟨_, header_read, ?_⟩
  refine Report.result_bind_eq_ok_iff.2 ⟨_, programHeaders_read h.isDynamic, ?_⟩
  refine Report.result_lift_bind_eq_ok_iff.2 ⟨_, h.fits.loadsOf_eq, ?_⟩
  refine Report.result_lift_bind_eq_ok_iff.2 ⟨(), (ensure_eq_ok_iff ..).2 Bool.false_ne_true, ?_⟩
  refine Report.result_lift_bind_eq_ok_iff.2 ⟨_, hextent, ?_⟩
  have hinterpreter : Object.interpreterOf (p.file path) [p.loadHeader, p.dynamicHeader] =
      .ok none := rfl
  refine Report.result_lift_bind_eq_ok_iff.2 ⟨none, hinterpreter, ?_⟩
  refine Report.result_lift_bind_eq_ok_iff.2 ⟨_, h.fits.dynamicOf_eq h.isDynamic path, ?_⟩
  exact Report.result_bind_eq_ok_iff.2 ⟨_, h.readDynamic_eq, rfl⟩

end ImagePlan

end ElfLoader
