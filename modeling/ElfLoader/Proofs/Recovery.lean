import ElfLoader.Proofs.Drafting
import ElfLoader.Proofs.PlannedRelocations

/-!
# Planned files are read back

The file of a plan is an object that says what was planned
(`ElfLoader.ImagePlan.Drafted.open_recovers`). Its header and what its dynamic section leads to are
those of the plan; its relocation tables have the planned entries, each of them once, also where one
table runs on over the next (`ElfLoader.ImagePlan.Readable.relocations_eq`); and its lists of
functions stand in the file at the addresses that it gives for them.
-/

namespace ElfLoader

/-! ### What is recovered -/

/-- **An object lists functions to run** in a table of its file. There is no table if there are no
functions. -/
def Object.Lists (o : Object) (table? : Option TableRef) (functions : List UInt32) : Prop :=
  match table? with
  | none => functions = []
  | some t => t.size.toNat = 4 * functions.length ∧ ∃ offset, o.fileOffset t.address = .ok offset ∧
    ∀ (i : Nat) (function : UInt32), functions[i]? = some function →
      o.file.word (offset + 4 * i) = .ok function

/-- **An object says what was planned.** -/
structure Object.Recovers (o : Object) (p : ImagePlan) : Prop where
  /-- The header has the kind of the object, its processor and where it starts to run. -/
  header : o.header.type = p.type ∧ o.header.machine = p.machine ∧ o.header.entry = p.entry
  /-- The byte order is that of the processor. -/
  order : o.file.order = p.order
  /-- The needed libraries are those of the plan, in order. -/
  needed : o.needed = p.needed
  /-- So is the name that the object gives itself. -/
  soname : o.soname = p.soname
  /-- There are no dynamic symbols but those of the plan, behind the one that stands for none. -/
  size_symbols : o.symbols.size = p.dynamicSymbols.length + 1
  /-- Each of them is there with its name, value, size and binding. -/
  symbols : ∀ (i : Nat) (s : PlannedSymbol), p.dynamicSymbols[i]? = some s →
    ∃ symbol, o.symbols.get? (i + 1) = some symbol ∧ symbol.name = s.name ∧
      symbol.value = s.value ∧ symbol.size = s.size ∧ symbol.binding = s.binding ∧
      symbol.isDefined = s.isDefined
  /-- Each has the version that it asks for and the one that it belongs to. -/
  versions : ∀ (i : Nat) (s : PlannedSymbol), p.dynamicSymbols[i]? = some s →
    o.versions.requested? (i + 1) = s.version.requested? ∧
      o.versions.defined? (i + 1) = s.version.defined?
  /-- The needed versions are those of the plan. -/
  needs : ∀ need, (∃ index : UInt16, o.versions.needs[index]? = some need) ↔ need ∈ p.needs
  /-- The relocations are those of the plan, in the order of the tables. -/
  relocations : ∃ tables, o.relocationTables.result = .ok tables ∧
    tables.flatMap (·.entries) = p.rel ++ p.rela ++ p.plt
  /-- Each of them is for the symbol and of the type that it was added with. -/
  info : ∀ e ∈ p.rel ++ p.rela ++ p.plt, ∀ (symbol : Nat) (type : UInt32), symbol < 16777216 →
    type.toNat < 256 → e.info = ImagePlan.relocationInfo symbol type →
      e.symbolIndex = symbol ∧ e.type = type
  /-- The lists of functions stand at the addresses that are given for them. -/
  functions : ∃ d, o.dynamic = some d ∧ o.Lists d.preinitArray p.preinitArray ∧
    o.Lists d.initArray p.initArray ∧ o.Lists d.finiArray p.finiArray ∧
      d.initCode = p.initCode ∧ d.finiCode = p.finiCode

namespace ImagePlan

variable {p : ImagePlan} {path : String} {pageSize : Nat} {extent : Span}

/-- **A list of functions stands where the dynamic section says.** -/
theorem Readable.lists (h : p.Readable) (path : String) (extent : Span) {part : ImagePart}
    {functions : List UInt32} (hpart : part ≠ .dynamic ∧ part ≠ .sectionHeaders)
    (hbytes : p.fixedBytes part = p.order.words functions) :
    (p.object path extent).Lists (unlessAbsent functions.isEmpty
      ⟨p.partAddress part, UInt32.ofNat (4 * functions.length)⟩) functions := by
  cases hnone : functions.isEmpty with
  | true => exact List.isEmpty_iff.1 hnone
  | false =>
    have hholds : (p.file path).Holds (p.offset part) (p.fixedBytes part) :=
      holds_fixedBytes h.isDynamic part hpart
    rw [hbytes] at hholds
    have hle := hholds.le_size
    rw [ByteOrder.length_words, size_file] at hle
    refine ⟨h.fits.toNat_ofNat (by omega), p.offset part, h.fits.offsetIn_part part _, ?_⟩
    exact fun i function hfunction => ObjectFile.Holds.words hholds hfunction

/-- **The object in the file of a plan says what was planned.** -/
theorem Readable.recovers (h : p.Readable) (path : String) (extent : Span) :
    (p.object path extent).Recovers p where
  header := ⟨rfl, rfl, rfl⟩
  order := rfl
  needed := rfl
  soname := rfl
  size_symbols := by
    change (Symbol.null :: p.dynamicSymbols.map PlannedSymbol.symbol).toArray.size = _
    rw [List.size_toArray, List.length_cons, List.length_map]
  symbols := by
    intro i s hs
    refine ⟨s.symbol, ?_, rfl, rfl, rfl, rfl, s.isDefined_symbol⟩
    change (Symbol.null :: p.dynamicSymbols.map PlannedSymbol.symbol).toArray[i + 1]? = _
    rw [List.getElem?_toArray, List.getElem?_cons_succ, List.getElem?_map, hs]
    rfl
  versions _ _ hs := h.numbered.versions_symbol h.wellFormed hs
  needs := by
    intro need
    constructor
    · rintro ⟨index, hindex⟩
      exact ((h.numbered.getElem?_needs_iff h.wellFormed).1 hindex).1
    · intro hneed
      exact ⟨_, (h.numbered.getElem?_needs_iff h.wellFormed).2 ⟨hneed, rfl⟩⟩
  relocations := h.relocations_eq
  info _ _ _ _ hsymbol htype he := relocationInfo_eq hsymbol htype he
  functions := ⟨p.dynamicSection, rfl, h.lists path extent (by decide) rfl,
    h.lists path extent (by decide) rfl, h.lists path extent (by decide) rfl, rfl, rfl⟩

/-- **The file of a plan is read back.** Whatever is planned, with versions that have numbers, names
without zero bytes, and room for the file and a page in the address space: the file is opened, in
either byte order, with a hash table or without one, and the object says what was planned. -/
theorem Drafted.open_recovers {fs : FileSystem} (hp : p.Drafted) (hdynamic : p.isDynamic = true)
    (htype : p.type = ObjectFile.executableType ∨ p.type = ObjectFile.sharedType)
    (hnames : ∀ text ∈ p.strings.texts, '\x00' ∉ text.toList)
    (hnumbers : 1 + p.definitions.length + p.needs.length < 0x8000)
    (hroom : p.address.toNat + p.bytes.length + p.zeros.toNat + pageSize < 4294967296)
    (hread : fs.read path = .ok ⟨p.bytes.toArray⟩) :
    ∃ o, (Object.open fs path pageSize).result = .ok o ∧ o.Recovers p := by
  rw [length_bytes] at hroom
  have h : p.Readable :=
    ⟨hdynamic, (Nat.le_add_right _ _).trans_lt hroom, hnames, hnumbers, hp.wellFormed⟩
  obtain ⟨extent, hobject⟩ : ∃ extent, (Object.ofFile (p.file path) pageSize).result =
      .ok (p.object path extent) := h.ofFile_eq hroom
  refine ⟨p.object path extent, ?_, h.recovers path extent⟩
  have hopen : ObjectFile.open fs path = .ok (p.file path) := by
    rw [ObjectFile.open, hread]
    exact identify_eq htype
  exact Report.result_lift_bind_eq_ok_iff.2 ⟨_, hopen, hobject⟩

/-- The plan of a library with a hidden definition, a versioned import and relocations of all
kinds. -/
def sortPlan : ImagePlan :=
  let p : ImagePlan := {
    shared "libsort.so" with
    order := .big, imageSize := 0, hasHash := false, relaCoversPlt := true }
  let p := ((p.addNeeded "libc.so").defineVersion "sort" 0x200 "SORT_1" true).1
  let p := (p.importVersion "malloc" "libc.so" "LIBC_2").1
  let p := ((p.addRel 0x110 1 2).addRela 0x114 2 1 4).addPlt 0x118 2 22
  { p with initArray := [0x200, 0x204] }

theorem drafted_sortPlan : sortPlan.Drafted := by
  have h := Drafted.settings (.shared "libsort.so") ObjectFile.sharedType Machine.arm .big 0 0x100
    0 0 true false false true (some "libsort.so") none none
  have h := (h.addNeeded "libc.so").defineVersion "sort" 0x200 "SORT_1" true
  have h := h.importVersion "malloc" "libc.so" "LIBC_2"
  have h := ((h.addRel 0x110 1 2).addRela 0x114 2 1 4).addPlt 0x118 2 22
  exact h.arrays [] [0x200, 0x204] []

/-- What the plan of the library says is read back from its file. -/
theorem Drafted.open_recovers_sortPlan : ∃ o tables,
    (Object.open ⟨[(["a"], .file ⟨sortPlan.bytes.toArray⟩)], [], []⟩ "a" 4096).result = .ok o ∧
    o.needed = ["libc.so"] ∧ o.versions.defined? 1 = some ("SORT_1", true) ∧
    o.versions.requested? 2 = some "LIBC_2" ∧ o.relocationTables.result = .ok tables ∧
    tables.flatMap (·.entries) =
      [⟨0x110, 258, none⟩, ⟨0x114, 513, some 4⟩, ⟨0x118, 534, some 0⟩] := by
  have hroom : sortPlan.address.toNat + sortPlan.bytes.length + sortPlan.zeros.toNat + 4096 <
      4294967296 := by
    rw [length_bytes]
    decide +kernel
  have hread : ∀ content : ByteArray,
      FileSystem.read ⟨[(["a"], .file content)], [], []⟩ "a" = .ok content := by
    intro content
    have hlocate : FileSystem.locate ⟨[(["a"], .file content)], [], []⟩ "a" = .ok ["a"] := by
      have hname : "a".isEmpty = false ∧ "a".toList.contains '\x00' = false ∧
          FileSystem.origin [] "a" = [] ∧ Path.components "a" = ["a"] ∧ "a".utf8ByteSize = 1 := by
        decide +kernel
      obtain ⟨hempty, hzero, horigin, hcomponents, hsize⟩ := hname
      rw [FileSystem.locate, hempty, hzero, hsize, hcomponents, horigin]
      simp [FileSystem.maxPath, FileSystem.maxLinks, FileSystem.follow, FileSystem.walk,
        FileSystem.entry?, FileSystem.maxComponent, hsize]
      rfl
    rw [FileSystem.read, hlocate]
    rfl
  obtain ⟨o, hopen, h⟩ := drafted_sortPlan.open_recovers rfl (.inr rfl) (by decide +kernel)
    (by decide) hroom (hread _)
  obtain ⟨tables, htables, hentries⟩ := h.relocations
  exact ⟨o, tables, hopen, h.needed, (h.versions 0 _ rfl).2, (h.versions 1 _ rfl).1, htables,
    hentries⟩

end ImagePlan

end ElfLoader
