import ElfLoader.Alignment
import ElfLoader.Object.Dynamic
import ElfLoader.Object.Section
import ElfLoader.Object.Segment
import ElfLoader.Object.Symbol
import ElfLoader.Object.Version

/-!
# Objects

An `ElfLoader.Object` is an executable or a shared object, read and understood, but
not yet placed anywhere. Everything that linking needs is decoded when the object is
opened (`ElfLoader.Object.open`); after that only look-ups are left. The relocations
alone stay in the file (`ElfLoader.Object.relocationTables`).
-/

namespace ElfLoader

/-- An executable or a shared object. -/
structure Object where
  /-- The file. -/
  file : ObjectFile
  /-- The header of the file. -/
  header : Header
  /-- The segments that go into memory. -/
  loads : List LoadSegment
  /-- The dynamic section. -/
  dynamic : Option Dynamic
  /-- The names of the needed libraries, in order. -/
  needed : List String
  /-- The name that the object gives itself. -/
  soname : Option String
  /-- The loader that the object asks for. -/
  interpreter : Option String
  /-- The dynamic symbols. -/
  symbols : SymbolTable
  /-- The versions of the dynamic symbols. -/
  versions : VersionTable
  /-- The whole pages that the segments take, at their link time addresses. -/
  extent : Span

namespace Object

/-! ### Segments -/

/-- The offset in a file of the byte at a link time address: the first segment that has
the byte in the file decides. -/
def offsetIn (f : ObjectFile) (loads : List LoadSegment) (address : UInt32) :
    Except LoadError Nat :=
  match loads.findSome? fun s => s.offsetOf? address with
  | some offset => .ok offset.toNat
  | none => .error (f.flawed (.notInFile address))

/-- The lowest link time address of segments. -/
def lowest (loads : List LoadSegment) : Nat :=
  ((loads.map fun s => s.memory.start.toNat).min?).getD 0

/-- The address behind the highest link time address of segments. -/
def highest (loads : List LoadSegment) : Nat :=
  ((loads.map fun s => s.memory.start.toNat + s.memory.size.toNat).max?).getD 0

/-- The whole pages that segments take. -/
def extentOf (f : ObjectFile) (loads : List LoadSegment) (pageSize : Nat) :
    Except LoadError Span := do
  let start := alignDown (lowest loads) pageSize
  let stop := alignUp (highest loads) pageSize
  ensure (stop - start < 4294967296) (f.flawed .spanTooLarge)
  return ⟨UInt32.ofNat start, UInt32.ofNat (stop - start)⟩

/-- The segments to be loaded that program headers describe. -/
def loadsOf (f : ObjectFile) : List ProgramHeader → Except LoadError (List LoadSegment)
  | [] => .ok []
  | h :: rest =>
    if h.type = .load then do
      let s ← h.toLoad f
      return s :: (← loadsOf f rest)
    else loadsOf f rest

/-- The path of the loader that program headers ask for. -/
def interpreterOf (f : ObjectFile) (headers : List ProgramHeader) :
    Except LoadError (Option String) :=
  match headers.find? fun h => h.type == .interpreter with
  | some h => do return some (← f.string h.offset.toNat)
  | none => .ok none

/-- The dynamic section that program headers describe. -/
def dynamicOf (f : ObjectFile) (headers : List ProgramHeader) :
    Except LoadError (Option Dynamic) :=
  match headers.find? fun h => h.type == .dynamic with
  | some h => do return some (← Dynamic.read f h.offset.toNat h.fileSize.toNat)
  | none => .ok none

/-! ### What the dynamic section leads to -/

/-- What the dynamic section leads to. -/
structure DynamicContent where
  /-- The names of the needed libraries. -/
  needed : List String
  /-- The name that the object gives itself. -/
  soname : Option String
  /-- The dynamic symbols. -/
  symbols : SymbolTable
  /-- Their versions. -/
  versions : VersionTable

/-- What an object without a dynamic section has. -/
def DynamicContent.empty : DynamicContent := ⟨[], none, .empty, .empty⟩

/-- Reads the texts at offsets among the strings. -/
def readStrings (f : ObjectFile) (strings : Nat) : List UInt32 → Except LoadError (List String)
  | [] => .ok []
  | offset :: rest => do
    let text ← f.string (strings + offset.toNat)
    return text :: (← readStrings f strings rest)

/-- How many dynamic symbols there are. The dynamic section does not say; the hash table
does, and failing that the section that holds the symbols. -/
def symbolCount (f : ObjectFile) (h : Header) (loads : List LoadSegment) (d : Dynamic) :
    Report Nat :=
  match d.hash with
  | some address => do
    let offset ← offsetIn f loads address
    return (← f.word (offset + 4)).toNat
  | none => do
    let sections ← SectionHeader.readAll f h
    match sections.find? fun s => s.type == .dynamicSymbolTable with
    | some s => return s.file.size.toNat / Symbol.entrySize
    | none => Report.fail (f.flawed .symbolCountUnknown)

/-- The version indexes of `count` symbols, if there are any. -/
def readVersionSymbols (f : ObjectFile) (loads : List LoadSegment) (d : Dynamic)
    (count : Nat) : Except LoadError (Array UInt16) :=
  match d.versions with
  | none => .ok #[]
  | some address => do VersionTable.readSymbols f (← offsetIn f loads address) count

/-- The dynamic symbols with their version indexes. -/
def readSymbols (f : ObjectFile) (h : Header) (loads : List LoadSegment) (d : Dynamic)
    (strings : Nat) : Report (SymbolTable × Array UInt16) :=
  match d.symbols with
  | none => pure (.empty, #[])
  | some address => do
    let count ← symbolCount f h loads d
    let offset ← offsetIn f loads address
    let symbols ← SymbolTable.read f offset count strings
    return (symbols, ← readVersionSymbols f loads d count)

/-- The versions that are defined. -/
def readDefinitions (f : ObjectFile) (loads : List LoadSegment) (d : Dynamic)
    (strings : Nat) : Except LoadError VersionDefinitions :=
  match d.definitions with
  | none => .ok ∅
  | some (address, count) => do
    VersionTable.readDefinitions f strings count.toNat (← offsetIn f loads address) ∅

/-- The versions that are needed. -/
def readNeeds (f : ObjectFile) (loads : List LoadSegment) (d : Dynamic) (strings : Nat) :
    Except LoadError VersionNeeds :=
  match d.needs with
  | none => .ok ∅
  | some (address, count) => do
    VersionTable.readNeeds f strings count.toNat (← offsetIn f loads address) ∅

/-- Reads what the dynamic section leads to. Without strings there can be no names. -/
def readDynamic (f : ObjectFile) (h : Header) (loads : List LoadSegment) (d : Dynamic) :
    Report DynamicContent :=
  match d.strings with
  | none => do
    ensure (d.needed.isEmpty ∧ d.soname.isNone ∧ d.symbols.isNone)
      (f.flawed .stringTableMissing)
    return .empty
  | some table => do
    let strings ← offsetIn f loads table.address
    let needed ← readStrings f strings d.needed
    let soname ← match d.soname with
      | some offset => some <$> f.string (strings + offset.toNat)
      | none => pure none
    let (symbols, indexes) ← readSymbols f h loads d strings
    let definitions ← readDefinitions f loads d strings
    let needs ← readNeeds f loads d strings
    return ⟨needed, soname, symbols, ⟨indexes, definitions, needs⟩⟩

/-! ### Opening an object -/

/-- The object in a file, with extents in pages of `pageSize` bytes. -/
def ofFile (f : ObjectFile) (pageSize : Nat) : Report Object := do
  let header ← Header.read f
  let headers ← ProgramHeader.readAll f header
  let loads ← loadsOf f headers
  ensure (¬ loads.isEmpty) (f.flawed .nothingToLoad)
  let extent ← extentOf f loads pageSize
  let interpreter ← interpreterOf f headers
  let dynamic ← dynamicOf f headers
  let content ← match dynamic with
    | some d => readDynamic f header loads d
    | none => pure .empty
  return {
    file := f, header, loads, dynamic, interpreter, extent
    needed := content.needed
    soname := content.soname
    symbols := content.symbols
    versions := content.versions }

/-- **The object that a path leads to.** -/
def «open» (fs : FileSystem) (path : String) (pageSize : Nat) : Report Object := do
  ofFile (← ObjectFile.open fs path) pageSize

/-! ### Questions about an object -/

variable (o : Object)

/-- Where the object was read from. -/
def path : String := o.file.path

/-- Whether the object can be placed anywhere in memory. -/
def isShared : Bool := o.header.isShared

/-- The offset in the file of the byte at a link time address. -/
def fileOffset (address : UInt32) : Except LoadError Nat := offsetIn o.file o.loads address

/-- The relocation table that a reference leads to. -/
def relocationTable (r : RelocationRef) : Report RelocationTable := do
  let offset ← o.fileOffset r.table.address
  RelocationTable.bind o.path o.file.bytes offset r.table.size.toNat r.form o.file.order

/-- The relocation tables that references lead to. -/
def tablesOf : List RelocationRef → Report (List RelocationTable)
  | [] => pure []
  | r :: rest => do
    let t ← o.relocationTable r
    return t :: (← tablesOf rest)

/-- The relocation tables, in the order in which they are applied. -/
def relocationTables : Report (List RelocationTable) :=
  match o.dynamic with
  | none => pure []
  | some d => o.tablesOf d.relocations

/-- How many relocations there are; none if the tables cannot be found. -/
def relocationCount : Report Nat :=
  let tables := o.relocationTables
  match tables.result with
  | .ok ts => ⟨.ok ((ts.map (·.count)).foldr (· + ·) 0), tables.notices⟩
  | .error _ => ⟨.ok 0, tables.notices⟩

/-- The full symbol table, if the file still has one. One that cannot be read counts as
none, with a notice. -/
def staticSymbols : Report (Option SymbolTable) := do
  let sections ← SectionHeader.readAll o.file o.header
  match sections.find? fun s => s.type == .symbolTable with
  | none => return none
  | some table =>
    match sections[table.link.toNat]? with
    | none => return none
    | some strings =>
      match SymbolTable.read o.file table.file.start.toNat
          (table.file.size.toNat / Symbol.entrySize) strings.file.start.toNat with
      | .ok symbols => return some symbols
      | .error e => do
        Report.note (.symbolsIgnored e)
        return none

end Object

end ElfLoader
