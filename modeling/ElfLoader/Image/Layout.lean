import ElfLoader.Image.Records
import ElfLoader.Alignment
import ElfLoader.Object.Dynamic

/-!
# The layout of a planned file

A planned file is one segment that covers the whole file. First comes the image with
the headers at its start, then come the parts (`ElfLoader.ImagePart`) in a fixed order.
Some parts tell where others are, so the layout is found in two steps: the size of a
part does not depend on where the parts are (`ElfLoader.ImagePlan.length_paddedBytes`), and
the sizes say where they are (`ElfLoader.ImagePlan.offset`).
`ElfLoader.ImagePlan.bytes` is the file.
-/

namespace ElfLoader

/-- The parts of a planned file behind its image. -/
inductive ImagePart where
  /-- The hash table, of use only for its count of symbols. -/
  | hash
  /-- The dynamic symbols. -/
  | symbols
  /-- The version indexes of the dynamic symbols. -/
  | versions
  /-- The versions defined here. -/
  | definitions
  /-- The versions needed from other files. -/
  | needs
  /-- The implicit relocations. -/
  | rel
  /-- The explicit relocations. -/
  | rela
  /-- The relocations of the procedure linkage. -/
  | plt
  /-- Functions to run before anything else. -/
  | preinitArray
  /-- Functions to run at the start. -/
  | initArray
  /-- Functions to run at the end. -/
  | finiArray
  /-- The strings of the dynamic tables. -/
  | strings
  /-- The dynamic section. -/
  | dynamic
  /-- The full symbol table. -/
  | allSymbols
  /-- The strings of the full symbol table. -/
  | allStrings
  /-- The names of the sections. -/
  | sectionNames
  /-- The section headers. -/
  | sectionHeaders
  deriving DecidableEq, Repr, Inhabited

namespace ImagePart

/-- The parts of dynamic linking, in file order. -/
def linking : List ImagePart :=
  [hash, symbols, versions, definitions, needs, rel, rela, plt, preinitArray, initArray,
    finiArray, strings, dynamic]

/-- All parts, in file order. -/
def all : List ImagePart :=
  linking ++ [allSymbols, allStrings, sectionNames, sectionHeaders]

/-- The parts that lie before a part. -/
def before (part : ImagePart) : List ImagePart := all.takeWhile (· ≠ part)

end ImagePart

/-- What a tag of the dynamic section says. -/
inductive PlannedValue where
  /-- A number. -/
  | number (value : UInt32)
  /-- The link time address of a part. -/
  | addressOf (part : ImagePart)
  deriving DecidableEq, Repr, Inhabited

/-- A section in a plan. -/
structure PlannedSection where
  /-- Its name. -/
  name : String
  /-- What it holds, as the word that stands for it. -/
  type : UInt32
  /-- Its bytes. -/
  part : ImagePart
  /-- A section that goes with it. -/
  link : UInt32
  /-- The size of its entries. -/
  entrySize : UInt32
  deriving DecidableEq, Repr, Inhabited

/-- The versions needed from one file. -/
structure NeedGroup where
  /-- The file. -/
  file : String
  /-- The versions, in order. -/
  versions : List VersionNeed
  deriving DecidableEq, Repr, Inhabited

/-- Pads bytes to whole words. -/
def padded (bytes : List UInt8) : List UInt8 :=
  bytes ++ List.replicate (alignUp bytes.length 4 - bytes.length) 0

namespace ImagePlan

variable (p : ImagePlan)

/-! ### The strings of the dynamic tables -/

/-- What an object that gives itself no name is called among its versions. -/
def unnamed : String := "a.out"

/-- The names of the versions defined here, the object's own first. -/
def definitionNames : List String :=
  if p.definitions.isEmpty then [] else p.soname.getD unnamed :: p.definitions

/-- The needed versions by file, in the order in which the files are first mentioned. -/
def needGroups : List NeedGroup :=
  (p.needs.map (·.file)).eraseDups.map fun file => ⟨file, p.needs.filter (·.file == file)⟩

/-- The strings of a group of needed versions. -/
def groupTexts (g : NeedGroup) : List String := g.file :: g.versions.map (·.name)

/-- The strings of the dynamic tables. -/
def strings : StringTable :=
  ⟨p.needed ++ p.soname.toList ++ p.dynamicSymbols.map (·.name) ++ p.definitionNames ++
    p.needGroups.flatMap groupTexts⟩

/-- The position of the name of the object itself among the strings. -/
def sonamePosition : Nat := p.needed.length

/-- The position of the name of the first symbol. -/
def symbolPosition : Nat := p.sonamePosition + p.soname.toList.length

/-- The position of the name of the first defined version. -/
def definitionPosition : Nat := p.symbolPosition + p.dynamicSymbols.length

/-- The position of the name of the first file that versions are needed from. -/
def needPosition : Nat := p.definitionPosition + p.definitionNames.length

/-! ### Symbols and their versions -/

/-- The records of symbols whose names stand one after the other among the strings. -/
def symbolBytes (table : StringTable) (symbols : List PlannedSymbol) (first : Nat) :
    List UInt8 :=
  ByteOrder.noSymbol ++
    (symbols.zipIdx first).flatMap fun s => s.1.bytes p.order (table.offset s.2)

/-- The number of records in the table of dynamic symbols. -/
def symbolCount : Nat := p.dynamicSymbols.length + 1

/-- Index 0 is for symbols that only the object itself knows. -/
def localIndex : UInt16 := 0

/-- Index 1 is for symbols without a version, and for the object's own name. -/
def globalIndex : UInt16 := 1

/-- The version index of a version defined here. -/
def definitionIndex (name : String) : UInt16 :=
  2 + UInt16.ofNat ((p.definitions.findIdx? (· == name)).getD 0)

/-- The version index of a version needed from another file. -/
def needIndex (file name : String) : UInt16 :=
  2 + UInt16.ofNat p.definitions.length +
    UInt16.ofNat ((p.needs.findIdx? fun n => n.file == file && n.name == name).getD 0)

/-- The version index of a symbol. -/
def versionIndex : PlannedVersion → UInt16
  | .unversioned => globalIndex
  | .defined name hidden =>
    if hidden then p.definitionIndex name ||| VersionTable.hiddenBit
    else p.definitionIndex name
  | .needed file name => p.needIndex file name

/-- Whether anything has a version. -/
def isVersioned : Bool := !p.definitions.isEmpty || !p.needs.isEmpty

/-- The version indexes of the dynamic symbols. -/
def versionBytes : List UInt8 :=
  if p.isVersioned then
    p.order.halves (localIndex :: p.dynamicSymbols.map fun s => p.versionIndex s.version)
  else []

/-- The records of the versions defined here. -/
def definitionBytes : List UInt8 :=
  let count := p.definitionNames.length
  (List.range count).flatMap fun i =>
    VersionTable.definitionBytes p.order i (i + 1 == count)
      (p.strings.offset (p.definitionPosition + i))

/-- The records of the versions needed from a file, whose first name is at a position
among the strings. -/
def needBytes (position : Nat) : List VersionNeed → List UInt8
  | [] => []
  | n :: rest =>
    VersionTable.needBytes p.order n.weak (p.needIndex n.file n.name) rest.isEmpty
      (p.strings.offset position) ++ needBytes (position + 1) rest

/-- The records of all needed versions, the first string being at a position. -/
def groupBytes (position : Nat) : List NeedGroup → List UInt8
  | [] => []
  | g :: rest =>
    VersionTable.fileBytes p.order g.versions.length rest.isEmpty (p.strings.offset position) ++
      p.needBytes (position + 1) g.versions ++
      groupBytes (position + (groupTexts g).length) rest

/-! ### The dynamic section -/

/-- A tag for a part that may be empty, with the tags that go with it. -/
def tagsUnless (isAbsent : Bool) (tags : List (UInt32 × PlannedValue)) :
    List (UInt32 × PlannedValue) :=
  if isAbsent then [] else tags

/-- The tags of a list of functions to run. -/
def arrayTags (address size : UInt32) (part : ImagePart) (entries : List UInt32) :
    List (UInt32 × PlannedValue) :=
  tagsUnless entries.isEmpty
    [(address, .addressOf part), (size, .number (UInt32.ofNat (4 * entries.length)))]

/-- The size of the table of explicit relocations, as the dynamic section gives it. -/
def relaSize : UInt32 :=
  UInt32.ofNat (12 * (p.rela.length + if p.relaCoversPlt then p.plt.length else 0))

/-- The dynamic section, without its end mark. -/
def tags : List (UInt32 × PlannedValue) :=
  (p.needed.zipIdx.map fun n => (Tag.needed, .number (p.strings.offset n.2))) ++
  (p.soname.toList.map fun _ => (Tag.soname, .number (p.strings.offset p.sonamePosition))) ++
  tagsUnless (!p.hasHash) [(Tag.hash, .addressOf .hash)] ++
  [(Tag.symbols, .addressOf .symbols), (Tag.symbolEntry, .number 16)] ++
  tagsUnless (!p.isVersioned) [(Tag.versions, .addressOf .versions)] ++
  tagsUnless p.definitions.isEmpty
    [(Tag.definitions, .addressOf .definitions),
      (Tag.definitionCount, .number (UInt32.ofNat p.definitionNames.length))] ++
  tagsUnless p.needs.isEmpty
    [(Tag.needs, .addressOf .needs),
      (Tag.needCount, .number (UInt32.ofNat p.needGroups.length))] ++
  tagsUnless p.rel.isEmpty
    [(Tag.rel, .addressOf .rel), (Tag.relSize, .number (UInt32.ofNat (8 * p.rel.length))),
      (Tag.relEntry, .number 8)] ++
  tagsUnless p.rela.isEmpty
    [(Tag.rela, .addressOf .rela), (Tag.relaSize, .number p.relaSize),
      (Tag.relaEntry, .number 12)] ++
  tagsUnless p.plt.isEmpty
    [(Tag.plt, .addressOf .plt), (Tag.pltSize, .number (UInt32.ofNat (12 * p.plt.length))),
      (Tag.pltForm, .number Tag.rela)] ++
  arrayTags Tag.preinitArray Tag.preinitArraySize .preinitArray p.preinitArray ++
  arrayTags Tag.initArray Tag.initArraySize .initArray p.initArray ++
  arrayTags Tag.finiArray Tag.finiArraySize .finiArray p.finiArray ++
  (p.initCode.toList.map fun code => (Tag.initCode, .number code)) ++
  (p.finiCode.toList.map fun code => (Tag.finiCode, .number code)) ++
  [(Tag.strings, .addressOf .strings),
    (Tag.stringsSize, .number (UInt32.ofNat p.strings.bytes.length))]

/-! ### The sections -/

/-- The sections, without the first one that stands for no section. -/
def sections : List PlannedSection :=
  (if p.isDynamic then
    [⟨".dynsym", 11, .symbols, 2, 16⟩, ⟨".dynstr", 3, .strings, 0, 0⟩] else []) ++
  (if p.hasSymbolTable then
    [⟨".symtab", 2, .allSymbols, if p.isDynamic then 4 else 2, 16⟩,
      ⟨".strtab", 3, .allStrings, 0, 0⟩] else []) ++
  [⟨".shstrtab", 3, .sectionNames, 0, 0⟩]

/-- The names of the sections. -/
def sectionNames : StringTable := ⟨p.sections.map (·.name)⟩

/-- The strings of the full symbol table. -/
def allStrings : StringTable := ⟨p.symbols.map (·.name)⟩

/-! ### The parts -/

/-- The address of a part that is at an offset. -/
def addressAt (offset : Nat) : UInt32 := p.address + UInt32.ofNat offset

/-- The word that a tag says, if the parts are at the given offsets. -/
def resolve (place : ImagePart → Nat) : PlannedValue → UInt32
  | .number value => value
  | .addressOf part => p.addressAt (place part)

/-- The dynamic section, if the parts are at the given offsets. -/
def dynamicBytes (place : ImagePart → Nat) : List UInt8 :=
  (p.tags.flatMap fun t => p.order.words [t.1, p.resolve place t.2]) ++
    p.order.words [Tag.null, 0]

/-- The bytes of the parts that do not depend on where the others are. -/
def fixedBytes : ImagePart → List UInt8
  | .hash =>
    if p.hasHash then
      p.order.words ([1, UInt32.ofNat p.symbolCount, 0] ++ List.replicate p.symbolCount 0)
    else []
  | .symbols => p.symbolBytes p.strings p.dynamicSymbols p.symbolPosition
  | .versions => p.versionBytes
  | .definitions => p.definitionBytes
  | .needs => p.groupBytes p.needPosition p.needGroups
  | .rel => p.rel.flatMap (·.bytes p.order)
  | .rela => p.rela.flatMap (·.bytes p.order)
  | .plt => p.plt.flatMap (·.bytes p.order)
  | .preinitArray => p.order.words p.preinitArray
  | .initArray => p.order.words p.initArray
  | .finiArray => p.order.words p.finiArray
  | .strings => p.strings.bytes
  | .allSymbols =>
    if p.hasSymbolTable then p.symbolBytes p.allStrings p.symbols 0 else []
  | .allStrings => if p.hasSymbolTable then p.allStrings.bytes else []
  | .sectionNames => p.sectionNames.bytes
  | .dynamic | .sectionHeaders => []

/-- The section header of a section whose name is at a position. -/
def sectionBytes (place : ImagePart → Nat) (s : PlannedSection) (position : Nat) :
    List UInt8 :=
  p.order.words
    [p.sectionNames.offset position, s.type, 0, p.addressAt (place s.part),
      UInt32.ofNat (place s.part), UInt32.ofNat (p.fixedBytes s.part).length, s.link, 0, 4,
      s.entrySize]

/-- The bytes of a part, if the parts are at the given offsets. -/
def partBytes (place : ImagePart → Nat) (part : ImagePart) : List UInt8 :=
  if part ∈ ImagePart.linking ∧ !p.isDynamic then []
  else
    match part with
    | .dynamic => p.dynamicBytes place
    | .sectionHeaders =>
      List.replicate 40 0 ++ p.sections.zipIdx.flatMap fun s => p.sectionBytes place s.1 s.2
    | part => p.fixedBytes part

/-- The bytes of a part, padded to whole words. -/
def paddedBytes (place : ImagePart → Nat) (part : ImagePart) : List UInt8 :=
  padded (p.partBytes place part)

/-- How many bytes a part takes, wherever the parts are. -/
def partSize (part : ImagePart) : Nat := (p.paddedBytes (fun _ => 0) part).length

/-- Tags take two words each. -/
theorem length_dynamicBytes (place : ImagePart → Nat) :
    (p.dynamicBytes place).length = 8 * (p.tags.length + 1) := by
  have h : ∀ tags : List (UInt32 × PlannedValue),
      (tags.flatMap fun t => p.order.words [t.1, p.resolve place t.2]).length =
        8 * tags.length := by
    intro tags
    induction tags with
    | nil => rfl
    | cons t tags ih => simp [ih]; omega
  simp [dynamicBytes, h]
  omega

/-- A section header takes ten words. -/
theorem length_sectionBytes (place : ImagePart → Nat) (s : PlannedSection) (position : Nat) :
    (p.sectionBytes place s position).length = 40 := by
  simp [sectionBytes]

/-- How many bytes a part takes does not depend on where the parts are. -/
theorem length_partBytes (place place' : ImagePart → Nat) (part : ImagePart) :
    (p.partBytes place part).length = (p.partBytes place' part).length := by
  unfold partBytes
  split
  · rfl
  · cases part with
    | dynamic => simp only [length_dynamicBytes]
    | sectionHeaders => simp [List.length_flatMap, length_sectionBytes]
    | _ => rfl

/-- **The size of a part is the size of its bytes**, wherever the parts are. -/
theorem length_paddedBytes (place : ImagePart → Nat) (part : ImagePart) :
    (p.paddedBytes place part).length = p.partSize part := by
  simp [partSize, paddedBytes, padded, p.length_partBytes place (fun _ => 0) part]

/-! ### The file -/

/-- The headers take at most this many bytes. -/
def headerRoom : Nat := 0x100

/-- How many bytes the image takes. -/
def imageLength : Nat := alignUp (max p.imageSize.toNat headerRoom) 16

/-- Where a part is in the file. -/
def offset (part : ImagePart) : Nat := p.imageLength + (part.before.map p.partSize).foldr (· + ·) 0

/-- How many bytes the file has. -/
def size : Nat := p.imageLength + (ImagePart.all.map p.partSize).foldr (· + ·) 0

/-- The header. -/
def header : Header where
  type := p.type
  machine := p.machine
  version := 1
  entry := p.entry
  programOffset := 52
  sectionOffset := UInt32.ofNat (p.offset .sectionHeaders)
  flags := 0
  headerSize := 52
  programEntrySize := Header.programHeaderSize
  programCount := if p.isDynamic then 2 else 1
  sectionEntrySize := Header.sectionHeaderSize
  sectionCount := UInt16.ofNat (p.sections.length + 1)
  nameSection := UInt16.ofNat p.sections.length

/-- The program header of the segment that covers the whole file. -/
def loadWords : List UInt32 :=
  let size := UInt32.ofNat p.size
  [1, 0, p.address, p.address, size, size + p.zeros, 7, 0x1000]

/-- The program header of the dynamic section. -/
def dynamicWords : List UInt32 :=
  let offset := p.offset .dynamic
  let size := UInt32.ofNat (p.partSize .dynamic)
  [2, UInt32.ofNat offset, p.addressAt offset, p.addressAt offset, size, size, 6, 4]

/-- All headers at the start of the file. -/
def headers : List UInt8 :=
  p.order.identification ++ p.order.headerBytes p.header ++ p.order.words p.loadWords ++
    if p.isDynamic then p.order.words p.dynamicWords else []

/-- Puts bytes in the place of those that start at an offset. -/
def overlay (bytes : List UInt8) (offset : Nat) (new : List UInt8) : List UInt8 :=
  bytes.mapIdx fun i b => if i < offset then b else (new[i - offset]?).getD b

/-- The image without the headers. -/
def image : List UInt8 :=
  p.patches.foldl (fun bytes patch => overlay bytes (patch.1 - p.address).toNat patch.2)
    (List.replicate p.imageLength 0)

/-- **The file.** -/
def bytes : List UInt8 :=
  overlay p.image 0 p.headers ++ ImagePart.all.flatMap (p.paddedBytes p.offset)

end ImagePlan

end ElfLoader
