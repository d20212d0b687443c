import ElfLoader.Object.Relocation

/-!
# The dynamic section

The dynamic section is a list of tags with values that tells a loader where
everything it needs is: libraries, symbols, relocations, versions and the functions
to run at the start and at the end. `ElfLoader.Dynamic.read` reads the list up to its
end mark, and `ElfLoader.Dynamic.ofTags` makes sense of it. The order of the tags
does not matter, except among those with the same tag: of the needed libraries all
count, in order, and of any other tag the first counts.

`ElfLoader.Dynamic.relocations` gives the relocation tables in the order in which
they are applied. Linkers may let a table run on over the procedure linkage entries
behind it; these are cut off it, so that each entry is applied once.
-/

namespace ElfLoader

/-- A table in the memory of an object, by link time address and size. -/
structure TableRef where
  /-- The address of its first byte. -/
  address : UInt32
  /-- How many bytes it has. -/
  size : UInt32
  deriving DecidableEq, Repr, Inhabited

/-- A relocation table, with the form of its entries. -/
structure RelocationRef where
  /-- Where it is. -/
  table : TableRef
  /-- The form of its entries. -/
  form : RelocationForm
  deriving DecidableEq, Repr, Inhabited

/-! ### Tags -/

namespace Tag

def null : UInt32 := 0
def needed : UInt32 := 1
def pltSize : UInt32 := 2
def hash : UInt32 := 4
def strings : UInt32 := 5
def symbols : UInt32 := 6
def rela : UInt32 := 7
def relaSize : UInt32 := 8
def relaEntry : UInt32 := 9
def stringsSize : UInt32 := 10
def symbolEntry : UInt32 := 11
def initCode : UInt32 := 12
def finiCode : UInt32 := 13
def soname : UInt32 := 14
def rel : UInt32 := 17
def relSize : UInt32 := 18
def relEntry : UInt32 := 19
def pltForm : UInt32 := 20
def plt : UInt32 := 23
def initArray : UInt32 := 25
def finiArray : UInt32 := 26
def initArraySize : UInt32 := 27
def finiArraySize : UInt32 := 28
def preinitArray : UInt32 := 32
def preinitArraySize : UInt32 := 33
def versions : UInt32 := 0x6ffffff0
def definitions : UInt32 := 0x6ffffffc
def definitionCount : UInt32 := 0x6ffffffd
def needs : UInt32 := 0x6ffffffe
def needCount : UInt32 := 0x6fffffff

end Tag

/-- A list of tags with their values. -/
abbrev TagList := List (UInt32 × UInt32)

/-! ### The section -/

/-- What the dynamic section says. Texts are given by their offsets among the strings. -/
structure Dynamic where
  /-- The needed libraries, in order. -/
  needed : List UInt32
  /-- The name that the object gives itself. -/
  soname : Option UInt32
  /-- The strings. -/
  strings : Option TableRef
  /-- The address of the dynamic symbols. -/
  symbols : Option UInt32
  /-- The size of a symbol. -/
  symbolSize : Option UInt32
  /-- The address of the hash table, which counts the symbols. -/
  hash : Option UInt32
  /-- The implicit relocations. -/
  rel : Option TableRef
  /-- The explicit relocations. -/
  rela : Option TableRef
  /-- The relocations of the procedure linkage. -/
  plt : Option RelocationRef
  /-- The address of the version indexes. -/
  versions : Option UInt32
  /-- The address and the number of the version definitions. -/
  definitions : Option (UInt32 × UInt32)
  /-- The address and the number of the version needs. -/
  needs : Option (UInt32 × UInt32)
  /-- The function to run at the start. -/
  initCode : Option UInt32
  /-- The function to run at the end. -/
  finiCode : Option UInt32
  /-- Functions to run before anything else. -/
  preinitArray : Option TableRef
  /-- Functions to run at the start. -/
  initArray : Option TableRef
  /-- Functions to run at the end. -/
  finiArray : Option TableRef
  deriving DecidableEq, Repr, Inhabited

namespace Dynamic

/-- A table that is given by one tag for its address and one for its size. -/
def table? (f : ObjectFile) (tags : TagList) (address size : UInt32) :
    Except LoadError (Option TableRef) :=
  match tags.lookup address, tags.lookup size with
  | some a, some s => .ok (some ⟨a, s⟩)
  | some a, none => .error (f.flawed (.tableWithoutSize address a))
  | none, _ => .ok none

/-- The relocations of the procedure linkage, whose form a further tag gives. -/
def pltTable? (f : ObjectFile) (tags : TagList) : Except LoadError (Option RelocationRef) := do
  match ← table? f tags Tag.plt Tag.pltSize with
  | none => return none
  | some table =>
    match tags.lookup Tag.pltForm with
    | some form =>
      if form = Tag.rel then return some ⟨table, .implicit⟩
      else if form = Tag.rela then return some ⟨table, .explicit⟩
      else throw (f.flawed (.badPltForm form))
    | none => throw (f.flawed .pltFormMissing)

/-- Refuses a wrong size of entries. -/
def checkEntrySize (f : ObjectFile) (name : String) (size? : Option UInt32) (expected : Nat) :
    Except LoadError Unit :=
  match size? with
  | none => .ok ()
  | some size => ensure (size.toNat = expected) (f.flawed (.entrySize name size expected))

/-- The size of a symbol. -/
def symbolEntrySize : Nat := 16

/-- What a list of tags says. -/
def ofTags (f : ObjectFile) (tags : TagList) : Except LoadError Dynamic := do
  let plt ← pltTable? f tags
  let strings ← table? f tags Tag.strings Tag.stringsSize
  let rel ← table? f tags Tag.rel Tag.relSize
  let rela ← table? f tags Tag.rela Tag.relaSize
  let preinitArray ← table? f tags Tag.preinitArray Tag.preinitArraySize
  let initArray ← table? f tags Tag.initArray Tag.initArraySize
  let finiArray ← table? f tags Tag.finiArray Tag.finiArraySize
  let counted (address count : UInt32) : Option (UInt32 × UInt32) :=
    (tags.lookup address).map fun a => (a, (tags.lookup count).getD 0)
  checkEntrySize f "DT_RELENT" (tags.lookup Tag.relEntry) RelocationForm.implicit.entrySize
  checkEntrySize f "DT_RELAENT" (tags.lookup Tag.relaEntry) RelocationForm.explicit.entrySize
  checkEntrySize f "DT_SYMENT" (tags.lookup Tag.symbolEntry) symbolEntrySize
  return {
    needed := (tags.filter fun t => t.1 == Tag.needed).map (·.2)
    soname := tags.lookup Tag.soname
    strings, rel, rela, plt, preinitArray, initArray, finiArray
    symbols := tags.lookup Tag.symbols
    symbolSize := tags.lookup Tag.symbolEntry
    hash := tags.lookup Tag.hash
    versions := tags.lookup Tag.versions
    definitions := counted Tag.definitions Tag.definitionCount
    needs := counted Tag.needs Tag.needCount
    initCode := tags.lookup Tag.initCode
    finiCode := tags.lookup Tag.finiCode }

/-- Reads at most `count` tags, up to the end mark. -/
def readTags (f : ObjectFile) : (count offset : Nat) → Except LoadError TagList
  | 0, _ => .ok []
  | count + 1, offset => do
    let tag ← f.word offset
    let value ← f.word (offset + 4)
    if tag = Tag.null then return []
    else return (tag, value) :: (← readTags f count (offset + 8))

/-- Reads the dynamic section that takes `size` bytes at an offset. A tag that does not
fit into the size is not read. -/
def read (f : ObjectFile) (offset size : Nat) : Except LoadError Dynamic := do
  ofTags f (← readTags f (size / 8) offset)

/-! ### The relocation tables -/

/-- The address behind a table, past the top of the space if need be. -/
def tableEnd (t : TableRef) : Nat := t.address.toNat + t.size.toNat

/-- A table of a form without the procedure linkage entries at its end. -/
def withoutPlt (d : Dynamic) (form : RelocationForm) (t : TableRef) : TableRef :=
  match d.plt with
  | none => t
  | some p =>
    if p.form = form ∧ t.address ≤ p.table.address ∧ tableEnd t = tableEnd p.table then
      { t with size := t.size - p.table.size }
    else t

/-- A table of a form, ready to be applied: none if it is empty. -/
def trimmed (d : Dynamic) (form : RelocationForm) (table? : Option TableRef) :
    List RelocationRef :=
  match table? with
  | none => []
  | some t =>
    let t := d.withoutPlt form t
    if t.size = 0 then [] else [⟨t, form⟩]

/-- **The relocation tables in the order in which they are applied.** -/
def relocations (d : Dynamic) : List RelocationRef :=
  d.trimmed .implicit d.rel ++ d.trimmed .explicit d.rela ++ d.plt.toList

end Dynamic

end ElfLoader
