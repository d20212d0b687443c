import ElfLoader.Object.File
import Std.Data.TreeMap

/-!
# Symbol versions

A library may define its symbols in versions, and an object may ask for certain
versions of the libraries it needs. Three tables say so. One gives each dynamic
symbol a *version index*; the other two say what the indexes mean, as versions
*defined* here and as versions *needed* from other files.

* `ElfLoader.VersionTable.requested?` – the version that a reference asks for;
* `ElfLoader.VersionTable.defined?` – the version that a definition belongs to;
* `ElfLoader.VersionTable.readDefinitions`, `ElfLoader.VersionTable.readNeeds` – the
  two tables of meanings, each a chain of records in the file.

A chain ends with the declared number of records or with a record without a
successor, whichever comes first. A successor lies behind its record, so a chain
never comes back to a record.
-/

namespace ElfLoader

/-- A version that an object defines. -/
structure VersionDefinition where
  /-- The name of the version. -/
  name : String
  /-- Whether this is the object's own name and not a version. -/
  isBase : Bool
  deriving DecidableEq, Repr, Inhabited

/-- A version that an object needs. -/
structure VersionNeed where
  /-- The file that should define it. -/
  file : String
  /-- The name of the version. -/
  name : String
  /-- Whether it may be missing. -/
  weak : Bool
  deriving DecidableEq, Repr, Inhabited

/-- Definitions by version index. -/
abbrev VersionDefinitions := Std.TreeMap UInt16 VersionDefinition

/-- Needs by version index. -/
abbrev VersionNeeds := Std.TreeMap UInt16 VersionNeed

/-- The versions of an object. -/
structure VersionTable where
  /-- The version index of each dynamic symbol; empty if nothing is versioned. -/
  symbols : Array UInt16
  /-- The versions defined here. -/
  definitions : VersionDefinitions
  /-- The versions needed from other files. -/
  needs : VersionNeeds

namespace VersionTable

/-- The table of an object without versions. -/
def empty : VersionTable := ⟨#[], ∅, ∅⟩

instance : Inhabited VersionTable := ⟨empty⟩

/-! ### What a version index says -/

/-- The bit that hides a definition from references that ask for no version. -/
def hiddenBit : UInt16 := 0x8000

/-- The index without the bit that hides. -/
def plain (raw : UInt16) : UInt16 := raw &&& 0x7fff

/-- Whether an index has the bit that hides. -/
def isHidden (raw : UInt16) : Bool := raw &&& hiddenBit != 0

variable (t : VersionTable)

/-- The version of a definition index, unless it is the object's own name. -/
def definitionName? (index : UInt16) : Option String :=
  match t.definitions[index]? with
  | some d => if d.isBase then none else some d.name
  | none => none

/-- The version that a reference to the symbol at a position asks for. A reference to
one of the object's own versions asks for just that one. -/
def requested? (position : Nat) : Option String :=
  match t.symbols[position]? with
  | none => none
  | some raw =>
    match t.needs[plain raw]? with
    | some need => some need.name
    | none => t.definitionName? (plain raw)

/-- The version that the definition at a position belongs to, and whether it is
hidden. -/
def defined? (position : Nat) : Option (String × Bool) :=
  match t.symbols[position]? with
  | none => none
  | some raw => (t.definitionName? (plain raw)).map fun name => (name, isHidden raw)

/-- Whether the object defines no versions at all. -/
def isUnversioned : Bool := t.definitions.isEmpty

/-- Whether the object defines a version of the name. -/
def defines (version : String) : Bool :=
  t.definitions.toList.any fun d => !d.2.isBase && d.2.name == version

/-! ### Reading the tables -/

/-- The only layout of records that is known. -/
def layout : UInt16 := 1

/-- The flag of the record with the object's own name. -/
def baseFlag : UInt16 := 1

/-- The flag of a need that may stay unmet. -/
def weakFlag : UInt16 := 2

/-- Reads `count` halves. -/
def readHalves (f : ObjectFile) : (count offset : Nat) → Except LoadError (List UInt16)
  | 0, _ => .ok []
  | count + 1, offset => do
    let h ← f.half offset
    return h :: (← readHalves f count (offset + 2))

/-- Reads the version indexes of `count` symbols. That they lie within the file is
checked first. -/
def readSymbols (f : ObjectFile) (offset count : Nat) : Except LoadError (Array UInt16) := do
  let _ ← f.slice offset (count * 2)
  return (← readHalves f count offset).toArray

/-- A record of the table of definitions. -/
structure DefinitionRecord where
  flags : UInt16
  index : UInt16
  names : UInt16
  namesOffset : UInt32
  next : UInt32

/-- Reads the record of a definition. -/
def DefinitionRecord.read (f : ObjectFile) (offset : Nat) :
    Except LoadError DefinitionRecord := do
  let version ← f.half offset
  let flags ← f.half (offset + 2)
  let index ← f.half (offset + 4)
  let names ← f.half (offset + 6)
  let _hash ← f.word (offset + 8)
  let namesOffset ← f.word (offset + 12)
  let next ← f.word (offset + 16)
  ensure (version = layout) (f.flawed (.verdefLayout version))
  return ⟨flags, index, names, namesOffset, next⟩

/-- Reads a chain of at most `count` definitions; the names are at the offset `strings`.
The first name of a record is the version's own, further ones name its parents. -/
def readDefinitions (f : ObjectFile) (strings : Nat) :
    (count offset : Nat) → VersionDefinitions → Except LoadError VersionDefinitions
  | 0, _, known => .ok known
  | count + 1, offset, known => do
    let r ← DefinitionRecord.read f offset
    let known ←
      if r.names = 0 then pure known
      else do
        let nameOffset ← f.word (offset + r.namesOffset.toNat)
        let name ← f.string (strings + nameOffset.toNat)
        pure (known.insert r.index ⟨name, r.flags &&& baseFlag != 0⟩)
    if r.next = 0 then return known
    else readDefinitions f strings count (offset + r.next.toNat) known

/-- Reads a chain of at most `count` versions that are needed from one file. -/
def readNeedsOf (f : ObjectFile) (strings : Nat) (file : String) :
    (count offset : Nat) → VersionNeeds → Except LoadError VersionNeeds
  | 0, _, known => .ok known
  | count + 1, offset, known => do
    let _hash ← f.word offset
    let flags ← f.half (offset + 4)
    let index ← f.half (offset + 6)
    let nameOffset ← f.word (offset + 8)
    let next ← f.word (offset + 12)
    let name ← f.string (strings + nameOffset.toNat)
    let known := known.insert index ⟨file, name, flags &&& weakFlag != 0⟩
    if next = 0 then return known
    else readNeedsOf f strings file count (offset + next.toNat) known

/-- Reads a chain of at most `count` files with the versions needed from each. -/
def readNeeds (f : ObjectFile) (strings : Nat) :
    (count offset : Nat) → VersionNeeds → Except LoadError VersionNeeds
  | 0, _, known => .ok known
  | count + 1, offset, known => do
    let version ← f.half offset
    let versions ← f.half (offset + 2)
    let fileOffset ← f.word (offset + 4)
    let first ← f.word (offset + 8)
    let next ← f.word (offset + 12)
    ensure (version = layout) (f.flawed (.verneedLayout version))
    let file ← f.string (strings + fileOffset.toNat)
    let known ← readNeedsOf f strings file versions.toNat (offset + first.toNat) known
    if next = 0 then return known
    else readNeeds f strings count (offset + next.toNat) known

end VersionTable

end ElfLoader
