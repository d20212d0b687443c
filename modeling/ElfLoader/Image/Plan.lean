import ElfLoader.Object.Header
import ElfLoader.Object.Relocation
import ElfLoader.Object.Symbol
import ElfLoader.Object.Version

/-!
# Plans of object files

An `ElfLoader.ImagePlan` says what shall be in an object file, in the terms of
somebody who writes one: libraries, symbols, versions, relocations, functions to run.
It is made by starting with `ElfLoader.ImagePlan.shared` or
`ElfLoader.ImagePlan.executable` and adding to it; the file itself is
`ElfLoader.ImagePlan.bytes`, in `ElfLoader.Image.Layout`.

Whatever adds a dynamic symbol also gives the position of the symbol in its table, so
that relocations can refer to it.
-/

namespace ElfLoader

/-- The version of a planned symbol. -/
inductive PlannedVersion where
  /-- It has none. -/
  | unversioned
  /-- The object defines the symbol in this version. -/
  | defined (name : String) (hidden : Bool)
  /-- The object wants the symbol in this version, from this file. -/
  | needed (file name : String)
  deriving DecidableEq, Repr, Inhabited

/-- A symbol in a plan. It stands for a function. -/
structure PlannedSymbol where
  /-- Its name. -/
  name : String
  /-- Its address. -/
  value : UInt32
  /-- How many bytes it takes. -/
  size : UInt32
  /-- How it binds. -/
  binding : Binding
  /-- Whether the object defines it. -/
  isDefined : Bool
  /-- Its version. -/
  version : PlannedVersion
  /-- Whether it is a dynamic symbol, and not only one of the full symbol table. -/
  isDynamic : Bool
  deriving DecidableEq, Repr, Inhabited

/-- What shall be in an object file. -/
structure ImagePlan where
  /-- Executable or shared object. -/
  type : UInt16
  /-- The processor. -/
  machine : UInt16
  /-- Its byte order. -/
  order : ByteOrder
  /-- The link time address of the first byte of the file. -/
  address : UInt32
  /-- Where the program starts to run. -/
  entry : UInt32
  /-- How many bytes lie before the tables. -/
  imageSize : UInt32
  /-- How many zero bytes follow the file in memory. -/
  zeros : UInt32
  /-- Whether there is a dynamic section. -/
  isDynamic : Bool
  /-- Whether there is a hash table; without one, the section headers count the symbols. -/
  hasHash : Bool
  /-- Whether there is a full symbol table. -/
  hasSymbolTable : Bool
  /-- Whether the explicit relocations run on over those of the procedure linkage. -/
  relaCoversPlt : Bool
  /-- The name that the object gives itself. -/
  soname : Option String
  /-- The function to run at the start. -/
  initCode : Option UInt32
  /-- The function to run at the end. -/
  finiCode : Option UInt32
  /-- The needed libraries. -/
  needed : List String
  /-- The symbols. -/
  symbols : List PlannedSymbol
  /-- The implicit relocations. -/
  rel : List RelocationEntry
  /-- The explicit relocations. -/
  rela : List RelocationEntry
  /-- The relocations of the procedure linkage, in the explicit form. -/
  plt : List RelocationEntry
  /-- The names of the versions defined here. -/
  definitions : List String
  /-- The versions needed from other files. -/
  needs : List VersionNeed
  /-- Functions to run before anything else. -/
  preinitArray : List UInt32
  /-- Functions to run at the start. -/
  initArray : List UInt32
  /-- Functions to run at the end. -/
  finiArray : List UInt32
  /-- Bytes at link time addresses; of two for the same place the later count. -/
  patches : List (UInt32 × List UInt8)
  deriving Inhabited

namespace ImagePlan

/-! ### Where a plan starts -/

/-- The plan of a file in which nothing is. -/
def bare (type : UInt16) (address : UInt32) : ImagePlan where
  type := type
  address := address
  machine := Machine.arm
  order := .little
  entry := address + 0x100
  imageSize := 0x1000
  zeros := 0
  isDynamic := true
  hasHash := true
  hasSymbolTable := false
  relaCoversPlt := false
  soname := none
  initCode := none
  finiCode := none
  needed := []
  symbols := []
  rel := []
  rela := []
  plt := []
  definitions := []
  needs := []
  preinitArray := []
  initArray := []
  finiArray := []
  patches := []

/-- The plan of a shared object linked at zero. -/
def shared (soname : String) : ImagePlan :=
  { bare ObjectFile.sharedType 0 with soname := some soname }

/-- The plan of an executable linked at an address. -/
def executable (address : UInt32) : ImagePlan := bare ObjectFile.executableType address

/-! ### Symbols -/

variable (p : ImagePlan)

/-- The symbols that relocations can refer to. -/
def dynamicSymbols : List PlannedSymbol := p.symbols.filter (·.isDynamic)

/-- Adds a symbol. Gives the position of the last dynamic symbol; position zero is that of
no symbol. -/
def addSymbol (s : PlannedSymbol) : ImagePlan × Nat :=
  let p := { p with symbols := p.symbols ++ [s] }
  (p, p.dynamicSymbols.length)

/-- Adds a symbol that the object defines. -/
def define (binding : Binding) (name : String) (value size : UInt32) : ImagePlan × Nat :=
  p.addSymbol ⟨name, value, size, binding, true, .unversioned, true⟩

/-- Adds a symbol that only the full symbol table has. -/
def defineStatic (name : String) (value size : UInt32) : ImagePlan :=
  (p.addSymbol ⟨name, value, size, .global, true, .unversioned, false⟩).1

/-- Adds a version to those defined here. -/
def addDefinition (version : String) : ImagePlan :=
  if version ∈ p.definitions then p
  else { p with definitions := p.definitions ++ [version] }

/-- The size of a symbol that is defined in a version. -/
def versionedSize : UInt32 := 4

/-- Adds a symbol that the object defines in a version. -/
def defineVersion (name : String) (value : UInt32) (version : String) (hidden : Bool) :
    ImagePlan × Nat :=
  (p.addDefinition version).addSymbol
    ⟨name, value, versionedSize, .global, true, .defined version hidden, true⟩

/-- Adds a symbol that the object takes from elsewhere. -/
def importSymbol (binding : Binding) (name : String) : ImagePlan × Nat :=
  p.addSymbol ⟨name, 0, 0, binding, false, .unversioned, true⟩

/-- Adds a version to those needed from other files. -/
def needVersion (file version : String) (weak : Bool) : ImagePlan :=
  if p.needs.any fun n => n.file == file && n.name == version then p
  else { p with needs := p.needs ++ [⟨file, version, weak⟩] }

/-- Adds a symbol that the object takes from elsewhere in a version. -/
def importVersion (name file version : String) : ImagePlan × Nat :=
  (p.needVersion file version false).addSymbol
    ⟨name, 0, 0, .global, false, .needed file version, true⟩

/-! ### All else -/

/-- Adds a needed library. -/
def addNeeded (name : String) : ImagePlan := { p with needed := p.needed ++ [name] }

/-- The symbol and the type of a relocation together. What does not fit is lost. -/
def relocationInfo (symbol : Nat) (type : UInt32) : UInt32 :=
  UInt32.ofNat (symbol * 256) ||| type

/-- Adds an implicit relocation. -/
def addRel (offset : UInt32) (symbol : Nat) (type : UInt32) : ImagePlan :=
  { p with rel := p.rel ++ [⟨offset, relocationInfo symbol type, none⟩] }

/-- Adds an explicit relocation. -/
def addRela (offset : UInt32) (symbol : Nat) (type addend : UInt32) : ImagePlan :=
  { p with rela := p.rela ++ [⟨offset, relocationInfo symbol type, some addend⟩] }

/-- Adds a relocation of the procedure linkage. -/
def addPlt (offset : UInt32) (symbol : Nat) (type : UInt32) : ImagePlan :=
  { p with plt := p.plt ++ [⟨offset, relocationInfo symbol type, some 0⟩] }

/-- Puts bytes at a link time address. -/
def putBytes (address : UInt32) (bytes : List UInt8) : ImagePlan :=
  { p with patches := p.patches ++ [(address, bytes)] }

/-- Puts a word at a link time address. -/
def putWord (address value : UInt32) : ImagePlan :=
  p.putBytes address (p.order.wordBytes value)

end ImagePlan

end ElfLoader
