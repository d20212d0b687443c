import ElfLoader.Object.File

/-!
# The header of an object file

The header says what kind of object a file holds, for which processor, where it
starts to run, and where the two tables of headers are. `ElfLoader.Header.read`
reads it and refuses tables whose entries are too small to hold what they must;
larger entries are fine, their further bytes are skipped.
-/

namespace ElfLoader

/-! ### Processors

A header names a processor by a number. These are the ones that programs can be
relocated for. -/

namespace Machine

/-- The number of a SPARC. -/
def sparc : UInt16 := 2

/-- The number of an Intel 80386. -/
def i386 : UInt16 := 3

/-- The number of a MIPS. -/
def mips : UInt16 := 8

/-- The number of a PowerPC. -/
def powerpc : UInt16 := 20

/-- The number of an ARM. -/
def arm : UInt16 := 40

/-- The name of a processor. -/
def name (machine : UInt16) : String :=
  if machine = sparc then "SPARC"
  else if machine = i386 then "Intel 80386"
  else if machine = mips then "MIPS"
  else if machine = powerpc then "PowerPC"
  else if machine = arm then "ARM"
  else "unknown"

end Machine

/-! ### The header -/

/-- The header of an object file, less the identification. -/
structure Header where
  /-- Executable or shared object. -/
  type : UInt16
  /-- The processor. -/
  machine : UInt16
  /-- The version of the format. -/
  version : UInt32
  /-- Where the program starts to run. -/
  entry : UInt32
  /-- Where the program headers are in the file. -/
  programOffset : UInt32
  /-- Where the section headers are in the file. -/
  sectionOffset : UInt32
  /-- Flags of the processor. -/
  flags : UInt32
  /-- The size of the header itself. -/
  headerSize : UInt16
  /-- The size of a program header. -/
  programEntrySize : UInt16
  /-- The number of program headers. -/
  programCount : UInt16
  /-- The size of a section header. -/
  sectionEntrySize : UInt16
  /-- The number of section headers. -/
  sectionCount : UInt16
  /-- The section with the names of the sections. -/
  nameSection : UInt16
  deriving DecidableEq, Repr, Inhabited

namespace Header

/-- A program header takes this many bytes. -/
def programHeaderSize : UInt16 := 32

/-- A section header takes this many bytes. -/
def sectionHeaderSize : UInt16 := 40

/-- Reads the header of a file. -/
def read (f : ObjectFile) : Except LoadError Header := do
  let type ← f.half 16
  let machine ← f.half 18
  let version ← f.word 20
  let entry ← f.word 24
  let programOffset ← f.word 28
  let sectionOffset ← f.word 32
  let flags ← f.word 36
  let headerSize ← f.half 40
  let programEntrySize ← f.half 42
  let programCount ← f.half 44
  let sectionEntrySize ← f.half 46
  let sectionCount ← f.half 48
  let nameSection ← f.half 50
  ensure (programCount = 0 ∨ programHeaderSize ≤ programEntrySize)
    (f.flawed (.programEntrySize programEntrySize))
  ensure (sectionCount = 0 ∨ sectionHeaderSize ≤ sectionEntrySize)
    (f.flawed (.sectionEntrySize sectionEntrySize))
  return ⟨type, machine, version, entry, programOffset, sectionOffset, flags, headerSize,
    programEntrySize, programCount, sectionEntrySize, sectionCount, nameSection⟩

/-- Whether the object can be placed anywhere in memory. -/
def isShared (h : Header) : Bool := h.type == ObjectFile.sharedType

/-- The kind of the object in words. -/
def kind (h : Header) : String :=
  if h.type = ObjectFile.executableType then "executable"
  else if h.type = ObjectFile.sharedType then "shared object"
  else "unknown"

/-- The name of the processor that the object is for. -/
def machineName (h : Header) : String := Machine.name h.machine

end Header

end ElfLoader
