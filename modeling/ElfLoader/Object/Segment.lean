import ElfLoader.Object.Header
import ElfLoader.Object.Span

/-!
# Segments

A program header describes a segment, a part of the file that the loader has a use
for. `ElfLoader.ProgramHeader.readAll` reads the table of them. The segments to be
loaded become `ElfLoader.LoadSegment`s, whose bytes are checked to be there
(`ElfLoader.ProgramHeader.toLoad`), so that copying them into memory later cannot
stop half way.
-/

namespace ElfLoader

/-! ### Program headers -/

/-- What a segment is for. -/
inductive SegmentType where
  /-- Nothing; also what a type without a meaning is taken for. -/
  | null
  /-- Bytes to be placed in memory. -/
  | load
  /-- The dynamic section. -/
  | dynamic
  /-- The path of a loader that the program asks for. -/
  | interpreter
  /-- Remarks of the tools that made the file. -/
  | note
  /-- Reserved without a meaning. -/
  | shlib
  /-- The program header table itself. -/
  | headers
  /-- The initial values of thread local storage. -/
  | threadLocal
  /-- Something for a certain system or processor. -/
  | other
  deriving DecidableEq, Repr, Inhabited

namespace SegmentType

/-- The types from here on belong to systems and processors. -/
def firstOther : UInt32 := 0x60000000

/-- The type that a word stands for, if it has a meaning. -/
def ofWord? (w : UInt32) : Option SegmentType :=
  if w = 0 then some null
  else if w = 1 then some load
  else if w = 2 then some dynamic
  else if w = 3 then some interpreter
  else if w = 4 then some note
  else if w = 5 then some shlib
  else if w = 6 then some headers
  else if w = 7 then some threadLocal
  else if firstOther ≤ w then some other
  else none

/-- The type that a word stands for. A word without a meaning gets a notice. -/
def read (w : UInt32) : Report SegmentType :=
  match ofWord? w with
  | some t => pure t
  | none => do
    Report.note (.unknownSegmentType w)
    return null

end SegmentType

/-- The description of a segment. -/
structure ProgramHeader where
  /-- What the segment is for. -/
  type : SegmentType
  /-- Where its bytes start in the file. -/
  offset : UInt32
  /-- The link time address of its first byte. -/
  address : UInt32
  /-- How many bytes it has in the file. -/
  fileSize : UInt32
  /-- How many bytes it has in memory. -/
  memorySize : UInt32
  /-- What may be done with it. -/
  flags : UInt32
  /-- The alignment it was linked for. -/
  align : UInt32
  deriving DecidableEq, Repr, Inhabited

namespace ProgramHeader

/-- Reads the program header at an offset. -/
def read (f : ObjectFile) (offset : Nat) : Report ProgramHeader := do
  let type ← SegmentType.read (← f.word offset)
  let fileOffset ← f.word (offset + 4)
  let address ← f.word (offset + 8)
  let _physical ← f.word (offset + 12)
  let fileSize ← f.word (offset + 16)
  let memorySize ← f.word (offset + 20)
  let flags ← f.word (offset + 24)
  let align ← f.word (offset + 28)
  return ⟨type, fileOffset, address, fileSize, memorySize, flags, align⟩

/-- Reads `count` program headers, one every `step` bytes. -/
def readFrom (f : ObjectFile) (step : Nat) : (count offset : Nat) → Report (List ProgramHeader)
  | 0, _ => pure []
  | count + 1, offset => do
    let h ← read f offset
    return h :: (← readFrom f step count (offset + step))

/-- Reads all program headers of a file. None may be missing: the segment that it
describes may be needed. -/
def readAll (f : ObjectFile) (h : Header) : Report (List ProgramHeader) :=
  readFrom f h.programEntrySize.toNat h.programCount.toNat h.programOffset.toNat

/-- What may be done with a segment, as three letters: executed, written, read. -/
def flagsText (flags : UInt32) : String :=
  String.ofList
    [if flags &&& 1 = 0 then '-' else 'x',
     if flags &&& 2 = 0 then '-' else 'w',
     if flags &&& 4 = 0 then '-' else 'r']

end ProgramHeader

/-! ### Segments to be loaded -/

/-- A segment that goes into memory. -/
structure LoadSegment where
  /-- The bytes in the file. -/
  file : Span
  /-- The bytes in memory, at their link time addresses. Those past the ones that come
  from the file are zero. -/
  memory : Span
  /-- What may be done with it. -/
  flags : UInt32
  deriving DecidableEq, Repr, Inhabited

namespace LoadSegment

/-- The offset in the file of the byte at a link time address, if the byte comes from
the file. -/
def offsetOf? (s : LoadSegment) (address : UInt32) : Option UInt32 :=
  if s.memory.contains address ∧ address - s.memory.start < s.file.size then
    some (s.file.start + (address - s.memory.start))
  else none

/-- What may be done with the segment, as three letters. -/
def flagsText (s : LoadSegment) : String := ProgramHeader.flagsText s.flags

end LoadSegment

/-- The segment to be loaded that a header describes, if it makes sense and its bytes
are in the file. -/
def ProgramHeader.toLoad (f : ObjectFile) (h : ProgramHeader) :
    Except LoadError LoadSegment := do
  ensure (h.fileSize ≤ h.memorySize) (f.flawed (.fileLargerThanMemory h.address))
  ensure (h.address.toNat + h.memorySize.toNat < 4294967296)
    (f.flawed (.segmentWraps h.address))
  let _ ← f.slice h.offset.toNat h.fileSize.toNat
  return ⟨⟨h.offset, h.fileSize⟩, ⟨h.address, h.memorySize⟩, h.flags⟩

end ElfLoader
