import ElfLoader.Object.Header
import ElfLoader.Object.Span

/-!
# Sections

Section headers serve linkers and debuggers. The loader looks at them only where
nothing else helps: to count the dynamic symbols, and to find the full symbol
table. A program runs without them, so a table that cannot be read counts as no
sections at all (`ElfLoader.SectionHeader.readAll`).
-/

namespace ElfLoader

/-- What a section holds. -/
inductive SectionType where
  | null
  | progbits
  | symbolTable
  | stringTable
  | dynamic
  | nobits
  | dynamicSymbolTable
  /-- Anything else, by its number. -/
  | other (value : UInt32)
  deriving DecidableEq, Repr, Inhabited

/-- The type that a word stands for. -/
def SectionType.ofWord (w : UInt32) : SectionType :=
  if w = 0 then null
  else if w = 1 then progbits
  else if w = 2 then symbolTable
  else if w = 3 then stringTable
  else if w = 6 then dynamic
  else if w = 8 then nobits
  else if w = 11 then dynamicSymbolTable
  else other w

/-- The description of a section. -/
structure SectionHeader where
  /-- Where its name is among the section names. -/
  name : UInt32
  /-- What it holds. -/
  type : SectionType
  /-- Flags. -/
  flags : UInt32
  /-- Its bytes in the file. -/
  file : Span
  /-- Its bytes in memory. -/
  memory : Span
  /-- A section that goes with it, a string table as a rule. -/
  link : UInt32
  /-- Further information. -/
  info : UInt32
  /-- The size of its entries, if it is a table. -/
  entrySize : UInt32
  deriving DecidableEq, Repr, Inhabited

namespace SectionHeader

/-- Reads the section header at an offset. -/
def read (f : ObjectFile) (offset : Nat) : Except LoadError SectionHeader := do
  let name ← f.word offset
  let type ← f.word (offset + 4)
  let flags ← f.word (offset + 8)
  let address ← f.word (offset + 12)
  let fileOffset ← f.word (offset + 16)
  let size ← f.word (offset + 20)
  let link ← f.word (offset + 24)
  let info ← f.word (offset + 28)
  let _align ← f.word (offset + 32)
  let entrySize ← f.word (offset + 36)
  return ⟨name, .ofWord type, flags, ⟨fileOffset, size⟩, ⟨address, size⟩, link, info, entrySize⟩

/-- Reads `count` section headers, one every `step` bytes. -/
def readFrom (f : ObjectFile) (step : Nat) :
    (count offset : Nat) → Except LoadError (List SectionHeader)
  | 0, _ => .ok []
  | count + 1, offset => do
    let h ← read f offset
    return h :: (← readFrom f step count (offset + step))

/-- All section headers of a file; none, with a notice, if they cannot all be read. -/
def readAll (f : ObjectFile) (h : Header) : Report (List SectionHeader) :=
  match readFrom f h.sectionEntrySize.toNat h.sectionCount.toNat h.sectionOffset.toNat with
  | .ok sections => pure sections
  | .error e => do
    Report.note (.sectionsIgnored e)
    return []

end SectionHeader

end ElfLoader
