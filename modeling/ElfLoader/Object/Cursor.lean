import ElfLoader.Object.File

/-!
# Reading one value after the other

A `ElfLoader.Cursor` is a place in an object file. Each reading moves it behind the
value that was read; a reading that fails gives no new cursor, so the old one still
stands where it stood.
-/

namespace ElfLoader

/-- A place in an object file. -/
structure Cursor where
  /-- The file. -/
  file : ObjectFile
  /-- The place. -/
  offset : Nat

namespace Cursor

variable (c : Cursor)

/-- The cursor a number of bytes further on. -/
def advance (n : Nat) : Cursor := { c with offset := c.offset + n }

/-- The byte at the cursor. -/
def byte : Except LoadError (UInt8 × Cursor) := do
  return (← c.file.byte c.offset, c.advance 1)

/-- The half at the cursor. -/
def half : Except LoadError (UInt16 × Cursor) := do
  return (← c.file.half c.offset, c.advance 2)

/-- The word at the cursor. -/
def word : Except LoadError (UInt32 × Cursor) := do
  return (← c.file.word c.offset, c.advance 4)

end Cursor

end ElfLoader
