import ElfLoader.Object.File

/-!
# Relocation tables

A relocation asks for a word of an object to be patched. Tables of them come in two
forms (`ElfLoader.RelocationForm`): in the *explicit* form an entry carries the
number to be added, in the *implicit* form that number is the word that is patched.

`ElfLoader.RelocationTable.bind` takes a table's bytes out of the content of a file,
once and for all; the entries are then decoded where they stand, without further
checks (`ElfLoader.RelocationTable.entries`).
-/

namespace ElfLoader

/-- The two forms of a relocation entry. -/
inductive RelocationForm where
  /-- The addend is the word at the patched address. -/
  | implicit
  /-- The addend is part of the entry. -/
  | explicit
  deriving DecidableEq, Repr, Inhabited

/-- How many bytes an entry takes. -/
def RelocationForm.entrySize : RelocationForm → Nat
  | implicit => 8
  | explicit => 12

/-- One relocation. -/
structure RelocationEntry where
  /-- The patched address, relative to the object. -/
  offset : UInt32
  /-- The symbol and the type together. -/
  info : UInt32
  /-- The addend in two's complement; none in the implicit form. -/
  addend : Option UInt32
  deriving DecidableEq, Repr, Inhabited

namespace RelocationEntry

/-- The position of the symbol. -/
def symbolIndex (e : RelocationEntry) : Nat := e.info.toNat / 256

/-- The type. -/
def type (e : RelocationEntry) : UInt32 := e.info &&& 0xff

end RelocationEntry

/-- The relocations of an object that stand together. -/
structure RelocationTable where
  /-- The bytes of the table. -/
  bytes : ByteArray
  /-- The form of its entries. -/
  form : RelocationForm
  /-- Their byte order. -/
  order : ByteOrder
  /-- How many there are. -/
  count : Nat

namespace RelocationTable

/-- The table of `size` bytes at an offset of a content. Bytes behind the last whole
entry get a notice; the path is for messages only. -/
def bind (path : String) (content : ByteArray) (offset size : Nat) (form : RelocationForm)
    (order : ByteOrder) : Report RelocationTable :=
  if offset + size ≤ content.size then
    ⟨.ok ⟨content.extract offset (offset + size), form, order, size / form.entrySize⟩,
      if size % form.entrySize = 0 then []
      else [.trailingBytes path (size % form.entrySize) offset]⟩
  else .fail (.corrupt path (.relocationsPastEnd offset size))

variable (t : RelocationTable)

/-- A byte of the table. -/
def byteAt (i : Nat) : UInt8 := t.bytes[i]?.getD 0

/-- A word of the entry at a position, `field` bytes into it. -/
def word (position field : Nat) : UInt32 :=
  let i := position * t.form.entrySize + field
  t.order.word (t.byteAt i) (t.byteAt (i + 1)) (t.byteAt (i + 2)) (t.byteAt (i + 3))

/-- The addend of an entry; zero in the implicit form. -/
def addend (position : Nat) : UInt32 :=
  match t.form with
  | .implicit => 0
  | .explicit => t.word position 8

/-- The entry at a position. -/
def entry (position : Nat) : RelocationEntry where
  offset := t.word position 0
  info := t.word position 4
  addend := match t.form with
    | .implicit => none
    | .explicit => some (t.addend position)

/-- The entries in order. -/
def entries : List RelocationEntry := (List.range t.count).map t.entry

end RelocationTable

end ElfLoader
