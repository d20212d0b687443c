import ElfLoader.Image.Plan

/-!
# The records of an object file, as bytes

Each kind of record that a planned file has, in the byte order of its processor. The
strings of a file are an `ElfLoader.StringTable`: records refer to a string by its
offset (`ElfLoader.StringTable.offset`).
-/

namespace ElfLoader

/-! ### Strings -/

/-- Strings that stand one after the other, each with a zero byte behind it. A zero byte
before them all stands for the empty string. -/
structure StringTable where
  /-- The strings, in order. -/
  texts : List String
  deriving Repr, Inhabited

namespace StringTable

/-- The bytes of a string in the table. -/
def textBytes (text : String) : List UInt8 := text.toUTF8.data.toList ++ [0]

/-- The bytes of the table. A table without strings has none. -/
def bytes (t : StringTable) : List UInt8 :=
  if t.texts.isEmpty then [] else 0 :: t.texts.flatMap textBytes

/-- Where the string at a position starts. -/
def offset (t : StringTable) (position : Nat) : UInt32 :=
  UInt32.ofNat (1 + ((t.texts.take position).flatMap textBytes).length)

end StringTable

namespace ByteOrder

variable (order : ByteOrder)

/-- The bytes of several halves. -/
def halves (values : List UInt16) : List UInt8 := values.flatMap order.halfBytes

/-- The bytes of several words. -/
def words (values : List UInt32) : List UInt8 := values.flatMap order.wordBytes

@[simp] theorem length_halves (values : List UInt16) :
    (order.halves values).length = 2 * values.length := by
  simp [halves, List.length_flatMap, List.map_const', Nat.mul_comm]

@[simp] theorem length_words (values : List UInt32) :
    (order.words values).length = 4 * values.length := by
  simp [words, List.length_flatMap, List.map_const', Nat.mul_comm]

/-! ### Headers -/

/-- The byte that names the order in a file. -/
def code : ByteOrder → UInt8
  | little => 1
  | big => 2

/-- The first bytes of a file. -/
def identification : List UInt8 :=
  [0x7f, 0x45, 0x4c, 0x46, 1, order.code, 1, 0, 0, 0, 0, 0, 0, 0, 0, 0]

/-- The header of a file, behind its identification. -/
def headerBytes (h : Header) : List UInt8 :=
  order.halves [h.type, h.machine] ++
  order.words [h.version, h.entry, h.programOffset, h.sectionOffset, h.flags] ++
  order.halves [h.headerSize, h.programEntrySize, h.programCount, h.sectionEntrySize,
    h.sectionCount, h.nameSection]

/-! ### Symbols and relocations -/

/-- The record of no symbol. -/
def noSymbol : List UInt8 := List.replicate 16 0

end ByteOrder

/-- The number of a binding. -/
def Binding.code : Binding → UInt8
  | local_ => 0
  | global => 1
  | weak => 2
  | reserved => 3

namespace PlannedSymbol

/-- The number of the type of a symbol that stands for a function. -/
def functionType : UInt8 := 2

/-- The section that a symbol is said to be in. -/
def place (s : PlannedSymbol) : UInt16 := if s.isDefined then 1 else 0

/-- The record of a symbol whose name is at an offset among the strings. -/
def bytes (order : ByteOrder) (s : PlannedSymbol) (name : UInt32) : List UInt8 :=
  order.words [name, s.value, s.size] ++ [s.binding.code * 16 + functionType, 0] ++
    order.halfBytes s.place

end PlannedSymbol

/-- The record of a relocation. -/
def RelocationEntry.bytes (order : ByteOrder) (e : RelocationEntry) : List UInt8 :=
  order.words ([e.offset, e.info] ++ e.addend.toList)

/-! ### Versions -/

namespace VersionTable

/-- The distance from a record to its successor: zero if there is none. -/
def link (isLast : Bool) (step : UInt32) : UInt32 := if isLast then 0 else step

/-- The record of the version at a position among those defined, the object's own name
being the first. It has just one name, which is at an offset among the strings. -/
def definitionBytes (order : ByteOrder) (position : Nat) (isLast : Bool) (name : UInt32) :
    List UInt8 :=
  order.halves [layout, if position = 0 then baseFlag else 0, UInt16.ofNat (position + 1), 1] ++
  order.words [0, 20, link isLast 28, name, 0]

/-- The record of a file that versions are needed from. -/
def fileBytes (order : ByteOrder) (count : Nat) (isLast : Bool) (file : UInt32) : List UInt8 :=
  order.halves [layout, UInt16.ofNat count] ++
  order.words [file, 16, link isLast (16 + 16 * UInt32.ofNat count)]

/-- The record of a version that is needed from a file. -/
def needBytes (order : ByteOrder) (weak : Bool) (index : UInt16) (isLast : Bool)
    (name : UInt32) : List UInt8 :=
  order.words [0] ++ order.halves [if weak then weakFlag else 0, index] ++
  order.words [name, link isLast 16]

end VersionTable

end ElfLoader
