import ElfLoader.Object.File
import Std.Data.HashMap

/-!
# Symbols

A symbol gives a name to an address or a value. Relocations refer to symbols by
their position in a table (`ElfLoader.SymbolTable`), and objects find each other's
definitions by name. The table keeps an index of names;
`ElfLoader.SymbolTable.find` gives the positions of a name in table order.
-/

namespace ElfLoader

/-! ### What a symbol is -/

/-- Where a symbol is defined. -/
inductive SymbolPlace where
  /-- Nowhere in this object. -/
  | undefined
  /-- Nowhere in memory: the value is what it is. -/
  | absolute
  /-- In a common block without a place. -/
  | common
  /-- In a section whose number does not fit. -/
  | extended
  /-- In the section of this number. -/
  | sectionAt (index : UInt16)
  deriving DecidableEq, Repr, Inhabited

/-- The place that a half stands for. -/
def SymbolPlace.ofHalf (h : UInt16) : SymbolPlace :=
  if h = 0 then undefined
  else if h = 0xfff1 then absolute
  else if h = 0xfff2 then common
  else if h = 0xffff then extended
  else sectionAt h

/-- Who can see a symbol, beyond what its binding says. -/
inductive Visibility where
  | standard
  | internal
  | hidden
  /-- Visible, but not to be replaced by another object's definition. -/
  | guarded
  deriving DecidableEq, Repr, Inhabited

/-- The visibility that a byte stands for. -/
def Visibility.ofByte (b : UInt8) : Visibility :=
  if b &&& 3 = 0 then standard
  else if b &&& 3 = 1 then internal
  else if b &&& 3 = 2 then hidden
  else guarded

/-- How a symbol binds to those of the same name. -/
inductive Binding where
  /-- It is known within its object only. -/
  | local_
  /-- It is known everywhere. -/
  | global
  /-- It is known everywhere, and as a reference it may stay undefined. -/
  | weak
  /-- Something for a certain system or processor. -/
  | reserved
  deriving DecidableEq, Repr, Inhabited

namespace Binding

/-- The binding that a byte stands for, in its upper four bits. -/
def ofByte (b : UInt8) : Binding :=
  if b >>> 4 = 0 then local_
  else if b >>> 4 = 1 then global
  else if b >>> 4 = 2 then weak
  else reserved

/-- The binding in words. -/
def name : Binding → String
  | local_ => "Local"
  | global => "Global"
  | weak => "Weak"
  | reserved => "Reserved"

end Binding

/-- What a symbol stands for. -/
inductive SymbolType where
  | none
  | object
  | func
  | sectionName
  | file
  | common
  | threadLocal
  | reserved
  deriving DecidableEq, Repr, Inhabited

namespace SymbolType

/-- The type that a byte stands for, in its lower four bits. -/
def ofByte (b : UInt8) : SymbolType :=
  let v := b &&& 15
  if v = 0 then none
  else if v = 1 then object
  else if v = 2 then func
  else if v = 3 then sectionName
  else if v = 4 then file
  else if v = 5 then common
  else if v = 6 then threadLocal
  else reserved

/-- The type in words. -/
def name : SymbolType → String
  | none => "None"
  | object => "Object"
  | func => "Func"
  | sectionName => "Section"
  | file => "File"
  | common => "Common"
  | threadLocal => "Tls"
  | reserved => "Reserved"

end SymbolType

/-- A symbol. -/
structure Symbol where
  /-- Its name; it may be empty. -/
  name : String
  /-- An address relative to the object, or just a value. -/
  value : UInt32
  /-- How many bytes it stands for; zero if there are none or nobody knows. -/
  size : UInt32
  /-- What it stands for. -/
  type : SymbolType
  /-- How it binds. -/
  binding : Binding
  /-- Who can see it. -/
  visibility : Visibility
  /-- Where it is defined. -/
  place : SymbolPlace
  deriving DecidableEq, Repr, Inhabited

namespace Symbol

/-- The symbol with the raw fields of a table entry. -/
def ofFields (name : String) (value size : UInt32) (info other : UInt8) (place : UInt16) :
    Symbol :=
  ⟨name, value, size, .ofByte info, .ofByte info, .ofByte other, .ofHalf place⟩

/-- Whether the object defines the symbol. -/
def isDefined (s : Symbol) : Bool := s.place != .undefined

/-- Whether other objects may bind to the definition. -/
def isExported (s : Symbol) : Bool :=
  s.isDefined && (s.binding == .global || s.binding == .weak) &&
    (s.visibility == .standard || s.visibility == .guarded)

/-- Where the symbol ends up in memory if its object is placed at `base`. -/
def address (s : Symbol) (base : UInt32) : UInt32 :=
  if s.place = .absolute then s.value else base + s.value

/-- A table entry takes this many bytes. -/
def entrySize : Nat := 16

/-- Reads the table entry at an offset; the names are at the offset `strings`. -/
def read (f : ObjectFile) (offset strings : Nat) : Except LoadError Symbol := do
  let nameOffset ← f.word offset
  let value ← f.word (offset + 4)
  let size ← f.word (offset + 8)
  let info ← f.byte (offset + 12)
  let other ← f.byte (offset + 13)
  let place ← f.half (offset + 14)
  let name ← if nameOffset = 0 then pure "" else f.string (strings + nameOffset.toNat)
  return ofFields name value size info other place

end Symbol

/-! ### Tables of symbols -/

/-- The positions of each name. -/
abbrev NameIndex := Std.HashMap String (Array Nat)

namespace NameIndex

/-- Adds a position to those of a name. -/
def record (index : NameIndex) (name : String) (position : Nat) : NameIndex :=
  index.insert name ((index.getD name #[]).push position)

/-- Adds the positions of symbols, counted from `position` on. The symbol at position
zero stands for no symbol, and a symbol without a name cannot be found by one. -/
def addFrom (index : NameIndex) (position : Nat) : List Symbol → NameIndex
  | [] => index
  | s :: rest =>
    let index := if position = 0 ∨ s.name = "" then index else record index s.name position
    addFrom index (position + 1) rest

/-- The index of a list of symbols. -/
def ofList (symbols : List Symbol) : NameIndex := addFrom ∅ 0 symbols

end NameIndex

/-- Symbols in the order in which relocations count them. -/
structure SymbolTable where
  /-- The symbols. -/
  entries : Array Symbol
  /-- The positions of each name. -/
  index : NameIndex
  /-- The positions are those of the symbols. -/
  index_eq : index = NameIndex.ofList entries.toList

namespace SymbolTable

/-- The table of a list of symbols. -/
def ofList (symbols : List Symbol) : SymbolTable :=
  ⟨symbols.toArray, NameIndex.ofList symbols, rfl⟩

/-- The table without symbols. -/
def empty : SymbolTable := ofList []

instance : Inhabited SymbolTable := ⟨empty⟩

/-- How many symbols there are. -/
def size (t : SymbolTable) : Nat := t.entries.size

/-- Whether there is no symbol. -/
def isEmpty (t : SymbolTable) : Bool := t.entries.isEmpty

/-- The symbol at a position. -/
def get? (t : SymbolTable) (position : Nat) : Option Symbol := t.entries[position]?

/-- The positions of the symbols of a name, defined or not, in table order. -/
def find (t : SymbolTable) (name : String) : List Nat := (t.index.getD name #[]).toList

/-- Reads `count` table entries. -/
def readFrom (f : ObjectFile) (strings : Nat) :
    (count offset : Nat) → Except LoadError (List Symbol)
  | 0, _ => .ok []
  | count + 1, offset => do
    let s ← Symbol.read f offset strings
    return s :: (← readFrom f strings count (offset + Symbol.entrySize))

/-- Reads a table. That it lies within the file is checked first, because the count may
be anything. -/
def read (f : ObjectFile) (offset count strings : Nat) : Except LoadError SymbolTable := do
  let _ ← f.slice offset (count * Symbol.entrySize)
  return ofList (← readFrom f strings count offset)

end SymbolTable

end ElfLoader
