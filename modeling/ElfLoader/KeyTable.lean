import Std.Data.HashMap

/-!
# Keys for names

A `ElfLoader.KeyTable` hands out small keys for texts: 0, 1, 2 … in the order in
which the texts arrive. A text keeps its key for good, and a key can be reached
through further texts, its *aliases*: `ElfLoader.KeyTable.insert` makes a key for
a new text, `ElfLoader.KeyTable.insertAlias` gives an existing key one more text, and in
both the first meaning of a text wins.

Keys are halves, so a table holds at most `ElfLoader.KeyTable.capacity` of them.
-/

namespace ElfLoader

/-- A key of a table. -/
structure Key where
  /-- The position of the key in the order of insertion. -/
  index : UInt16
  deriving DecidableEq, Repr, Inhabited

/-- The form in which a key is shown. -/
def Key.text (key : Key) : String := s!"#{key.index.toNat}"

/-- The key at a position. -/
def Key.ofNat (n : Nat) : Key := ⟨UInt16.ofNat n⟩

/-- The position of a key as a number. -/
def Key.toNat (key : Key) : Nat := key.index.toNat

/-- Texts with their keys. -/
structure KeyTable where
  /-- The text for which each key was made. -/
  values : Array String
  /-- The key of every text, aliases included. -/
  keys : Std.HashMap String Key

namespace KeyTable

/-- How many keys there can be. -/
def capacity : Nat := 65535

/-- The table without keys. -/
def empty : KeyTable := ⟨#[], ∅⟩

instance : Inhabited KeyTable := ⟨empty⟩

/-- How many keys there are. -/
def size (t : KeyTable) : Nat := t.values.size

/-- Whether there is no key. -/
def isEmpty (t : KeyTable) : Bool := t.values.isEmpty

/-- The key that a text stands for. -/
def find? (t : KeyTable) (value : String) : Option Key := t.keys[value]?

/-- The text for which a key was made. -/
def get? (t : KeyTable) (key : Key) : Option String := t.values[key.toNat]?

/-- The key of a text, made now if the text has none. There is none to be had if the
table is full. -/
def insert (t : KeyTable) (value : String) : Option (Key × KeyTable) :=
  match t.find? value with
  | some key => some (key, t)
  | none =>
    if t.size < capacity then
      let key := Key.ofNat t.size
      some (key, ⟨t.values.push value, t.keys.insert value key⟩)
    else none

/-- Lets a text stand for a key too, unless it already stands for one. Gives the key
that the text stands for now. -/
def insertAlias (t : KeyTable) (value : String) (key : Key) : Key × KeyTable :=
  match t.find? value with
  | some known => (known, t)
  | none => (key, { t with keys := t.keys.insert value key })

@[simp] theorem size_insertAlias (t : KeyTable) (value : String) (key : Key) :
    (t.insertAlias value key).2.size = t.size := by
  unfold insertAlias
  split <;> rfl

end KeyTable

end ElfLoader
