/-!
# Byte order

Multi-byte values in an object file and in simulated memory are stored in the
byte order of the simulated processor. This file says how a *half* (16 bits) and
a *word* (32 bits) are made from bytes and taken apart again:

* `ElfLoader.ByteOrder.half`, `ElfLoader.ByteOrder.word` – the value of a run of
  bytes;
* `ElfLoader.ByteOrder.halfBytes`, `ElfLoader.ByteOrder.wordBytes` – the run of
  bytes that holds a value.

Both directions are written with place values, so that the two undo each other
by plain arithmetic (`ElfLoader.ByteOrder.word_wordBytes`).
-/

namespace ElfLoader

/-- The order in which the bytes of a value are stored. -/
inductive ByteOrder where
  /-- The lowest byte comes first. -/
  | little
  /-- The highest byte comes first. -/
  | big
  deriving DecidableEq, Repr, Inhabited

namespace ByteOrder

/-- The name of the order, as reports show it. -/
def name : ByteOrder → String
  | little => "Little"
  | big => "Big"

/-- The simulator itself runs on little endian machines. -/
def host : ByteOrder := little

/-- Whether the words of a program can be used by the simulator as they are. -/
def matchesHost (order : ByteOrder) : Bool := order == host

/-! ### From bytes to values -/

/-- The half stored in two bytes. -/
def half : ByteOrder → UInt8 → UInt8 → UInt16
  | little, a, b => UInt16.ofNat (a.toNat + 256 * b.toNat)
  | big, a, b => UInt16.ofNat (256 * a.toNat + b.toNat)

/-- The word stored in four bytes. -/
def word : ByteOrder → UInt8 → UInt8 → UInt8 → UInt8 → UInt32
  | little, a, b, c, d =>
    UInt32.ofNat (a.toNat + 256 * b.toNat + 65536 * c.toNat + 16777216 * d.toNat)
  | big, a, b, c, d =>
    UInt32.ofNat (16777216 * a.toNat + 65536 * b.toNat + 256 * c.toNat + d.toNat)

/-! ### From values to bytes -/

/-- The two bytes that hold a half. -/
def halfBytes : ByteOrder → UInt16 → List UInt8
  | little, v => [UInt8.ofNat v.toNat, UInt8.ofNat (v.toNat / 256)]
  | big, v => [UInt8.ofNat (v.toNat / 256), UInt8.ofNat v.toNat]

/-- The four bytes that hold a word. -/
def wordBytes : ByteOrder → UInt32 → List UInt8
  | little, v =>
    [UInt8.ofNat v.toNat, UInt8.ofNat (v.toNat / 256), UInt8.ofNat (v.toNat / 65536),
      UInt8.ofNat (v.toNat / 16777216)]
  | big, v =>
    [UInt8.ofNat (v.toNat / 16777216), UInt8.ofNat (v.toNat / 65536),
      UInt8.ofNat (v.toNat / 256), UInt8.ofNat v.toNat]

@[simp] theorem length_halfBytes (order : ByteOrder) (v : UInt16) :
    (order.halfBytes v).length = 2 := by
  cases order <;> rfl

@[simp] theorem length_wordBytes (order : ByteOrder) (v : UInt32) :
    (order.wordBytes v).length = 4 := by
  cases order <;> rfl

/-! ### The two directions undo each other -/

/-- A half is read back from the bytes that hold it. -/
theorem half_halfBytes (order : ByteOrder) (v : UInt16) :
    ∃ a b, order.halfBytes v = [a, b] ∧ order.half a b = v := by
  have hv := v.toNat_lt
  cases order <;> refine ⟨_, _, rfl, UInt16.toNat_inj.1 ?_⟩ <;>
    simp only [half, UInt16.toNat_ofNat', UInt8.toNat_ofNat'] <;> omega

/-- A word is read back from the bytes that hold it. -/
theorem word_wordBytes (order : ByteOrder) (v : UInt32) :
    ∃ a b c d, order.wordBytes v = [a, b, c, d] ∧ order.word a b c d = v := by
  have hv := v.toNat_lt
  cases order <;> refine ⟨_, _, _, _, rfl, UInt32.toNat_inj.1 ?_⟩ <;>
    simp only [word, UInt32.toNat_ofNat', UInt8.toNat_ofNat'] <;> omega

end ByteOrder

end ElfLoader
