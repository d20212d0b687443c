import ElfLoader.Bytes.Order
import ElfLoader.Report
import Std.Data.HashMap

/-!
# Simulated memory

A memory has a number of bytes, at the addresses from zero on. It can be as large as
the 32-bit space, but a program uses little of it, so a `ElfLoader.Memory` stores
only the bytes that are not zero. What it holds is told by one function,
`ElfLoader.Memory.byteAt`; every operation is described by what it does to that
(`ElfLoader.Memory.byteAt_set`).

Accesses are checked as a whole: one that does not lie within the memory does
nothing and is refused (`ElfLoader.Memory.reach`).

* `ElfLoader.Memory.read`, `ElfLoader.Memory.write`, `ElfLoader.Memory.fill`;
* `ElfLoader.Memory.readWord`, `ElfLoader.Memory.writeWord`;
* `ElfLoader.Memory.copyThrough` – copies by way of a buffer;
* `ElfLoader.Memory.move` – copies in place, byte by byte, in the direction in which
  no byte is overwritten before it is copied.
-/

namespace ElfLoader

/-- The bytes of a simulated memory. -/
structure Memory where
  /-- How many bytes there are. -/
  size : Nat
  /-- The bytes that are not zero, by address. -/
  cells : Std.HashMap Nat UInt8

namespace Memory

/-- A memory full of zeros. -/
def zeroed (size : Nat) : Memory := ⟨size, ∅⟩

instance : Inhabited Memory := ⟨zeroed 0⟩

variable (m : Memory)

/-- The byte at an address. -/
def byteAt (address : Nat) : UInt8 := m.cells.getD address 0

/-- Changes the byte at an address. -/
def set (address : Nat) (value : UInt8) : Memory :=
  if value = 0 then { m with cells := m.cells.erase address }
  else { m with cells := m.cells.insert address value }

@[simp] theorem size_set (address : Nat) (value : UInt8) : (m.set address value).size = m.size := by
  unfold set
  split <;> rfl

@[simp] theorem byteAt_zeroed (size address : Nat) : (zeroed size).byteAt address = 0 := by
  simp [zeroed, byteAt]

/-- **What a change does**: the byte at the address is the new one, all others stay. -/
theorem byteAt_set (address other : Nat) (value : UInt8) :
    (m.set address value).byteAt other = if other = address then value else m.byteAt other := by
  unfold set byteAt
  by_cases h : other = address
  · subst h
    split <;> simp_all
  · have h' : ¬ address = other := fun e => h e.symm
    split <;> simp [Std.HashMap.getD_erase, Std.HashMap.getD_insert, h']

/-! ### Unchecked runs of bytes -/

/-- Changes the bytes from an address on. -/
def store (m : Memory) (address : Nat) : List UInt8 → Memory
  | [] => m
  | b :: rest => (m.set address b).store (address + 1) rest

/-- The `count` bytes from an address on. -/
def load (address count : Nat) : List UInt8 :=
  (List.range count).map fun i => m.byteAt (address + i)

/-- Makes all bytes from `start` up to `stop` zero. -/
def clear (start stop : Nat) : Memory :=
  { m with cells := m.cells.filter fun address _ => !(start ≤ address && address < stop) }

/-- Copies `count` bytes, the first one first. -/
def moveUp (m : Memory) (source target : Nat) : (count : Nat) → Memory
  | 0 => m
  | count + 1 =>
    (m.set target (m.byteAt source)).moveUp (source + 1) (target + 1) count

/-- Copies `count` bytes, the last one first. -/
def moveDown (m : Memory) (source target : Nat) : (count : Nat) → Memory
  | 0 => m
  | count + 1 =>
    (m.set (target + count) (m.byteAt (source + count))).moveDown source target count

/-! ### Checked accesses -/

/-- Refuses an access that does not lie within the memory. -/
def reach (address : UInt32) (length : Nat) : Except LoadError Unit :=
  if address.toNat + length ≤ m.size then .ok () else .error (.outOfRange address length)

/-- The bytes from an address on. -/
def read (address : UInt32) (length : Nat) : Except LoadError (List UInt8) := do
  m.reach address length
  return m.load address.toNat length

/-- Changes the bytes from an address on. -/
def write (address : UInt32) (bytes : List UInt8) : Except LoadError Memory := do
  m.reach address bytes.length
  return m.store address.toNat bytes

/-- Gives `length` bytes from an address on one value. -/
def fill (address : UInt32) (length : Nat) (value : UInt8) : Except LoadError Memory := do
  m.reach address length
  if value = 0 then return m.clear address.toNat (address.toNat + length)
  else return m.store address.toNat (List.replicate length value)

/-- The word at an address. -/
def readWord (address : UInt32) (order : ByteOrder) : Except LoadError UInt32 := do
  m.reach address 4
  let a := address.toNat
  return order.word (m.byteAt a) (m.byteAt (a + 1)) (m.byteAt (a + 2)) (m.byteAt (a + 3))

/-- Changes the word at an address. -/
def writeWord (address value : UInt32) (order : ByteOrder) : Except LoadError Memory :=
  m.write address (order.wordBytes value)

/-- Copies bytes by way of a buffer. -/
def copyThrough (source target : UInt32) (length : Nat) : Except LoadError Memory := do
  m.write target (← m.read source length)

/-- Copies bytes in place. Towards lower addresses the first byte goes first, towards
higher ones the last. -/
def move (source target : UInt32) (length : Nat) : Except LoadError Memory := do
  m.reach source length
  m.reach target length
  if target ≤ source then return m.moveUp source.toNat target.toNat length
  else return m.moveDown source.toNat target.toNat length

end Memory

end ElfLoader
