import ElfLoader.Alignment
import ElfLoader.KeyTable
import ElfLoader.Report

/-!
# Who owns which addresses

An `ElfLoader.AddressMap` keeps track of the parts of simulated memory that are in
use. It stores what is owned, in address order; all else is free. Neighbouring
addresses with one owner always form one reservation, so a reservation ends where
its owner does.

* `ElfLoader.AddressMap.reserve` – claims certain addresses;
* `ElfLoader.AddressMap.reserveAnywhere` – claims the lowest addresses that will do;
* `ElfLoader.AddressMap.release` – gives a reservation back;
* `ElfLoader.AddressMap.regions` – owned and free stretches, which together cover
  the memory from its first address to its last.
-/

namespace ElfLoader

/-- Who can own addresses. -/
inductive Owner where
  /-- A loaded object. -/
  | object (key : Key)
  /-- The page at zero, kept free so that null pointers hit nothing. -/
  | guard
  /-- The stack. -/
  | stack
  deriving DecidableEq, Repr, Inhabited

/-- The owner in words. -/
def Owner.text : Owner → String
  | object key => key.text
  | guard => "guard"
  | stack => "stack"

/-- Addresses from `start` up to, but not including, `stop`, with their owner. -/
structure Reservation where
  start : Nat
  stop : Nat
  owner : Owner
  deriving DecidableEq, Repr, Inhabited

/-- Whether a reservation and a stretch of addresses have an address in common. -/
def Reservation.meets (r : Reservation) (start stop : Nat) : Bool :=
  r.start < stop && start < r.stop

/-- A stretch of addresses with its owner, or none if it is free. -/
structure Region where
  start : Nat
  stop : Nat
  owner : Option Owner
  deriving DecidableEq, Repr, Inhabited

namespace Region

/-- How many addresses there are. -/
def size (r : Region) : Nat := r.stop - r.start

/-- The owner in words. -/
def ownerText (r : Region) : String :=
  match r.owner with
  | some owner => owner.text
  | none => "free"

/-- The region as a line of text. -/
def text (r : Region) : String :=
  s!"{Hex.padded 8 r.start}-{Hex.padded 8 r.stop} {r.ownerText}"

/-- The addresses of a reservation. -/
def owned (r : Reservation) : Region := ⟨r.start, r.stop, some r.owner⟩

/-- A stretch of addresses that nobody owns. -/
def gap (g : Nat × Nat) : Region := ⟨g.1, g.2, none⟩

@[simp] theorem owner_owned (r : Reservation) : (owned r).owner = some r.owner := rfl

@[simp] theorem stop_gap (g : Nat × Nat) : (gap g).stop = g.2 := rfl

/-- Puts a region in front of the first one that does not start before it. -/
def insertByStart (r : Region) : List Region → List Region
  | [] => [r]
  | s :: rest => if r.start ≤ s.start then r :: s :: rest else s :: insertByStart r rest

/-- Regions in the order of their starts. Those that start at one address stay in order. -/
def sortByStart : List Region → List Region
  | [] => []
  | r :: rest => insertByStart r (sortByStart rest)

end Region

/-- The owners of the addresses below `size`. -/
structure AddressMap where
  /-- How many addresses there are. -/
  size : Nat
  /-- What is owned, in address order. -/
  reservations : List Reservation
  deriving DecidableEq, Repr, Inhabited

namespace AddressMap

/-- The map of a memory that nobody uses. -/
def free (size : Nat) : AddressMap := ⟨size, []⟩

/-- Adds a reservation to those in address order. It joins its neighbours if they have
its owner and touch it. -/
def insert (r : Reservation) : List Reservation → List Reservation
  | [] => [r]
  | s :: rest =>
    if s.stop = r.start ∧ s.owner = r.owner then insert ⟨s.start, r.stop, r.owner⟩ rest
    else if r.stop = s.start ∧ s.owner = r.owner then ⟨r.start, s.stop, r.owner⟩ :: rest
    else if r.stop ≤ s.start then r :: s :: rest
    else s :: insert r rest

/-- The free stretches from `start` on. -/
def gaps (size start : Nat) : List Reservation → List (Nat × Nat)
  | [] => if start < size then [(start, size)] else []
  | s :: rest =>
    (if start < s.start then [(start, s.start)] else []) ++ gaps size s.stop rest

variable (m : AddressMap)

/-- The owned stretches, and behind them the free ones. -/
def stretches : List Region :=
  m.reservations.map .owned ++ (gaps m.size 0 m.reservations).map .gap

/-- The owned and the free stretches in address order. -/
def regions : List Region := Region.sortByStart m.stretches

/-- The map as lines of text. -/
def lines : List String := m.regions.map Region.text

/-- Who owns an address. -/
def ownerOf? (address : Nat) : Option Owner :=
  (m.reservations.find? fun r => r.start ≤ address && address < r.stop).map (·.owner)

/-- The first stretch of addresses that an owner has. -/
def rangeOf? (owner : Owner) : Option (Nat × Nat) :=
  (m.reservations.find? fun r => r.owner == owner).map fun r => (r.start, r.stop)

/-! ### Changes -/

/-- Even a reservation of nothing takes one address, so that its owner can be found. -/
def room (size : UInt32) : Nat := max size.toNat 1

/-- Claims `size` bytes at an address. -/
def reserve (start size : UInt32) (owner : Owner) : Except LoadError AddressMap :=
  let stop := start.toNat + room size
  if m.size < stop ∨ m.reservations.any fun r => r.meets start.toNat stop then
    .error (.noSpace (some start) size)
  else .ok { m with reservations := insert ⟨start.toNat, stop, owner⟩ m.reservations }

/-- The alignment that is used for an alignment that was asked for. -/
def grain (alignment : UInt32) : Nat := nextPowerOfTwo (max alignment.toNat 1)

/-- The lowest aligned address of a gap with enough room behind it. -/
def fit? (grain room : Nat) (gap : Nat × Nat) : Option Nat :=
  if alignUp gap.1 grain + room ≤ gap.2 then some (alignUp gap.1 grain) else none

/-- Claims `size` bytes at the lowest aligned address where they are free. Gives the
address too. -/
def reserveAnywhere (size alignment : UInt32) (owner : Owner) :
    Except LoadError (UInt32 × AddressMap) :=
  match (gaps m.size 0 m.reservations).findSome? (fit? (grain alignment) (room size)) with
  | some start =>
    .ok (UInt32.ofNat start,
      { m with reservations := insert ⟨start, start + room size, owner⟩ m.reservations })
  | none => .error (.noSpace none size)

/-- Gives the reservation that starts at an address back, if there is one. -/
def release? (start : UInt32) : Option AddressMap :=
  if m.reservations.any fun r => r.start == start.toNat then
    some { m with reservations := m.reservations.filter fun r => r.start != start.toNat }
  else none

end AddressMap

end ElfLoader
