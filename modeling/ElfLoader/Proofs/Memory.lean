import ElfLoader.Proofs.Outcomes
import ElfLoader.Space.Memory

/-!
# What operations do to memory

Every operation on a memory is told by the byte at an address afterwards: the runs of
bytes that are not checked first (`ElfLoader.Memory.byteAt_store`,
`ElfLoader.Memory.byteAt_clear`), then the checked accesses, which come to the same where
they succeed. A copy in place reads all bytes before they are overwritten
(`ElfLoader.Memory.byteAt_move`). Words are read from four bytes and depend on nothing else
(`ElfLoader.Memory.readWord_congr`), and a word that was written is read back
(`ElfLoader.Memory.readWord_writeWord`).
-/

namespace ElfLoader.Memory

variable {m m' : Memory}

/-! ### Unchecked runs of bytes -/

@[simp] theorem size_store (m : Memory) (address : Nat) (bytes : List UInt8) :
    (m.store address bytes).size = m.size := by
  induction bytes generalizing m address with
  | nil => rfl
  | cons b rest ih => rw [store, ih, size_set]

/-- **Storing bytes** changes just the bytes that there are values for. -/
theorem byteAt_store (m : Memory) (address : Nat) (bytes : List UInt8) (a : Nat) :
    (m.store address bytes).byteAt a =
      if address ≤ a then bytes[a - address]?.getD (m.byteAt a) else m.byteAt a := by
  induction bytes generalizing m address with
  | nil => simp [store]
  | cons b rest ih =>
    -- the rest is stored behind the first byte and does not change it again
    rw [store, ih, byteAt_set]
    rcases Nat.lt_trichotomy a address with hlt | rfl | hgt
    · rw [if_neg (by omega), if_neg (by omega), if_neg (by omega)]
    · rw [if_neg (by omega), if_pos rfl, if_pos (Nat.le_refl a), Nat.sub_self]
      rfl
    · rw [if_pos (by omega), if_neg (by omega), if_pos (by omega),
        show a - address = a - (address + 1) + 1 by omega, List.getElem?_cons_succ]

/-- Storing bytes leaves the others alone. -/
theorem byteAt_store_of_outside (m : Memory) {address a : Nat} {bytes : List UInt8}
    (h : a < address ∨ address + bytes.length ≤ a) :
    (m.store address bytes).byteAt a = m.byteAt a := by
  rw [byteAt_store]
  split
  · rw [List.getElem?_eq_none (by omega), Option.getD_none]
  · rfl

@[simp] theorem length_load (m : Memory) (address count : Nat) :
    (m.load address count).length = count := by
  rw [load, List.length_map, List.length_range]

theorem getElem?_load (m : Memory) (address : Nat) {count i : Nat} (h : i < count) :
    (m.load address count)[i]? = some (m.byteAt (address + i)) := by
  rw [load, List.getElem?_map, List.getElem?_range h, Option.map_some]

/-- Storing bytes that have been read somewhere copies them. -/
theorem byteAt_store_load (m : Memory) (source target count a : Nat) :
    (m.store target (m.load source count)).byteAt a =
      if target ≤ a ∧ a < target + count then m.byteAt (source + (a - target))
      else m.byteAt a := by
  split
  · next hin =>
    rw [byteAt_store, if_pos hin.1, getElem?_load m source (by omega), Option.getD_some]
  · next hout => exact byteAt_store_of_outside m (by rw [length_load]; omega)

@[simp] theorem size_clear (m : Memory) (start stop : Nat) : (m.clear start stop).size = m.size :=
  rfl

/-- **Clearing** makes a stretch zero. -/
theorem byteAt_clear (m : Memory) (start stop a : Nat) :
    (m.clear start stop).byteAt a = if start ≤ a ∧ a < stop then 0 else m.byteAt a := by
  unfold clear byteAt
  rw [Std.HashMap.getD_filter', Std.HashMap.getD_eq_getD_getElem?]
  by_cases h : start ≤ a ∧ a < stop
  · cases m.cells[a]? <;> simp [h]
  · -- outside the stretch nothing is filtered out
    have hkeep : (!(decide (start ≤ a) && decide (a < stop))) = true := by
      simp only [Bool.not_eq_true', Bool.and_eq_false_iff, decide_eq_false_iff_not]
      omega
    cases m.cells[a]? <;> simp [h, hkeep, Option.filter]

/-- **Copying upwards** to lower addresses reads every byte before it is overwritten. -/
theorem byteAt_moveUp (m : Memory) {source target : Nat} (h : target ≤ source) (count a : Nat) :
    (m.moveUp source target count).byteAt a =
      if target ≤ a ∧ a < target + count then m.byteAt (source + (a - target))
      else m.byteAt a := by
  induction count generalizing m source target with
  | zero =>
    rw [if_neg (by omega)]
    rfl
  | succ count ih =>
    rw [moveUp, ih _ (by omega), byteAt_set, byteAt_set]
    by_cases hin : target + 1 ≤ a ∧ a < target + 1 + count
    · -- what is still to be read lies above the byte that has just been written
      rw [if_pos hin, if_neg (by omega), if_pos (by omega),
        show source + 1 + (a - (target + 1)) = source + (a - target) by omega]
    · rw [if_neg hin]
      by_cases hfirst : a = target
      · rw [if_pos hfirst, if_pos (by omega), show a - target = 0 by omega, Nat.add_zero]
      · rw [if_neg hfirst, if_neg (by omega)]

/-- **Copying downwards** to higher addresses reads every byte before it is overwritten. -/
theorem byteAt_moveDown (m : Memory) {source target : Nat} (h : source ≤ target) (count a : Nat) :
    (m.moveDown source target count).byteAt a =
      if target ≤ a ∧ a < target + count then m.byteAt (source + (a - target))
      else m.byteAt a := by
  induction count generalizing m with
  | zero =>
    rw [if_neg (by omega)]
    rfl
  | succ count ih =>
    rw [moveDown, ih, byteAt_set, byteAt_set]
    by_cases hin : target ≤ a ∧ a < target + count
    · -- what is still to be read lies below the byte that has just been written
      rw [if_pos hin, if_neg (by omega), if_pos (by omega)]
    · rw [if_neg hin]
      by_cases hlast : a = target + count
      · rw [if_pos hlast, if_pos (by omega), show a - target = count by omega]
      · rw [if_neg hlast, if_neg (by omega)]

@[simp] theorem size_moveUp (m : Memory) (source target count : Nat) :
    (m.moveUp source target count).size = m.size := by
  induction count generalizing m source target with
  | zero => rfl
  | succ count ih => rw [moveUp, ih, size_set]

@[simp] theorem size_moveDown (m : Memory) (source target count : Nat) :
    (m.moveDown source target count).size = m.size := by
  induction count generalizing m with
  | zero => rfl
  | succ count ih => rw [moveDown, ih, size_set]

/-! ### Checked accesses -/

theorem reach_eq_ok_iff (m : Memory) (address : UInt32) (length : Nat) (u : Unit) :
    m.reach address length = .ok u ↔ address.toNat + length ≤ m.size := by
  unfold reach
  split <;> simp_all

/-- An access outside memory is refused. -/
theorem reach_of_lt {address : UInt32} {length : Nat} (h : m.size < address.toNat + length) :
    m.reach address length = .error (.outOfRange address length) :=
  if_neg (Nat.not_le.2 h)

/-- An access within memory gives the bytes that are there. -/
theorem read_of_le {address : UInt32} {length : Nat} (h : address.toNat + length ≤ m.size) :
    m.read address length = .ok (m.load address.toNat length) := by
  rw [read, (m.reach_eq_ok_iff address length ()).2 h]
  rfl

theorem write_eq_ok_iff {address : UInt32} {bytes : List UInt8} :
    m.write address bytes = .ok m' ↔
      address.toNat + bytes.length ≤ m.size ∧ m.store address.toNat bytes = m' := by
  rw [write, bind_eq_ok_iff]
  simp [reach_eq_ok_iff, pure, Except.pure]

theorem fill_zero_eq_ok_iff {address : UInt32} {length : Nat} :
    m.fill address length 0 = .ok m' ↔
      address.toNat + length ≤ m.size ∧
        m.clear address.toNat (address.toNat + length) = m' := by
  rw [fill, bind_eq_ok_iff]
  simp [reach_eq_ok_iff, pure, Except.pure]

/-- A copy in place succeeds if both runs of bytes lie within memory. -/
theorem exists_move {source target : UInt32} {length : Nat}
    (hsource : source.toNat + length ≤ m.size) (htarget : target.toNat + length ≤ m.size) :
    ∃ m', m.move source target length = .ok m' := by
  have hreach := (m.reach_eq_ok_iff source length ()).2 hsource
  have hreach' := (m.reach_eq_ok_iff target length ()).2 htarget
  unfold move
  rw [hreach, hreach']
  dsimp only [bind, Except.bind]
  split
  · exact ⟨_, rfl⟩
  · exact ⟨_, rfl⟩

/-- A copy in place leaves the size alone. -/
theorem size_of_move {source target : UInt32} {length : Nat}
    (h : m.move source target length = .ok m') : m'.size = m.size := by
  obtain ⟨_, -, h⟩ := bind_eq_ok_iff.1 h
  obtain ⟨_, -, h⟩ := bind_eq_ok_iff.1 h
  split at h <;>
  · cases h
    simp

/-- **A copy in place** gives its target the bytes that the source had before, also where the two
overlap. -/
theorem byteAt_move {source target : UInt32} {length : Nat}
    (h : m.move source target length = .ok m') (a : Nat) :
    m'.byteAt a = if target.toNat ≤ a ∧ a < target.toNat + length then
      m.byteAt (source.toNat + (a - target.toNat)) else m.byteAt a := by
  obtain ⟨_, -, h⟩ := bind_eq_ok_iff.1 h
  obtain ⟨_, -, h⟩ := bind_eq_ok_iff.1 h
  split at h
  · next hle =>
    cases h
    exact byteAt_moveUp m hle length a
  · next hlt =>
    cases h
    exact byteAt_moveDown m (Nat.le_of_not_le hlt) length a

/-! ### Words -/

/-- The word in four bytes. -/
theorem readWord_eq_ok_iff {address value : UInt32} {order : ByteOrder} :
    m.readWord address order = .ok value ↔
      address.toNat + 4 ≤ m.size ∧
        order.word (m.byteAt address.toNat) (m.byteAt (address.toNat + 1))
          (m.byteAt (address.toNat + 2)) (m.byteAt (address.toNat + 3)) = value := by
  rw [readWord, bind_eq_ok_iff]
  simp [reach_eq_ok_iff, pure, Except.pure]

/-- **A word depends on its four bytes only.** -/
theorem readWord_congr {address : UInt32} (hsize : m'.size = m.size)
    (h : ∀ a, address.toNat ≤ a → a < address.toNat + 4 → m'.byteAt a = m.byteAt a)
    (order : ByteOrder) : m'.readWord address order = m.readWord address order := by
  have h0 := h address.toNat (by omega) (by omega)
  have h1 := h (address.toNat + 1) (by omega) (by omega)
  have h2 := h (address.toNat + 2) (by omega) (by omega)
  have h3 := h (address.toNat + 3) (by omega) (by omega)
  unfold readWord reach
  rw [hsize]
  dsimp only
  rw [h0, h1, h2, h3]

theorem writeWord_eq_ok_iff {address value : UInt32} {order : ByteOrder} :
    m.writeWord address value order = .ok m' ↔
      address.toNat + 4 ≤ m.size ∧ m.store address.toNat (order.wordBytes value) = m' := by
  rw [writeWord, write_eq_ok_iff, ByteOrder.length_wordBytes]

/-- A word is refused if one of its four bytes lies outside memory. -/
theorem writeWord_eq_error_iff {address value : UInt32} {order : ByteOrder} {e : LoadError} :
    m.writeWord address value order = .error e ↔
      m.size < address.toNat + 4 ∧ .outOfRange address 4 = e := by
  rw [writeWord, write, bind_eq_error_iff, reach, ByteOrder.length_wordBytes]
  split <;> simp [pure, Except.pure] <;> omega

/-- **A word that was written is read back.** -/
theorem readWord_writeWord {address value : UInt32} {order : ByteOrder}
    (h : m.writeWord address value order = .ok m') : m'.readWord address order = .ok value := by
  obtain ⟨hsize, rfl⟩ := writeWord_eq_ok_iff.1 h
  obtain ⟨a, b, c, d, hbytes, hword⟩ := order.word_wordBytes value
  rw [readWord_eq_ok_iff, size_store, hbytes]
  refine ⟨hsize, ?_⟩
  rw [byteAt_store, byteAt_store, byteAt_store, byteAt_store]
  simpa using hword

/-- Writing a word leaves the size alone. -/
theorem size_of_writeWord {address value : UInt32} {order : ByteOrder}
    (h : m.writeWord address value order = .ok m') : m'.size = m.size := by
  obtain ⟨-, rfl⟩ := writeWord_eq_ok_iff.1 h
  exact size_store ..

/-- Writing a word leaves all other bytes alone. -/
theorem byteAt_of_writeWord {address value : UInt32} {order : ByteOrder} {a : Nat}
    (h : m.writeWord address value order = .ok m')
    (ha : a < address.toNat ∨ address.toNat + 4 ≤ a) : m'.byteAt a = m.byteAt a := by
  obtain ⟨-, rfl⟩ := writeWord_eq_ok_iff.1 h
  exact byteAt_store_of_outside m (by rwa [ByteOrder.length_wordBytes])

/-- Writing a word leaves a word alone that has no byte in common with it. -/
theorem readWord_of_writeWord {address other value : UInt32} {order : ByteOrder}
    (h : m.writeWord address value order = .ok m')
    (hapart : other.toNat + 4 ≤ address.toNat ∨ address.toNat + 4 ≤ other.toNat) :
    m'.readWord other order = m.readWord other order := by
  refine readWord_congr (size_of_writeWord h) ?_ order
  intro a hlow hhigh
  exact byteAt_of_writeWord h (by omega)

end ElfLoader.Memory
