import ElfLoader.Proofs.Memory

/-!
# Two ways to copy

Bytes are copied in place, in the direction in which none is overwritten before it is read
(`ElfLoader.Memory.move`), or by way of a buffer (`ElfLoader.Memory.copyThrough`). It makes no
difference which: both do what a copy is to do (`ElfLoader.Memory.Copies`), and that leaves
nothing open (`ElfLoader.Memory.Copies.same`). So the two give the same result and leave the
same bytes, however their runs of bytes overlap, and whatever of them lies outside memory
(`ElfLoader.Memory.copies_move_and_copyThrough`).

Lengths are plain numbers here: an end past the largest word, or past 64 bits, is out of range
like any other end past the memory.
-/

namespace ElfLoader.Memory

variable {m m' : Memory} {source target : UInt32} {length : Nat}

/-! ### What a copy is to do -/

/-- **Two memories are the same** if they have the same size and the same bytes. How the bytes
are stored makes no difference. -/
structure Same (m m' : Memory) : Prop where
  /-- They have the same size. -/
  size_eq : m.size = m'.size
  /-- They have the same bytes. -/
  byteAt_eq : ∀ a, m.byteAt a = m'.byteAt a

/-- **What comes out of a copy**: it is refused if a byte of the source lies outside memory, and
failing that, if a byte of the target does. -/
def copyResult (m : Memory) (source target : UInt32) (length : Nat) : Except LoadError Unit :=
  if m.size < source.toNat + length then .error (.outOfRange source length)
  else if m.size < target.toNat + length then .error (.outOfRange target length)
  else .ok ()

/-- **What a copy does** to a memory. -/
structure Copies (m : Memory) (source target : UInt32) (length : Nat)
    (o : Outcome Memory Unit) : Prop where
  /-- It is refused if one of its two runs of bytes does not lie within memory. -/
  result : o.result = m.copyResult source target length
  /-- A copy that is refused changes nothing. -/
  refused : ∀ e, o.result = .error e → o.state = m
  /-- The size stays. -/
  size : o.state.size = m.size
  /-- A copy that is made gives its target the bytes that its source had before. -/
  copied : o.result = .ok () → ∀ i < length,
    o.state.byteAt (target.toNat + i) = m.byteAt (source.toNat + i)
  /-- All other bytes stay. -/
  kept : ∀ a, a < target.toNat ∨ target.toNat + length ≤ a → o.state.byteAt a = m.byteAt a

/-- **Two copies come to the same**: a copy leaves nothing open. -/
theorem Copies.same {o o' : Outcome Memory Unit} (h : m.Copies source target length o)
    (h' : m.Copies source target length o') : o.result = o'.result ∧ o.state.Same o'.state := by
  have hresult : o.result = o'.result := h.result.trans h'.result.symm
  refine ⟨hresult, h.size.trans h'.size.symm, ?_⟩
  intro a
  rcases hcase : o.result with e | u
  · rw [h.refused e hcase, h'.refused e (hresult ▸ hcase)]
  · by_cases ha : a < target.toNat ∨ target.toNat + length ≤ a
    · exact (h.kept a ha).trans (h'.kept a ha).symm
    · -- the byte is one of the target
      obtain ⟨i, rfl⟩ := Nat.exists_eq_add_of_le (Nat.not_lt.1 (not_or.1 ha).1)
      have hi : i < length := by omega
      exact (h.copied hcase i hi).trans (h'.copied (hresult ▸ hcase) i hi).symm

/-! ### Copies that are refused, and copies that are made -/

theorem copyResult_of_source (h : m.size < source.toNat + length) :
    m.copyResult source target length = .error (.outOfRange source length) := if_pos h

theorem copyResult_of_target (h : source.toNat + length ≤ m.size)
    (h' : m.size < target.toNat + length) :
    m.copyResult source target length = .error (.outOfRange target length) := by
  rw [copyResult, if_neg (Nat.not_lt.2 h), if_pos h']

theorem copyResult_of_within (h : source.toNat + length ≤ m.size)
    (h' : target.toNat + length ≤ m.size) : m.copyResult source target length = .ok () := by
  rw [copyResult, if_neg (Nat.not_lt.2 h), if_neg (Nat.not_lt.2 h')]

variable {f : Memory → Except LoadError Memory}

/-- A change that is refused where a copy is to be refused. -/
theorem copies_of_error {e : LoadError} (hresult : m.copyResult source target length = .error e)
    (hf : f m = .error e) : m.Copies source target length ((Stage.attempt f).run m) := by
  rw [Stage.run_attempt_of_error hf]
  exact {
    result := hresult.symm
    refused := fun _ _ => rfl
    size := rfl
    copied := fun h => by cases h
    kept := fun _ _ => rfl }

/-- A change that is made where a copy is to be made, and copies. -/
theorem copies_of_ok (hresult : m.copyResult source target length = .ok ())
    (hf : f m = .ok m') (hsize : m'.size = m.size)
    (hbytes : ∀ a, m'.byteAt a = if target.toNat ≤ a ∧ a < target.toNat + length then
      m.byteAt (source.toNat + (a - target.toNat)) else m.byteAt a) :
    m.Copies source target length ((Stage.attempt f).run m) := by
  rw [Stage.run_attempt_of_ok hf]
  refine ⟨hresult.symm, fun e h => (by cases h), hsize, ?_, ?_⟩
  · intro _ i hi
    rw [hbytes, if_pos (by omega), Nat.add_sub_cancel_left]
  · intro a ha
    rw [hbytes, if_neg (by omega)]

/-! ### In place -/

/-- **Copying in place is a copy.** -/
theorem copies_move (m : Memory) (source target : UInt32) (length : Nat) :
    m.Copies source target length
      ((Stage.attempt fun m => m.move source target length).run m) := by
  rcases Nat.lt_or_ge m.size (source.toNat + length) with hsource | hsource
  · refine copies_of_error (copyResult_of_source hsource) ?_
    rw [move, reach_of_lt hsource]
    rfl
  · have hreach := (m.reach_eq_ok_iff source length ()).2 hsource
    rcases Nat.lt_or_ge m.size (target.toNat + length) with htarget | htarget
    · refine copies_of_error (copyResult_of_target hsource htarget) ?_
      rw [move, hreach, reach_of_lt htarget]
      rfl
    · obtain ⟨m', hmove⟩ := exists_move hsource htarget
      exact copies_of_ok (copyResult_of_within hsource htarget) hmove (size_of_move hmove)
        (byteAt_move hmove)

/-! ### By way of a buffer -/

/-- **Copying by way of a buffer is a copy.** -/
theorem copies_copyThrough (m : Memory) (source target : UInt32) (length : Nat) :
    m.Copies source target length
      ((Stage.attempt fun m => m.copyThrough source target length).run m) := by
  rcases Nat.lt_or_ge m.size (source.toNat + length) with hsource | hsource
  · refine copies_of_error (copyResult_of_source hsource) ?_
    rw [copyThrough, read, reach_of_lt hsource]
    rfl
  · -- all bytes are read before the first one is written
    have hthrough : m.copyThrough source target length =
        m.write target (m.load source.toNat length) := by
      rw [copyThrough, read_of_le hsource]
      rfl
    rcases Nat.lt_or_ge m.size (target.toNat + length) with htarget | htarget
    · refine copies_of_error (copyResult_of_target hsource htarget) ?_
      rw [hthrough, write, length_load, reach_of_lt htarget]
      rfl
    · have hwrite : m.write target (m.load source.toNat length) = .ok _ :=
        write_eq_ok_iff.2 ⟨by rwa [length_load], rfl⟩
      exact copies_of_ok (copyResult_of_within hsource htarget) (hthrough.trans hwrite)
        (size_store ..) (byteAt_store_load m source.toNat target.toNat length)

/-! ### Both -/

/-- **Copying in place and by way of a buffer come to the same.** Both give the result that a
copy is to give, the source being checked first; both leave memory as it was if they are refused,
and otherwise give the target the bytes that the source had before and leave all others alone. -/
theorem copies_move_and_copyThrough (m : Memory) (source target : UInt32) (length : Nat) :
    let moved := (Stage.attempt fun m => m.move source target length).run m
    let copied := (Stage.attempt fun m => m.copyThrough source target length).run m
    m.Copies source target length moved ∧ m.Copies source target length copied ∧
      moved.result = copied.result ∧ moved.state.Same copied.state := by
  have hmove := copies_move m source target length
  have hthrough := copies_copyThrough m source target length
  exact ⟨hmove, hthrough, hmove.same hthrough⟩

end ElfLoader.Memory
