import ElfLoader.Proofs.Memory
import ElfLoader.Relocation.Processor

/-!
# Fixups that fail

An access to memory is checked before it changes anything, so a fixup that makes at most one
change either makes it or leaves memory as it was
(`ElfLoader.Processor.state_of_applyAll_error`). A jump makes two. The word at the higher address
goes first: where it fits, so does the word below it – unless the addresses go over the end of
the 32-bit space in between. Then the higher word lies at the bottom of memory, and the lower one
at the top of the space, which only the largest memories have.

A jump that is cut in two in this way is *torn* (`ElfLoader.Processor.Tears`): its last
instruction is written, and then the fixup fails. No other fixup that fails has changed anything
(`ElfLoader.Processor.unchanged_of_apply`).
-/

namespace ElfLoader

/-- Only a jump makes more than one change. -/
theorem Fixup.length_patches_le_one (f : Fixup) {action : RelocationAction}
    (h : action ≠ .sparcJump) : (f.patches action).length ≤ 1 := by
  cases action with
  | sparcJump => exact absurd rfl h
  | copy =>
    dsimp only [patches]
    split
    · exact Nat.le_refl 1
    · exact Nat.zero_le 1
  | none => exact Nat.zero_le 1
  | _ => exact Nat.le_refl 1

namespace Processor

variable {order : ByteOrder} {f : Fixup} {m : Memory} {e : LoadError}

/-! ### At most one change -/

/-- **A single change that fails leaves memory as it was.** -/
theorem state_of_applyAll_error {patches : List Patch} (hlength : patches.length ≤ 1)
    (h : ((applyAll order patches).run m).result = .error e) :
    ((applyAll order patches).run m).state = m := by
  match patches, hlength with
  | [], _ => rfl
  | [patch], _ =>
    cases hpatch : patch.apply order m with
    | ok m' =>
      rw [applyAll, Stage.run_bind_of_ok (Stage.run_attempt_of_ok hpatch)] at h
      cases h
    | error e' =>
      rw [applyAll, Stage.run_bind_of_run_error (Stage.run_attempt_of_error hpatch)]

/-! ### Jumps -/

/-- **A torn fixup**: a jump whose words lie on both sides of the end of the 32-bit space, the
higher one at the bottom of memory and the lower one past its end. -/
structure Tears (p : Processor) (f : Fixup) (size : Nat) : Prop where
  /-- It is a jump. -/
  jump : p.action? f.type = some .sparcJump
  /-- The word that starts 8 bytes behind the patched address is the first to go over the end. -/
  wraps : 0xfffffff8 ≤ f.patchAddress.toNat ∧ f.patchAddress.toNat < 0xfffffffc
  /-- It lies within memory. -/
  fits : f.patchAddress.toNat + 12 ≤ size + 4294967296
  /-- The word below it does not. -/
  short : size < f.patchAddress.toNat + 8

/-- **Which jumps are torn**: those of which the higher word lies within memory and the lower one
does not. -/
theorem tears_iff {p : Processor} {size : Nat} (h : p.action? f.type = some .sparcJump) :
    p.Tears f size ↔ (f.patchAddress + 8).toNat + 4 ≤ size ∧
      size < (f.patchAddress + 4).toNat + 4 := by
  have hbound := f.patchAddress.toNat_lt
  rw [UInt32.toNat_add, UInt32.toNat_add, show (8 : UInt32).toNat = 8 from rfl,
    show (4 : UInt32).toNat = 4 from rfl]
  constructor
  · rintro ⟨-, hwraps, hfits, hshort⟩
    omega
  · rintro ⟨hfits, hshort⟩
    exact ⟨h, by omega, by omega, by omega⟩

/-- A jump that is not torn fails before anything is written. -/
theorem state_of_jump_error {target : UInt32}
    (hsizes : (f.patchAddress + 8).toNat + 4 ≤ m.size → (f.patchAddress + 4).toNat + 4 ≤ m.size)
    (h : ((applyAll order (f.jumpPatches target)).run m).result = .error e) :
    ((applyAll order (f.jumpPatches target)).run m).state = m := by
  obtain ⟨higher, lower, hpatches⟩ : ∃ higher lower, f.jumpPatches target =
      [.word (f.patchAddress + 8) higher, .word (f.patchAddress + 4) lower] := ⟨_, _, rfl⟩
  rw [hpatches] at h ⊢
  cases hhigher : m.writeWord (f.patchAddress + 8) higher order with
  | error e' =>
    rw [applyAll, Stage.run_bind_of_run_error (Stage.run_attempt_of_error hhigher)]
  | ok m' =>
    -- the lower word fits as well, so nothing fails
    have hfits : (f.patchAddress + 4).toNat + 4 ≤ m'.size := by
      rw [Memory.size_of_writeWord hhigher]
      exact hsizes (Memory.writeWord_eq_ok_iff.1 hhigher).1
    have hlower : m'.writeWord (f.patchAddress + 4) lower order = .ok _ :=
      Memory.writeWord_eq_ok_iff.2 ⟨hfits, rfl⟩
    rw [applyAll, Stage.run_bind_of_ok (Stage.run_attempt_of_ok hhigher), applyAll,
      Stage.run_bind_of_ok (Stage.run_attempt_of_ok hlower)] at h
    cases h

/-- A jump of which only the higher word fits fails after that is written. -/
theorem run_jump_of_short {target : UInt32} (hfits : (f.patchAddress + 8).toNat + 4 ≤ m.size)
    (hshort : m.size < (f.patchAddress + 4).toNat + 4) :
    ∃ m', m.writeWord (f.patchAddress + 8) (Fixup.jump ||| (target &&& 0x3ff)) order = .ok m' ∧
      (applyAll order (f.jumpPatches target)).run m =
        ⟨.error (.outOfRange (f.patchAddress + 4) 4), m', []⟩ := by
  have hhigher : m.writeWord (f.patchAddress + 8) (Fixup.jump ||| (target &&& 0x3ff)) order =
      .ok _ := Memory.writeWord_eq_ok_iff.2 ⟨hfits, rfl⟩
  refine ⟨_, hhigher, ?_⟩
  rw [← Memory.size_of_writeWord hhigher] at hshort
  have hlower : Memory.writeWord _ (f.patchAddress + 4) (Fixup.sethi ||| (target >>> 10)) order =
      .error (.outOfRange (f.patchAddress + 4) 4) :=
    Memory.writeWord_eq_error_iff.2 ⟨hshort, rfl⟩
  rw [Fixup.jumpPatches, applyAll, Stage.run_bind_of_ok (Stage.run_attempt_of_ok hhigher),
    applyAll, Stage.run_bind_of_run_error (Stage.run_attempt_of_error hlower)]
  rfl

/-! ### All fixups -/

/-- A type without a meaning is refused. -/
theorem run_apply_of_none {p : Processor} (h : p.action? f.type = none) :
    (p.apply order f).run m = ⟨.error (.unknownRelocation f.type "" 0), m, []⟩ := by
  have hpatches : p.patches f = .error (.unknownRelocation f.type "" 0) := by
    rw [Processor.patches, h]
  rw [apply, hpatches]
  rfl

/-- A type with a meaning does what it asks for. -/
theorem run_apply_of_some {p : Processor} {action : RelocationAction}
    (h : p.action? f.type = some action) :
    (p.apply order f).run m = (applyAll order (f.patches action)).run m := by
  have hpatches : p.patches f = .ok (f.patches action) := by
    rw [Processor.patches, h]
  rw [apply, hpatches]
  rfl

/-- A fixup that is not torn fails before it has changed anything. -/
theorem state_of_apply_error {p : Processor} (htears : ¬ p.Tears f m.size)
    (h : ((p.apply order f).run m).result = .error e) : ((p.apply order f).run m).state = m := by
  cases haction : p.action? f.type with
  | none => rw [run_apply_of_none haction]
  | some action =>
    rw [run_apply_of_some haction] at h ⊢
    by_cases hjump : action = .sparcJump
    · subst hjump
      rw [tears_iff haction] at htears
      exact state_of_jump_error (by omega) h
    · exact state_of_applyAll_error (f.length_patches_le_one hjump) h

/-- **A fixup that fails leaves memory as it was, unless it is torn.** A torn one always fails,
because the lower of its words is out of range, and leaves the higher one written. -/
theorem unchanged_of_apply (p : Processor) (order : ByteOrder) (f : Fixup) (m : Memory) :
    (∀ e, ((p.apply order f).run m).result = .error e → ¬ p.Tears f m.size →
      ((p.apply order f).run m).state = m) ∧
    (p.Tears f m.size → ∃ m', m.writeWord (f.patchAddress + 8)
        (Fixup.jump ||| ((f.symbolValue + f.addend) &&& 0x3ff)) order = .ok m' ∧
      (p.apply order f).run m = ⟨.error (.outOfRange (f.patchAddress + 4) 4), m', []⟩) := by
  refine ⟨fun e h htears => state_of_apply_error htears h, ?_⟩
  intro htears
  obtain ⟨hfits, hshort⟩ := (tears_iff htears.jump).1 htears
  rw [run_apply_of_some htears.jump]
  exact run_jump_of_short hfits hshort

/-- A jump that is patched in the last 8 bytes of the 32-bit space. -/
def lastJump : Fixup where
  patchAddress := 0xfffffff8
  type := 21
  symbolValue := 0x1234
  symbolSize := 0
  addend := 0
  base := 0
  hasSymbol := true

/-- **A word over the end of memory** is not torn and leaves memory as it was, while the jump is
torn. -/
theorem unchanged_of_apply_lastWord :
    ((sparc.apply .big ⟨14, 3, 0x1234, 0, 0, 0, true⟩).run (.zeroed 16)).state = .zeroed 16 ∧
    ((sparc.apply .big lastJump).run (.zeroed 16)).result = .error (.outOfRange 0xfffffffc 4) := by
  constructor
  · refine (unchanged_of_apply sparc .big ⟨14, 3, 0x1234, 0, 0, 0, true⟩ (.zeroed 16)).1
      (.outOfRange 14 4) rfl ?_
    intro htears
    exact absurd htears.wraps.1 (by decide)
  · obtain ⟨m', -, hrun⟩ := (unchanged_of_apply sparc .big lastJump (.zeroed 16)).2
      ⟨by decide +kernel, by decide, by decide, by decide⟩
    rw [hrun]
    rfl

/-- **A fixup that fails can leave memory changed**: the jump is refused, and its last
instruction stands at the bottom of memory. -/
theorem byteAt_apply_lastJump :
    ((sparc.apply .big lastJump).run (.zeroed 16)).result = .error (.outOfRange 0xfffffffc 4) ∧
    ((sparc.apply .big lastJump).run (.zeroed 16)).state.byteAt 0 = 0x81 ∧
    (Memory.zeroed 16).byteAt 0 = 0 := by
  obtain ⟨m', hhigher, hjump⟩ : ∃ m', Memory.writeWord (.zeroed 16) (lastJump.patchAddress + 8)
        (Fixup.jump ||| ((lastJump.symbolValue + lastJump.addend) &&& 0x3ff)) .big = .ok m' ∧
      (applyAll .big (lastJump.jumpPatches _)).run (.zeroed 16) =
        ⟨.error (.outOfRange (lastJump.patchAddress + 4) 4), m', []⟩ :=
    run_jump_of_short (by decide) (by decide)
  obtain ⟨-, rfl⟩ := Memory.writeWord_eq_ok_iff.1 hhigher
  have haction : sparc.action? lastJump.type = some .sparcJump := by decide +kernel
  rw [(run_apply_of_some haction).trans hjump, Memory.byteAt_store]
  exact ⟨rfl, by decide +kernel, Memory.byteAt_zeroed 16 0⟩

end Processor

end ElfLoader
