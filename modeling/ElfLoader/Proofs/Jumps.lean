import ElfLoader.Proofs.Fixups
import ElfLoader.Proofs.Patching

/-!
# What a patched jump does

An entry of the procedure linkage table of a SPARC is three instructions long, and a fixup
rewrites the second and the third. Here is said what the processor makes of them: the two
instructions are taken apart into their fields (`ElfLoader.Sparc.decode`) and carried out on
registers (`ElfLoader.Sparc.Instruction.registersAfter`,
`ElfLoader.Sparc.Instruction.destination?`).

The target of the jump is cut in two. Its upper 22 bits fill the field of the first instruction,
and its lower 10 bits go into the field of the second, which is 13 bits wide and has a sign: the
three bits that are left over keep it from being negative. So the two parts add up to the target
again (`ElfLoader.Sparc.upperPart_add_lowerPart`), and no part spills into the fields that say
what the instruction is (`ElfLoader.Sparc.decode_sethiWord`, `ElfLoader.Sparc.decode_jumpWord`).
-/

namespace ElfLoader

namespace Sparc

/-! ### Instructions -/

/-- The number of a register. -/
abbrev Register := BitVec 5

/-- The register that is always zero. -/
def g0 : Register := 0

/-- The register that linkage tables may use as they like. -/
def g1 : Register := 1

/-- The second part of an address. -/
inductive Operand where
  /-- The value of a register. -/
  | register (number : Register)
  /-- A number with a sign. -/
  | immediate (simm13 : BitVec 13)
  deriving DecidableEq, Repr

/-- The two instructions that lead from a linkage table to a function. -/
inductive Instruction where
  /-- Sets the upper bits of a register, and the lower ones to zero. -/
  | sethi (imm22 : BitVec 22) (rd : Register)
  /-- Jumps to the sum of a register and an operand, and keeps its own address. -/
  | jmpl (rs1 : Register) (operand : Operand) (rd : Register)
  deriving DecidableEq, Repr

/-- A field of an instruction: the `width` bits from bit `low` on. -/
def field (w : UInt32) (low width : Nat) : BitVec width := w.toBitVec.extractLsb' low width

/-- **The instruction that a word stands for**, if it is one of the two. Bit 13 of a jump tells an
immediate operand from a register. -/
def decode (w : UInt32) : Option Instruction :=
  if field w 30 2 = 0 ∧ field w 22 3 = 4 then
    some (.sethi (field w 0 22) (field w 25 5))
  else if field w 30 2 = 2 ∧ field w 19 6 = 0x38 then
    some (.jmpl (field w 14 5)
      (if field w 13 1 = 1 then .immediate (field w 0 13) else .register (field w 0 5))
      (field w 25 5))
  else none

/-- The instruction at an address in memory. -/
def fetch (m : Memory) (order : ByteOrder) (address : UInt32) : Option Instruction :=
  (m.readWord address order).toOption.bind decode

theorem fetch_of_readWord {m : Memory} {order : ByteOrder} {address w : UInt32} {i : Instruction}
    (h : m.readWord address order = .ok w) (hdecode : decode w = some i) :
    fetch m order address = some i := by
  rw [fetch, h]
  exact hdecode

/-! ### What instructions do -/

/-- The values that have been stored in the registers. -/
structure Registers where
  /-- The value in a register. -/
  stored : Register → UInt32

namespace Registers

variable (r : Registers) {number other : Register} (value : UInt32)

/-- The value of a register. -/
def get (number : Register) : UInt32 := if number = g0 then 0 else r.stored number

/-- Changes the value of a register. -/
def set (number : Register) (value : UInt32) : Registers :=
  ⟨fun other => if other = number then value else r.stored other⟩

theorem get_set_self (h : number ≠ g0) : (r.set number value).get number = value := by
  rw [get, if_neg h]
  exact if_pos rfl

theorem get_set_of_ne (h : other ≠ number) : (r.set number value).get other = r.get other := by
  have hstored : (r.set number value).stored other = r.stored other := if_neg h
  rw [get, get, hstored]

/-- Nothing can be stored in the register that is always zero. -/
theorem get_set_g0 : (r.set g0 value).get other = r.get other := by
  rcases eq_or_ne other g0 with rfl | h
  · rfl
  · exact r.get_set_of_ne value h

end Registers

/-- The 22 bits of an instruction, shifted to the upper end of a word. -/
def upperPart (imm22 : BitVec 22) : UInt32 := ⟨imm22.setWidth 32 <<< 10⟩

/-- The 13 bits of an instruction, with their sign, as a word. -/
def lowerPart (simm13 : BitVec 13) : UInt32 := ⟨simm13.signExtend 32⟩

/-- The value of an operand. -/
def Operand.value (r : Registers) : Operand → UInt32
  | register number => r.get number
  | immediate simm13 => lowerPart simm13

/-- The registers behind an instruction that stands at an address. -/
def Instruction.registersAfter (address : UInt32) (r : Registers) : Instruction → Registers
  | sethi imm22 rd => r.set rd (upperPart imm22)
  | jmpl _ _ rd => r.set rd address

/-- Where an instruction leads to, if it jumps. -/
def Instruction.destination? (r : Registers) : Instruction → Option UInt32
  | sethi .. => none
  | jmpl rs1 operand _ => some (r.get rs1 + operand.value r)

/-- **Carries out instructions** from an address on, `count` at most, up to the first that jumps:
where it leads, and the registers behind it. -/
def follow (m : Memory) (order : ByteOrder) :
    (count : Nat) → (address : UInt32) → Registers → Option (UInt32 × Registers)
  | 0, _, _ => none
  | count + 1, address, r => do
    let i ← fetch m order address
    match i.destination? r with
    | some target => some (target, i.registersAfter address r)
    | none => follow m order count (address + 4) (i.registersAfter address r)

/-! ### Fields by the places of their bits -/

theorem toNat_field (w : UInt32) (low width : Nat) :
    (field w low width).toNat = w.toNat / 2 ^ low % 2 ^ width := by
  rw [field, BitVec.extractLsb'_toNat, UInt32.toNat_toBitVec, Nat.shiftRight_eq_div_pow]

theorem field_eq_iff {w : UInt32} {low width : Nat} {v : BitVec width} :
    field w low width = v ↔ w.toNat / 2 ^ low % 2 ^ width = v.toNat := by
  rw [← BitVec.toNat_inj, toNat_field]

/-! ### The two instructions of a jump -/

/-- The instruction that sets the upper part of a target. -/
def sethiWord (target : UInt32) : UInt32 := Fixup.sethi ||| (target >>> 10)

/-- The instruction that jumps, with the lower part of the target. -/
def jumpWord (target : UInt32) : UInt32 := Fixup.jump ||| (target &&& 0x3ff)

/-- The upper part of a target does not spill into the fields above it. -/
theorem toNat_sethiWord (target : UInt32) :
    (sethiWord target).toNat = 0x03000000 + target.toNat / 1024 := by
  have hlt : target.toNat / 1024 < 2 ^ 22 := by
    have := target.toNat_lt
    omega
  have hshift : (target >>> 10).toNat = target.toNat / 1024 := by
    rw [UInt32.toNat_shiftRight, show (10 : UInt32).toNat % 32 = 10 from rfl,
      Nat.shiftRight_eq_div_pow]
  rw [sethiWord, UInt32.toNat_or, hshift]
  exact (Nat.two_pow_add_eq_or_of_lt hlt 12).symm

/-- The lower part of a target does not spill into the fields above it. -/
theorem toNat_jumpWord (target : UInt32) :
    (jumpWord target).toNat = 0x81c06000 + target.toNat % 1024 := by
  have hlt : target.toNat % 1024 < 2 ^ 13 := by omega
  have hmask : (target &&& 0x3ff).toNat = target.toNat % 1024 := by
    rw [UInt32.toNat_and]
    exact Nat.and_two_pow_sub_one_eq_mod target.toNat 10
  rw [jumpWord, UInt32.toNat_or, hmask]
  exact (Nat.two_pow_add_eq_or_of_lt hlt 0x40e03).symm

/-- The field of the first instruction holds the upper part of the target. -/
theorem toNat_imm22 (target : UInt32) :
    (field (sethiWord target) 0 22).toNat = target.toNat / 1024 := by
  have hlt := target.toNat_lt
  rw [toNat_field, toNat_sethiWord]
  omega

/-- The field of the second instruction holds the lower part of the target. -/
theorem toNat_simm13 (target : UInt32) :
    (field (jumpWord target) 0 13).toNat = target.toNat % 1024 := by
  rw [toNat_field, toNat_jumpWord]
  omega

/-- **The first instruction** sets `%g1`, whatever the target is. -/
theorem decode_sethiWord (target : UInt32) :
    decode (sethiWord target) = some (.sethi (field (sethiWord target) 0 22) g1) := by
  have hlt := target.toNat_lt
  have hop : field (sethiWord target) 30 2 = 0 := by
    rw [field_eq_iff, toNat_sethiWord, show (0 : BitVec 2).toNat = 0 from rfl]
    omega
  have hop2 : field (sethiWord target) 22 3 = 4 := by
    rw [field_eq_iff, toNat_sethiWord, show (4 : BitVec 3).toNat = 4 from rfl]
    omega
  have hrd : field (sethiWord target) 25 5 = g1 := by
    rw [field_eq_iff, toNat_sethiWord, show g1.toNat = 1 from rfl]
    omega
  rw [decode, if_pos ⟨hop, hop2⟩, hrd]

/-- **The second instruction** jumps relative to `%g1`, whatever the target is. -/
theorem decode_jumpWord (target : UInt32) :
    decode (jumpWord target) =
      some (.jmpl g1 (.immediate (field (jumpWord target) 0 13)) g0) := by
  have hop : field (jumpWord target) 30 2 = 2 := by
    rw [field_eq_iff, toNat_jumpWord, show (2 : BitVec 2).toNat = 2 from rfl]
    omega
  have hop3 : field (jumpWord target) 19 6 = 0x38 := by
    rw [field_eq_iff, toNat_jumpWord, show (0x38 : BitVec 6).toNat = 0x38 from rfl]
    omega
  have hrs1 : field (jumpWord target) 14 5 = g1 := by
    rw [field_eq_iff, toNat_jumpWord, show g1.toNat = 1 from rfl]
    omega
  have hi : field (jumpWord target) 13 1 = 1 := by
    rw [field_eq_iff, toNat_jumpWord, show (1 : BitVec 1).toNat = 1 from rfl]
    omega
  have hrd : field (jumpWord target) 25 5 = g0 := by
    rw [field_eq_iff, toNat_jumpWord, show g0.toNat = 0 from rfl]
    omega
  have hnot : ¬ (field (jumpWord target) 30 2 = 0 ∧ field (jumpWord target) 22 3 = 4) := by
    rw [hop]
    rintro ⟨h, -⟩
    exact absurd h (by decide)
  rw [decode, if_neg hnot, if_pos ⟨hop, hop3⟩, hrs1, if_pos hi, hrd]

/-! ### The target is put together again -/

theorem toNat_upperPart (imm22 : BitVec 22) : (upperPart imm22).toNat = imm22.toNat * 1024 := by
  have hlt := imm22.isLt
  rw [upperPart, UInt32.toNat_ofBitVec, BitVec.toNat_shiftLeft, BitVec.toNat_setWidth,
    Nat.shiftLeft_eq]
  omega

/-- An operand whose sign bit is not set stands for itself. -/
theorem toNat_lowerPart {simm13 : BitVec 13} (h : simm13.toNat < 4096) :
    (lowerPart simm13).toNat = simm13.toNat := by
  have hmsb : simm13.msb = false := BitVec.msb_eq_false_iff_two_mul_lt.2 (by omega)
  rw [lowerPart, UInt32.toNat_ofBitVec, BitVec.signExtend_eq_setWidth_of_msb_false hmsb,
    BitVec.toNat_setWidth]
  omega

/-- **The two parts add up to the target.** The lower one has ten bits in a field of thirteen, so
its sign is never set. -/
theorem upperPart_add_lowerPart (target : UInt32) :
    upperPart (field (sethiWord target) 0 22) + lowerPart (field (jumpWord target) 0 13) =
      target := by
  have hlt := target.toNat_lt
  have hsimm := toNat_simm13 target
  refine UInt32.toNat_inj.1 ?_
  rw [UInt32.toNat_add, toNat_upperPart, toNat_imm22, toNat_lowerPart (by omega), hsimm]
  omega

/-- **Two instructions lead to the sum of their operands**, and change the register between them
only. -/
theorem follow_of_fetch {m : Memory} {order : ByteOrder} {address : UInt32} {imm22 : BitVec 22}
    {simm13 : BitVec 13} (hsethi : fetch m order address = some (.sethi imm22 g1))
    (hjump : fetch m order (address + 4) = some (.jmpl g1 (.immediate simm13) g0))
    (r : Registers) :
    ∃ r', follow m order 2 address r = some (upperPart imm22 + lowerPart simm13, r') ∧
      ∀ number ≠ g1, r'.get number = r.get number := by
  have hg1 : (r.set g1 (upperPart imm22)).get g1 = upperPart imm22 :=
    r.get_set_self _ (by decide)
  refine ⟨(r.set g1 (upperPart imm22)).set g0 (address + 4), ?_, ?_⟩
  · simp only [follow, hsethi, hjump, Option.bind_eq_bind, Option.bind_some,
      Instruction.destination?, Instruction.registersAfter, Operand.value, hg1]
  · intro number hnumber
    rw [Registers.get_set_g0, r.get_set_of_ne _ hnumber]

end Sparc

/-! ### What a fixup makes of an entry -/

namespace Processor

open Sparc

variable {p : Processor} {f : Fixup} {m : Memory}

/-- **The three words of an entry** have no byte in common, also where they lie on both sides of
the end of the 32-bit space. -/
theorem words_apart (address : UInt32) :
    (address.toNat + 4 ≤ (address + 4).toNat ∨ (address + 4).toNat + 4 ≤ address.toNat) ∧
    (address.toNat + 4 ≤ (address + 8).toNat ∨ (address + 8).toNat + 4 ≤ address.toNat) ∧
    ((address + 8).toNat + 4 ≤ (address + 4).toNat ∨
      (address + 4).toNat + 4 ≤ (address + 8).toNat) := by
  have hlt := address.toNat_lt
  rw [UInt32.toNat_add, UInt32.toNat_add, show (8 : UInt32).toNat = 8 from rfl,
    show (4 : UInt32).toNat = 4 from rfl]
  omega

/-- **A jump whose words fit** is written: both instructions stand in memory, and all other bytes
are as they were. -/
theorem run_jump_of_fits (order : ByteOrder) (target : UInt32)
    (hlower : (f.patchAddress + 4).toNat + 4 ≤ m.size)
    (hhigher : (f.patchAddress + 8).toNat + 4 ≤ m.size) :
    ∃ m', (applyAll order (f.jumpPatches target)).run m = ⟨.ok (), m', []⟩ ∧
      m'.size = m.size ∧
      m'.readWord (f.patchAddress + 4) order = .ok (sethiWord target) ∧
      m'.readWord (f.patchAddress + 8) order = .ok (jumpWord target) ∧
      ∀ a, ¬ InWord (f.patchAddress + 4) a → ¬ InWord (f.patchAddress + 8) a →
        m'.byteAt a = m.byteAt a := by
  obtain ⟨-, -, hapart⟩ := words_apart f.patchAddress
  obtain ⟨m₁, hwrite₁⟩ : ∃ m₁, m.writeWord (f.patchAddress + 8) (jumpWord target) order = .ok m₁ :=
    ⟨_, Memory.writeWord_eq_ok_iff.2 ⟨hhigher, rfl⟩⟩
  have hsize₁ := Memory.size_of_writeWord hwrite₁
  obtain ⟨m₂, hwrite₂⟩ :
      ∃ m₂, m₁.writeWord (f.patchAddress + 4) (sethiWord target) order = .ok m₂ :=
    ⟨_, Memory.writeWord_eq_ok_iff.2 ⟨hsize₁ ▸ hlower, rfl⟩⟩
  refine ⟨m₂, ?_, (Memory.size_of_writeWord hwrite₂).trans hsize₁,
    Memory.readWord_writeWord hwrite₂, ?_, ?_⟩
  · rw [Fixup.jumpPatches, applyAll, Stage.run_bind_of_ok (Stage.run_attempt_of_ok hwrite₁),
      applyAll, Stage.run_bind_of_ok (Stage.run_attempt_of_ok hwrite₂)]
    rfl
  · -- the second of the writes leaves the first one alone
    rw [Memory.readWord_of_writeWord hwrite₂ hapart]
    exact Memory.readWord_writeWord hwrite₁
  · intro a ha₂ ha₁
    unfold InWord at ha₁ ha₂
    rw [Memory.byteAt_of_writeWord hwrite₂ (by omega),
      Memory.byteAt_of_writeWord hwrite₁ (by omega)]

/-- **A patched entry jumps to its target.** Where the three words of the entry lie within memory,
the first of them stays as it is, the second becomes an instruction that sets `%g1` and the third
one a jump relative to `%g1` that keeps no return address. Both operands make up the target, and
carried out from any registers the two lead there and change no register but `%g1`. -/
theorem jumps_of_apply (order : ByteOrder) (haction : p.action? f.type = some .sparcJump)
    (hfits : ∀ offset ∈ ([0, 4, 8] : List UInt32),
      (f.patchAddress + offset).toNat + 4 ≤ m.size) :
    ∃ m', (p.apply order f).run m = ⟨.ok (), m', []⟩ ∧
      m'.readWord f.patchAddress order = m.readWord f.patchAddress order ∧
      (∀ a, ¬ InWord (f.patchAddress + 4) a → ¬ InWord (f.patchAddress + 8) a →
        m'.byteAt a = m.byteAt a) ∧
      ∃ imm22 simm13,
        fetch m' order (f.patchAddress + 4) = some (.sethi imm22 g1) ∧
        fetch m' order (f.patchAddress + 8) = some (.jmpl g1 (.immediate simm13) g0) ∧
        upperPart imm22 + lowerPart simm13 = f.symbolValue + f.addend ∧
        ∀ r, ∃ r', follow m' order 2 (f.patchAddress + 4) r =
            some (f.symbolValue + f.addend, r') ∧
          ∀ number ≠ g1, r'.get number = r.get number := by
  obtain ⟨m', hrun, hsize, hsethi, hjump, hframe⟩ :=
    run_jump_of_fits order (f.symbolValue + f.addend) (hfits 4 (by simp))
      (hfits 8 (by simp))
  have hfetch := fetch_of_readWord hsethi (decode_sethiWord (f.symbolValue + f.addend))
  have hfetch' := fetch_of_readWord hjump (decode_jumpWord (f.symbolValue + f.addend))
  have htarget := upperPart_add_lowerPart (f.symbolValue + f.addend)
  refine ⟨m', (run_apply_of_some haction).trans hrun, ?_, hframe, _, _, hfetch, hfetch', htarget,
    ?_⟩
  · obtain ⟨hapart, hapart', -⟩ := words_apart f.patchAddress
    refine Memory.readWord_congr hsize ?_ order
    intro a hlow hhigh
    refine hframe a ?_ ?_
    · rintro ⟨hlow', hhigh'⟩
      omega
    · rintro ⟨hlow', hhigh'⟩
      omega
  · intro r
    have hnext : f.patchAddress + 8 = f.patchAddress + 4 + 4 := by
      rw [UInt32.add_assoc]
      rfl
    rw [hnext] at hfetch'
    rw [← htarget]
    exact follow_of_fetch hfetch hfetch' r

/-- An entry at `0x40` that is to lead to `0x12344`. -/
def farJump : Fixup where
  patchAddress := 0x40
  type := 21
  symbolValue := 0x12300
  symbolSize := 0
  addend := 0x44
  base := 0x1000
  hasSymbol := true

/-- **An entry of a linkage table** in an empty memory: its instructions are there afterwards. -/
theorem jumps_of_apply_farJump : sparc.action? farJump.type = some .sparcJump ∧
    (∀ offset ∈ ([0, 4, 8] : List UInt32), (farJump.patchAddress + offset).toNat + 4 ≤ 256) ∧
    ∃ m', (sparc.apply .big farJump).run (.zeroed 256) = ⟨.ok (), m', []⟩ ∧
      m'.readWord 0x40 .big = .ok 0 ∧
      ∃ imm22 simm13, fetch m' .big 0x44 = some (.sethi imm22 g1) ∧
        fetch m' .big 0x48 = some (.jmpl g1 (.immediate simm13) g0) ∧
        upperPart imm22 + lowerPart simm13 = 0x12344 := by
  have haction : sparc.action? farJump.type = some .sparcJump := by decide +kernel
  have hfits : ∀ offset ∈ ([0, 4, 8] : List UInt32),
      (farJump.patchAddress + offset).toNat + 4 ≤ (Memory.zeroed 256).size :=
    List.forall_mem_cons.2 ⟨by decide,
      List.forall_mem_cons.2 ⟨by decide, List.forall_mem_singleton.2 (by decide)⟩⟩
  obtain ⟨m', hrun, hfirst, -, imm22, simm13, hsethi, hjump, htarget, -⟩ :=
    jumps_of_apply .big haction hfits
  refine ⟨haction, hfits, m', hrun, hfirst.trans ?_, imm22, simm13, hsethi, hjump, htarget⟩
  refine Memory.readWord_eq_ok_iff.2 ⟨by decide, ?_⟩
  rw [Memory.byteAt_zeroed, Memory.byteAt_zeroed, Memory.byteAt_zeroed, Memory.byteAt_zeroed]
  rfl

end Processor

end ElfLoader
