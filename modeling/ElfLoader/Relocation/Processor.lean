import ElfLoader.Object.Header
import ElfLoader.Space.Memory

/-!
# What relocations do

The type of a relocation says how the patched word is computed, and every processor
has types of its own. An `ElfLoader.Processor` is the table that gives the types of
one processor a meaning, a `ElfLoader.RelocationAction`. All that a relocation needs
to know is in a `ElfLoader.Fixup`: the addresses are resolved, the addend is known.

`ElfLoader.Processor.patches` computes what a fixup writes, and
`ElfLoader.Processor.apply` writes it.
-/

namespace ElfLoader

/-! ### Actions -/

/-- What a relocation writes. Here *S* is the value of the symbol, *A* the addend, *B*
the base of the object and *P* the patched address. -/
inductive RelocationAction where
  /-- Nothing. -/
  | none
  /-- *S + A* -/
  | absolute
  /-- *B + A* -/
  | relative
  /-- *S* -/
  | symbol
  /-- *S + A − P* -/
  | pcRelative
  /-- The bytes of the symbol. -/
  | copy
  /-- *S + A* with a symbol, *B + A* without one. -/
  | symbolOrRelative
  /-- A jump to *S + A*, as the second and the third instruction at *P*. -/
  | sparcJump
  deriving DecidableEq, Repr, Inhabited

/-- All that is needed to carry out a relocation. -/
structure Fixup where
  /-- The patched address in memory. -/
  patchAddress : UInt32
  /-- The type of the relocation. -/
  type : UInt32
  /-- The address of the symbol in memory; zero without a symbol, and for a weak symbol
  that is not defined. -/
  symbolValue : UInt32
  /-- How many bytes the symbol stands for. -/
  symbolSize : UInt32
  /-- The addend in two's complement. -/
  addend : UInt32
  /-- The base of the object that is patched. -/
  base : UInt32
  /-- Whether the relocation names a symbol. -/
  hasSymbol : Bool
  deriving DecidableEq, Repr, Inhabited

/-- One change of memory. -/
inductive Patch where
  /-- A word is written. -/
  | word (address value : UInt32)
  /-- Bytes are copied. -/
  | copy (source target : UInt32) (length : Nat)
  deriving DecidableEq, Repr

/-- Carries out a change. -/
def Patch.apply (order : ByteOrder) (patch : Patch) (m : Memory) : Except LoadError Memory :=
  match patch with
  | word address value => m.writeWord address value order
  | copy source target length => m.move source target length

namespace Fixup

variable (f : Fixup)

/-- The instruction that sets the upper part of a jump target. -/
def sethi : UInt32 := 0x03000000

/-- The instruction that jumps, with the lower part of the target. -/
def jump : UInt32 := 0x81c06000

/-- The changes of a jump to a target. The jump itself is written first, so that it is
in place before the instruction that leads up to it. -/
def jumpPatches (target : UInt32) : List Patch :=
  [.word (f.patchAddress + 8) (jump ||| (target &&& 0x3ff)),
   .word (f.patchAddress + 4) (sethi ||| (target >>> 10))]

/-- The changes that an action asks for. A symbol that is not defined, or of which
nothing is known, has nothing to be copied. -/
def patches : RelocationAction → List Patch
  | .none => []
  | .absolute => [.word f.patchAddress (f.symbolValue + f.addend)]
  | .relative => [.word f.patchAddress (f.base + f.addend)]
  | .symbol => [.word f.patchAddress f.symbolValue]
  | .pcRelative => [.word f.patchAddress (f.symbolValue + f.addend - f.patchAddress)]
  | .symbolOrRelative =>
    [.word f.patchAddress
      (if f.hasSymbol then f.symbolValue + f.addend else f.base + f.addend)]
  | .copy =>
    if f.symbolValue ≠ 0 ∧ f.symbolSize ≠ 0 then
      [.copy f.symbolValue f.patchAddress f.symbolSize.toNat]
    else []
  | .sparcJump => f.jumpPatches (f.symbolValue + f.addend)

end Fixup

/-! ### Processors -/

/-- The meaning of the relocation types of a processor. -/
structure Processor where
  /-- The number that stands for the processor in a header. -/
  machine : UInt16
  /-- The name of the processor. -/
  name : String
  /-- The meaning of the types; of several for one type the last counts. -/
  actions : List (UInt32 × RelocationAction)
  deriving DecidableEq, Repr, Inhabited

namespace Processor

/-- The relocations of an ARM. -/
def arm : Processor where
  machine := Machine.arm
  name := "arm"
  actions := [(0, .none), (2, .absolute), (3, .pcRelative), (20, .copy), (21, .symbol),
    (22, .symbol), (23, .relative)]

/-- The relocations of an Intel 80386. -/
def i386 : Processor where
  machine := Machine.i386
  name := "i386"
  actions := [(0, .none), (1, .absolute), (2, .pcRelative), (5, .copy), (6, .symbol),
    (7, .symbol), (8, .relative)]

/-- The relocations of a MIPS. -/
def mips : Processor where
  machine := Machine.mips
  name := "mips"
  actions := [(0, .none), (2, .absolute), (3, .symbolOrRelative), (126, .copy),
    (127, .symbol)]

/-- The relocations of a SPARC. -/
def sparc : Processor where
  machine := Machine.sparc
  name := "sparc"
  actions := [(0, .none), (3, .absolute), (19, .copy), (20, .symbol), (21, .sparcJump),
    (22, .relative), (23, .absolute)]

/-- The relocations of a PowerPC. -/
def powerpc : Processor where
  machine := Machine.powerpc
  name := "powerpc"
  actions := [(0, .none), (1, .absolute), (19, .copy), (20, .symbol), (21, .symbol),
    (22, .relative), (24, .absolute), (26, .pcRelative)]

/-- All processors that are known. -/
def known : List Processor := [arm, i386, mips, sparc, powerpc]

/-- The processor that a header names. -/
def ofMachine? (machine : UInt16) : Option Processor :=
  known.find? fun p => p.machine == machine

/-- Further names of processors. -/
def synonyms : List (String × String) := [("x86", "i386"), ("ppc", "powerpc")]

/-- The processor that a user names; upper and lower case are the same. -/
def ofName? (name : String) : Option Processor :=
  let name := name.toLower
  let name := (synonyms.lookup name).getD name
  known.find? fun p => p.name == name

variable (p : Processor)

/-- The meaning of a type. -/
def action? (type : UInt32) : Option RelocationAction := p.actions.reverse.lookup type

/-- Whether a type copies. The object that asks for a copy must not be its source. -/
def isCopy (type : UInt32) : Bool := p.action? type == some .copy

/-- The changes that a fixup makes. -/
def patches (f : Fixup) : Except LoadError (List Patch) :=
  match p.action? f.type with
  | some action => .ok (f.patches action)
  | none => .error (.unknownRelocation f.type "" 0)

/-- Carries out changes one after the other, up to the first that cannot be made. -/
def applyAll (order : ByteOrder) : List Patch → Stage Memory Unit
  | [] => pure ()
  | patch :: rest => do
    Stage.attempt (patch.apply order)
    applyAll order rest

/-- **Carries out a fixup.** -/
def apply (order : ByteOrder) (f : Fixup) : Stage Memory Unit := do
  applyAll order (← p.patches f)

end Processor

end ElfLoader
