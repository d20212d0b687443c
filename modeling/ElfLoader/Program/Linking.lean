import ElfLoader.Program.Resolution

/-!
# Applying relocations

Linking goes through the relocations of all objects, in load order, table by table
and entry by entry, and carries out each of them once. It changes nothing but the
memory, so it is work on the memory alone (`ElfLoader.Linker.linkAll`); what it looks
symbols up in stays the same throughout.

Relocations are counted across the tables of an object, and an error says which one
it is about.
-/

namespace ElfLoader

/-- All that linking depends on, besides the memory. -/
structure Linker where
  /-- What relocations mean. -/
  processor : Processor
  /-- What symbols are looked up in. -/
  scope : Scope
  /-- The byte order of the program. -/
  order : ByteOrder

namespace Linker

variable (k : Linker)

/-- The addend of an entry. In the implicit form it is the word that is patched. -/
def addend (n : Node) (e : RelocationEntry) (m : Memory) : Except LoadError UInt32 :=
  match e.addend with
  | some a => .ok a
  | none => m.readWord (n.relocate e.offset) k.order

/-- What the symbol of an entry is bound to; nothing if it names no symbol. -/
def target (n : Node) (e : RelocationEntry) (index : Nat) : Report (Option Definition) :=
  if e.symbolIndex = 0 then pure none
  else k.scope.resolve n e.symbolIndex (k.processor.isCopy e.type) index

/-- The fixup of an entry with an addend and a definition. -/
def fixup (n : Node) (e : RelocationEntry) (addend : UInt32) (d : Option Definition) : Fixup where
  patchAddress := n.relocate e.offset
  type := e.type
  symbolValue := match d with
    | some d => d.address
    | none => 0
  symbolSize := match d with
    | some d => d.size
    | none => 0
  addend
  base := n.base
  hasSymbol := e.symbolIndex ≠ 0

/-- Carries out one relocation. -/
def linkEntry (n : Node) (index : Nat) (e : RelocationEntry) : Stage Memory Unit := do
  let m ← Stage.state
  let addend ← Stage.ofExcept (k.addend n e m)
  let d ← Stage.ofReport (k.target n e index)
  (k.processor.apply k.order (fixup n e addend d)).rewording (LoadError.inRelocation n.name index)

/-- Carries out relocations, counted from `index` on. -/
def linkEntries (n : Node) (index : Nat) : List RelocationEntry → Stage Memory Unit
  | [] => pure ()
  | e :: rest => do
    k.linkEntry n index e
    linkEntries n (index + 1) rest

/-- Carries out the relocations of an object. Gives their number. -/
def linkNode (n : Node) : Stage Memory Nat := do
  let tables ← Stage.ofReport n.object.relocationTables
  let entries := tables.flatMap RelocationTable.entries
  k.linkEntries n 0 entries
  return entries.length

/-- **Carries out the relocations of objects**, one object after the other. Gives their
number. -/
def linkAll : List Node → Stage Memory Nat
  | [] => pure 0
  | n :: rest => do
    let count ← k.linkNode n
    let others ← linkAll rest
    return count + others

end Linker

end ElfLoader
