import ElfLoader.Program.Run
import ElfLoader.Proofs.Memory
import ElfLoader.Proofs.Starting

/-!
# What linking does to memory

Linking is a run through all relocations of a program, its *sites*
(`ElfLoader.ObjectGraph.sites`), each of which changes certain bytes
(`ElfLoader.Linker.Writes`). Bytes that no site writes stay as they are, and a word that
just one site writes has the value that its relocation stands for. That value is told by
the memory as it was before linking, although an addend may be read from it at any time in
between: no other site has written it.
-/

namespace ElfLoader

/-! ### Patches -/

/-- Whether a byte belongs to the word at an address. -/
def InWord (address : UInt32) (a : Nat) : Prop := address.toNat ≤ a ∧ a < address.toNat + 4

namespace Patch

variable {order : ByteOrder} {patch : Patch} {m m' : Memory}

/-- Whether a change may change a byte. -/
def Touches (a : Nat) : Patch → Prop
  | word address _ => InWord address a
  | copy _ target length => target.toNat ≤ a ∧ a < target.toNat + length

/-- **A change leaves all bytes alone that it does not touch.** -/
theorem frame (h : patch.apply order m = .ok m') :
    m'.size = m.size ∧ ∀ a, ¬ patch.Touches a → m'.byteAt a = m.byteAt a := by
  cases patch with
  | word address value =>
    refine ⟨Memory.size_of_writeWord h, ?_⟩
    intro a ha
    refine Memory.byteAt_of_writeWord h ?_
    simp only [Touches, InWord] at ha
    omega
  | copy source target length =>
    refine ⟨Memory.size_of_move h, ?_⟩
    intro a ha
    exact (Memory.byteAt_move h a).trans (if_neg ha)

end Patch

namespace Processor

variable {p : Processor} {order : ByteOrder} {f : Fixup} {m m' : Memory} {u : Unit}

/-- **Several changes leave all bytes alone that none of them touches.** -/
theorem frame_applyAll {patches : List Patch} (h : (applyAll order patches).Yields m u m') :
    m'.size = m.size ∧
      ∀ a, (∀ patch ∈ patches, ¬ patch.Touches a) → m'.byteAt a = m.byteAt a := by
  induction patches generalizing m with
  | nil =>
    obtain ⟨-, rfl⟩ := Stage.yields_pure_iff.1 h
    exact ⟨rfl, fun a ha => rfl⟩
  | cons patch rest ih =>
    obtain ⟨_, m₁, hpatch, hrest⟩ := Stage.yields_bind_iff.1 h
    obtain ⟨hsize, hframe⟩ := Patch.frame (Stage.yields_attempt_iff.1 hpatch)
    obtain ⟨hsize', hframe'⟩ := ih hrest
    refine ⟨hsize'.trans hsize, ?_⟩
    intro a ha
    have hothers : ∀ other ∈ rest, ¬ other.Touches a :=
      fun other hother => ha other (List.mem_cons_of_mem patch hother)
    rw [hframe' a hothers, hframe a (ha patch List.mem_cons_self)]

/-- A single change is carried out if it can be made. -/
theorem yields_applyAll_singleton_iff {patch : Patch} :
    (applyAll order [patch]).Yields m u m' ↔ patch.apply order m = .ok m' := by
  refine Stage.yields_bind_iff.trans ⟨?_, fun h => ⟨(), m', Stage.yields_attempt_iff.2 h, rfl, rfl⟩⟩
  rintro ⟨_, m₁, hpatch, hrest⟩
  obtain ⟨-, rfl⟩ := Stage.yields_pure_iff.1 hrest
  exact Stage.yields_attempt_iff.1 hpatch

/-- A fixup carries out the changes of its action. -/
theorem of_apply (h : (p.apply order f).Yields m u m') :
    ∃ action, p.action? f.type = some action ∧
      (applyAll order (f.patches action)).Yields m u m' := by
  obtain ⟨patches, _, hlift, hall⟩ := Stage.yields_bind_iff.1 h
  obtain ⟨hpatches, rfl⟩ := Stage.yields_ofExcept_iff.1 hlift
  change p.patches f = .ok patches at hpatches
  unfold Processor.patches at hpatches
  split at hpatches
  · next action haction =>
    cases hpatches
    exact ⟨action, haction, hall⟩
  · cases hpatches

end Processor

/-! ### What relocations stand for -/

namespace RelocationAction

/-- Whether an action gives one word its value. -/
def isWord : RelocationAction → Bool
  | absolute | relative | symbol | pcRelative | symbolOrRelative => true
  | none | copy | sparcJump => false

/-- **The value that an action gives to a word**, if it gives one: from the symbol *S*, the
addend *A*, the base *B* and the address *P* of the word. -/
def value? (s a b p : UInt32) (hasSymbol : Bool) : RelocationAction → Option UInt32
  | absolute => some (s + a)
  | relative => some (b + a)
  | symbol => some s
  | pcRelative => some (s + a - p)
  | symbolOrRelative => some (if hasSymbol then s + a else b + a)
  | none | copy | sparcJump => Option.none

/-- The change that an action for a word asks for. -/
theorem patches_of_isWord (f : Fixup) {action : RelocationAction} (h : action.isWord) :
    ∃ value, action.value? f.symbolValue f.addend f.base f.patchAddress f.hasSymbol =
        some value ∧
      f.patches action = [.word f.patchAddress value] := by
  cases action <;> first | exact ⟨_, rfl, rfl⟩ | cases h

end RelocationAction

/-! ### Sites -/

/-- A relocation of an object, counted across the object's tables. -/
structure Site where
  /-- The object. -/
  node : Node
  /-- The position of the relocation among those of the object. -/
  index : Nat
  /-- What the relocation says. -/
  entry : RelocationEntry

/-- The address in memory that a relocation is about. -/
def Site.address (s : Site) : UInt32 := s.node.relocate s.entry.offset

/-- Relocations of an object, counted from `index` on. -/
def Node.sitesFrom (n : Node) (index : Nat) : List RelocationEntry → List Site
  | [] => []
  | e :: rest => ⟨n, index, e⟩ :: n.sitesFrom (index + 1) rest

/-- The relocations of an object in the order in which they are applied; none if its
tables cannot be found. -/
def Node.sites (n : Node) : List Site :=
  match n.object.relocationTables.result with
  | .ok tables => n.sitesFrom 0 (tables.flatMap RelocationTable.entries)
  | .error _ => []

/-- The relocations of an object, once those in its tables are known. -/
theorem Node.sites_eq {n : Node} {entries : List RelocationEntry}
    (h : n.object.relocationTables.result.toOption.map (List.flatMap RelocationTable.entries) =
      some entries) :
    n.sites = n.sitesFrom 0 entries ∧ ∃ tables, n.object.relocationTables.result = .ok tables := by
  unfold sites
  cases hresult : n.object.relocationTables.result with
  | error e =>
    rw [hresult] at h
    cases h
  | ok tables =>
    rw [hresult] at h
    exact ⟨congrArg (n.sitesFrom 0) (Option.some.inj h), tables, rfl⟩

/-- **The relocations of a program** in the order in which they are applied. -/
def ObjectGraph.sites (g : ObjectGraph) : List Site := g.toList.flatMap Node.sites

namespace Linker

variable {k : Linker} {s : Site} {n : Node} {sites before after : List Site} {m m' : Memory}

/-- **Whether a relocation may change a byte.** Most actions change the word at their
address. A copy changes as many bytes as its symbol has, if there is something to copy, and
a jump changes the two words behind its address. -/
def Writes (k : Linker) (s : Site) (a : Nat) : Prop :=
  match k.processor.action? s.entry.type with
  | none | some .none => False
  | some .copy => ∃ d, (k.target s.node s.entry s.index).result = .ok (some d) ∧
      d.address ≠ 0 ∧ s.address.toNat ≤ a ∧ a < s.address.toNat + d.size.toNat
  | some .sparcJump => InWord (s.address + 4) a ∨ InWord (s.address + 8) a
  | some _ => InWord s.address a

/-- **A relocation that is carried out** has an addend, a definition or none, and an action
whose changes are made. -/
theorem of_linkEntry {u : Unit} (h : (k.linkEntry s.node s.index s.entry).Yields m u m') :
    ∃ addend d action, k.addend s.node s.entry m = .ok addend ∧
      (k.target s.node s.entry s.index).result = .ok d ∧
      k.processor.action? s.entry.type = some action ∧
      (Processor.applyAll k.order ((fixup s.node s.entry addend d).patches action)).Yields
        m u m' := by
  simp only [linkEntry, Stage.yields_bind_iff, Stage.yields_state_iff, Stage.yields_ofExcept_iff,
    Stage.yields_ofReport_iff, Stage.yields_rewording_iff] at h
  obtain ⟨_, _, ⟨rfl, rfl⟩, addend, _, ⟨haddend, rfl⟩, d, _, ⟨hd, rfl⟩, happly⟩ := h
  obtain ⟨action, haction, hall⟩ := Processor.of_apply happly
  exact ⟨addend, d, action, haddend, hd, haction, hall⟩

/-- The changes of a relocation touch what it writes. -/
theorem writes_of_touches {addend : UInt32} {d : Option Definition} {action : RelocationAction}
    {patch : Patch} {a : Nat} (hd : (k.target s.node s.entry s.index).result = .ok d)
    (haction : k.processor.action? s.entry.type = some action)
    (hpatch : patch ∈ (fixup s.node s.entry addend d).patches action)
    (ha : patch.Touches a) : k.Writes s a := by
  unfold Writes
  rw [haction]
  cases action with
  | none => cases hpatch
  | copy =>
    dsimp only [Fixup.patches] at hpatch
    split at hpatch
    · next hsome =>
      -- an address other than zero comes from a definition
      obtain rfl := List.mem_singleton.1 hpatch
      cases d with
      | none => exact absurd rfl hsome.1
      | some d => exact ⟨d, hd, hsome.1, ha⟩
    · cases hpatch
  | sparcJump =>
    -- the second of the two words is written first
    rcases List.mem_cons.1 hpatch with rfl | hpatch
    · exact .inr ha
    · obtain rfl := List.mem_singleton.1 hpatch
      exact .inl ha
  | _ =>
    obtain rfl := List.mem_singleton.1 hpatch
    exact ha

/-- **A relocation leaves all bytes alone that it does not write.** -/
theorem frame_linkEntry {u : Unit} (h : (k.linkEntry s.node s.index s.entry).Yields m u m') :
    m'.size = m.size ∧ ∀ a, ¬ k.Writes s a → m'.byteAt a = m.byteAt a := by
  obtain ⟨addend, d, action, -, hd, haction, hall⟩ := of_linkEntry h
  obtain ⟨hsize, hframe⟩ := Processor.frame_applyAll hall
  refine ⟨hsize, ?_⟩
  intro a ha
  refine hframe a ?_
  intro patch hpatch htouches
  exact ha (writes_of_touches hd haction hpatch htouches)

/-- **A relocation of one word gives it its value.** -/
theorem readWord_of_linkEntry {u : Unit}
    (h : (k.linkEntry s.node s.index s.entry).Yields m u m')
    {action : RelocationAction} (haction : k.processor.action? s.entry.type = some action)
    (hword : action.isWord) :
    ∃ d addend value, (k.target s.node s.entry s.index).result = .ok d ∧
      k.addend s.node s.entry m = .ok addend ∧
      action.value? (d.elim 0 (·.address)) addend s.node.base s.address
        (s.entry.symbolIndex ≠ 0) = some value ∧
      m'.readWord s.address k.order = .ok value := by
  obtain ⟨addend, d, action', haddend, hd, haction', hall⟩ := of_linkEntry h
  obtain rfl : action = action' := Option.some.inj (haction.symm.trans haction')
  obtain ⟨value, hvalue, hpatches⟩ :=
    RelocationAction.patches_of_isWord (fixup s.node s.entry addend d) hword
  have hsymbol : (fixup s.node s.entry addend d).symbolValue = d.elim 0 (·.address) := by
    cases d <;> rfl
  rw [hsymbol] at hvalue
  rw [hpatches] at hall
  exact ⟨d, addend, value, hd, haddend, hvalue,
    Memory.readWord_writeWord (Processor.yields_applyAll_singleton_iff.1 hall)⟩

/-! ### Runs through sites -/

/-- **A run through sites**, one relocation after the other. -/
inductive Links (k : Linker) : List Site → Memory → Memory → Prop
  /-- There is no site left. -/
  | done (m : Memory) : Links k [] m m
  /-- The relocation at the first site is carried out. -/
  | step {s : Site} {rest : List Site} {m m₁ m' : Memory}
    (first : (k.linkEntry s.node s.index s.entry).Yields m () m₁) (others : Links k rest m₁ m') :
    Links k (s :: rest) m m'

namespace Links

/-- A run through two lists of sites is a run through the first and then the second. -/
theorem append_iff : k.Links (before ++ after) m m' ↔
    ∃ m₁, k.Links before m m₁ ∧ k.Links after m₁ m' := by
  constructor
  · intro h
    induction before generalizing m with
    | nil => exact ⟨m, .done m, h⟩
    | cons s before ih =>
      cases h with
      | step first others =>
        obtain ⟨m₁, hbefore, hafter⟩ := ih others
        exact ⟨m₁, .step first hbefore, hafter⟩
  · rintro ⟨m₁, hbefore, hafter⟩
    induction hbefore with
    | done m => exact hafter
    | step first others ih => exact .step first (ih hafter)

/-- **A run leaves all bytes alone that none of its sites writes.** -/
theorem frame (h : k.Links sites m m') :
    m'.size = m.size ∧ ∀ a, (∀ s ∈ sites, ¬ k.Writes s a) → m'.byteAt a = m.byteAt a := by
  induction h with
  | done m => exact ⟨rfl, fun a ha => rfl⟩
  | @step s rest m m₁ m' first others ih =>
    obtain ⟨hsize, hframe⟩ := frame_linkEntry first
    obtain ⟨hsize', hframe'⟩ := ih
    refine ⟨hsize'.trans hsize, ?_⟩
    intro a ha
    have hothers : ∀ t ∈ rest, ¬ k.Writes t a := fun t ht => ha t (List.mem_cons_of_mem s ht)
    rw [hframe' a hothers, hframe a (ha s List.mem_cons_self)]

/-- A word that none of the sites of a run writes stays as it is. -/
theorem readWord_eq (h : k.Links sites m m') {address : UInt32}
    (ha : ∀ s ∈ sites, ∀ a, InWord address a → ¬ k.Writes s a) (order : ByteOrder) :
    m'.readWord address order = m.readWord address order := by
  obtain ⟨hsize, hframe⟩ := h.frame
  refine Memory.readWord_congr hsize ?_ order
  intro a hlow hhigh
  exact hframe a fun s hs => ha s hs a ⟨hlow, hhigh⟩

/-- **A word that just one site of a run writes** has its value in the end, and this value
is told by the memory at the start. -/
theorem readWord_of_split (h : k.Links (before ++ s :: after) m m') {action : RelocationAction}
    (haction : k.processor.action? s.entry.type = some action) (hword : action.isWord)
    (hothers : ∀ t ∈ before ++ after, ∀ a, InWord s.address a → ¬ k.Writes t a) :
    ∃ d addend value, (k.target s.node s.entry s.index).result = .ok d ∧
      k.addend s.node s.entry m = .ok addend ∧
      action.value? (d.elim 0 (·.address)) addend s.node.base s.address
        (s.entry.symbolIndex ≠ 0) = some value ∧
      m'.readWord s.address k.order = .ok value := by
  obtain ⟨m₁, hbefore, hrest⟩ := append_iff.1 h
  cases hrest with
  | @step _ _ _ m₂ _ first others =>
    obtain ⟨d, addend, value, hd, haddend, hvalue, hread⟩ :=
      readWord_of_linkEntry first haction hword
    refine ⟨d, addend, value, hd, ?_, hvalue, ?_⟩
    · -- an implicit addend is the word that the sites before this one have left alone
      unfold Linker.addend at haddend ⊢
      split at haddend
      · exact haddend
      · have hsame := hbefore.readWord_eq (fun t ht => hothers t (List.mem_append_left _ ht))
          k.order
        exact hsame.symm.trans haddend
    · rwa [others.readWord_eq fun t ht => hothers t (List.mem_append_right _ ht)]

end Links

/-! ### Linking is such a run -/

theorem links_of_linkEntries {u : Unit} {index : Nat} {entries : List RelocationEntry}
    (h : (k.linkEntries n index entries).Yields m u m') :
    k.Links (n.sitesFrom index entries) m m' := by
  induction entries generalizing m index with
  | nil =>
    obtain ⟨-, rfl⟩ := Stage.yields_pure_iff.1 h
    exact .done m
  | cons e rest ih =>
    obtain ⟨_, m₁, hentry, hrest⟩ := Stage.yields_bind_iff.1 h
    exact .step hentry (ih hrest)

theorem links_of_linkNode {count : Nat} (h : (k.linkNode n).Yields m count m') :
    k.Links n.sites m m' := by
  obtain ⟨tables, _, htables, hrest⟩ := Stage.yields_bind_iff.1 h
  obtain ⟨hresult, rfl⟩ := Stage.yields_ofReport_iff.1 htables
  obtain ⟨_, m₁, hentries, hlast⟩ := Stage.yields_bind_iff.1 hrest
  obtain ⟨-, rfl⟩ := Stage.yields_pure_iff.1 hlast
  rw [Node.sites, hresult]
  exact links_of_linkEntries hentries

theorem links_of_linkAll {nodes : List Node} {count : Nat}
    (h : (k.linkAll nodes).Yields m count m') : k.Links (nodes.flatMap Node.sites) m m' := by
  induction nodes generalizing m count with
  | nil =>
    obtain ⟨-, rfl⟩ := Stage.yields_pure_iff.1 h
    exact .done m
  | cons n rest ih =>
    obtain ⟨_, m₁, hnode, hrest⟩ := Stage.yields_bind_iff.1 h
    obtain ⟨_, m₂, hothers, hlast⟩ := Stage.yields_bind_iff.1 hrest
    obtain ⟨-, rfl⟩ := Stage.yields_pure_iff.1 hlast
    rw [List.flatMap_cons]
    exact Links.append_iff.2 ⟨m₁, links_of_linkNode hnode, ih hothers⟩

end Linker

namespace Loader

variable {l l' : Loader} {count : Nat}

/-- **The third phase** is a run through all sites and changes nothing but the memory. -/
theorem links_of_link (h : link.Yields l count l') :
    ∃ memory, l.linker.Links l.graph.sites l.memory memory ∧
      l' = { l with memory, phase := .linked } := by
  simp only [link, Stage.yields_bind_iff, yields_enter_iff, Stage.yields_state_iff,
    Stage.yields_within_iff, Stage.yields_update_iff, Stage.yields_pure_iff] at h
  obtain ⟨_, _, ⟨-, rfl⟩, _, _, ⟨rfl, rfl⟩, _, _, ⟨memory, hall, rfl⟩, _, _, rfl, -, rfl⟩ := h
  exact ⟨memory, Linker.links_of_linkAll hall, rfl⟩

end Loader

/-! ### One relocation -/

/-- A shared object of one segment whose only relocation adds the base to the word behind
the tables. -/
def relativeWord : ByteArray := ⟨#[
  0x7f, 0x45, 0x4c, 0x46, 1, 1, 1, 0, 0, 0, 0, 0, 0, 0, 0, 0,
  3, 0, 40, 0, 1, 0, 0, 0, 0, 0, 0, 0, 52, 0, 0, 0, 0, 0, 0, 0, 0, 0, 0, 0,
  52, 0, 32, 0, 2, 0, 40, 0, 0, 0, 0, 0,
  1, 0, 0, 0, 0, 0, 0, 0, 0, 0, 0, 0, 0, 0, 0, 0,
  152, 0, 0, 0, 152, 0, 0, 0, 7, 0, 0, 0, 0, 16, 0, 0,
  2, 0, 0, 0, 116, 0, 0, 0, 116, 0, 0, 0, 0, 0, 0, 0,
  24, 0, 0, 0, 24, 0, 0, 0, 6, 0, 0, 0, 4, 0, 0, 0,
  17, 0, 0, 0, 140, 0, 0, 0, 18, 0, 0, 0, 8, 0, 0, 0,
  0, 0, 0, 0, 0, 0, 0, 0,
  148, 0, 0, 0, 23, 0, 0, 0,
  16, 0, 0, 0]⟩

/-- The object in the file, at the first page behind the guard page. -/
def relativeNode : Node where
  key := Key.ofNat 0
  name := "a"
  object := (Object.open ⟨[(["a"], .file relativeWord)], [], []⟩ "a" 4096).result.toOption.get
    (by decide +kernel)
  base := 4096
  deps := []

/-- The relocation. -/
def relativeSite : Site := ⟨relativeNode, 0, ⟨148, 23, none⟩⟩

namespace Loader

/-- The only entry of its tables. -/
theorem tables_relativeNode :
    relativeNode.object.relocationTables.result.toOption.map
      (List.flatMap RelocationTable.entries) = some [⟨148, 23, none⟩] := by
  decide +kernel

end Loader

end ElfLoader
