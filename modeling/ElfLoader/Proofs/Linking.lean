import ElfLoader.Proofs.Binding
import ElfLoader.Proofs.Fixups
import ElfLoader.Proofs.LinkSteps
import ElfLoader.Proofs.OneLibrary

/-!
# Linking a program

Linking gives a word that just one relocation writes the value of that relocation, and leaves all
bytes alone that no relocation writes (`ElfLoader.Loader.memory_of_link`). It takes its steps in
turn, up to the first that fails (`ElfLoader.Loader.steps_of_link`).

The program that is linked here is that of an executable which copies a variable of its library.
The copy is the first relocation, and it is followed by one of the library, for the variable
itself. A processor that does not know the type of the second stops there
(`ElfLoader.Linker.unknown_of_linkEntry`).
-/

namespace ElfLoader

/-- **A relocation of a type without a meaning** fails and changes nothing. -/
theorem Linker.unknown_of_linkEntry {k : Linker} {s : Site} {m : Memory} {addend : UInt32}
    {d : Option Definition} (haddend : k.addend s.node s.entry m = .ok addend)
    (hd : (k.target s.node s.entry s.index).result = .ok d)
    (htype : k.processor.action? s.entry.type = none) :
    ((k.linkEntry s.node s.index s.entry).run m).result =
        .error (.unknownRelocation s.entry.type s.node.name s.index) ∧
      ((k.linkEntry s.node s.index s.entry).run m).state = m := by
  have hrun : ((k.processor.apply k.order (fixup s.node s.entry addend d)).rewording
      (LoadError.inRelocation s.node.name s.index)).run m =
        ⟨.error (.unknownRelocation s.entry.type s.node.name s.index), m, []⟩ := by
    have happly : (k.processor.apply k.order (fixup s.node s.entry addend d)).run m =
        ⟨.error (.unknownRelocation s.entry.type "" 0), m, []⟩ :=
      Processor.run_apply_of_none htype
    unfold Stage.run at happly ⊢
    rw [Stage.rewording, happly]
    rfl
  have hread : (Stage.ofExcept (k.addend s.node s.entry m)).run m = ⟨.ok addend, m, []⟩ := by
    rw [Stage.run_ofExcept, haddend]
  have htarget : (Stage.ofReport (k.target s.node s.entry s.index)).run m =
      ⟨.ok d, m, (k.target s.node s.entry s.index).notices⟩ := by
    rw [Stage.run_ofReport, hd]
  rw [linkEntry, Stage.run_bind_of_ok (Stage.run_state m), Stage.run_bind_of_ok hread,
    Stage.run_bind_of_ok htarget, hrun]
  exact ⟨rfl, rfl⟩

/-! ### A program with a copy -/

/-- The copy. -/
def copySite : Site := ⟨copyRoot, 0, ⟨240, 276, some 0⟩⟩

/-- The relocation of the variable. -/
def copiedSite : Site := ⟨copyNode, 0, ⟨228, 23, some 232⟩⟩

/-- What is in the executable, and where it lies. -/
theorem copyRoot_facts : (copyExecutable.symbols.get? 1 =
        some ⟨"v", 240, 4, .object, .global, .standard, .sectionAt 1⟩ ∧
      copyExecutable.versions.requested? 1 = none ∧
      copyExecutable.relocationTables.result.toOption.map (List.flatMap RelocationTable.entries) =
        some [⟨240, 276, some 0⟩]) ∧
    copySite.address = 0x10f0 ∧
    copyExecutable.byteAt? (copyRoot.linkAddress 0x10f4) = some 0xff := by
  decide +kernel

/-- What is in the library, and where it lies. -/
theorem copyNode_facts :
    (Scope.offersIn SymbolTable.isListed "v" copyNode = [⟨⟨0x20e4, 8⟩, none, "d/b"⟩] ∧
      copyLibrary.relocationTables.result.toOption.map (List.flatMap RelocationTable.entries) =
        some [⟨228, 23, some 232⟩]) ∧
    copiedSite.address = 0x20e4 ∧ copyNode.base = 0x2000 ∧
    copyLibrary.byteAt? (copyNode.linkAddress 0x20e4) = some 0 ∧
    copyLibrary.byteAt? (copyNode.linkAddress 0x20e8) = some 0x63 := by
  decide +kernel

/-- The only relocation of the executable. -/
theorem sites_copyRoot : copyRoot.sites = [copySite] ∧
    ∃ tables, copyRoot.object.relocationTables.result = .ok tables := by
  obtain ⟨⟨-, -, hentries⟩, -⟩ := copyRoot_facts
  exact Node.sites_eq (n := copyRoot) hentries

/-- The only relocation of the library. -/
theorem sites_copyNode : copyNode.sites = [copiedSite] ∧
    ∃ tables, copyNode.object.relocationTables.result = .ok tables := by
  obtain ⟨⟨-, hentries⟩, -⟩ := copyNode_facts
  exact Node.sites_eq (n := copyNode) hentries

/-- The variable is what the library exports under its name. -/
theorem resolve_copy {scope : Scope} (h : scope.graph.toList = [copyRoot, copyNode]) :
    (scope.resolve copyRoot 1 true 0).result = .ok (some ⟨0x20e4, 8⟩) := by
  obtain ⟨⟨hget, hrequested, -⟩, -⟩ := copyRoot_facts
  obtain ⟨⟨hoffers, -⟩, -⟩ := copyNode_facts
  have hcandidates : scope.candidates "v" (some copyRoot.key) =
      [⟨⟨0x20e4, 8⟩, none, "d/b"⟩] := by
    rw [show some copyRoot.key = if true then some copyRoot.key else none from rfl,
      scope.candidates_eq, Scope.offers, h, ← hoffers]
    exact List.append_nil _
  change copyRoot.object.symbols.get? 1 = _ at hget
  change copyRoot.object.versions.requested? 1 = _ at hrequested
  unfold Scope.resolve
  rw [hget]
  dsimp only
  rw [Bool.not_true, Bool.and_false, if_neg Bool.false_ne_true, if_pos rfl, hrequested,
    hcandidates]
  rfl

/-- **A loader has loaded the program**, for a processor that knows copies: its objects and the
bytes of the variable, and those behind what the executable has set aside for it. -/
structure CopyLoaded (l : Loader) : Prop where
  phase_eq : l.phase = .loaded
  action?_copySite : l.processor.action? copySite.entry.type = some .copy
  order_eq : l.order = .little
  toList_eq : l.graph.toList = [copyRoot, copyNode]
  size_memory : l.memory.size = 0x100000
  byteAt_address : l.memory.byteAt 0x20e4 = 0
  byteAt_letter : l.memory.byteAt 0x20e8 = 0x63
  byteAt_behind : l.memory.byteAt 0x10f4 = 0xff

/-- **The program is loaded** by every ARM that knows copies, whatever memory holds at first. -/
theorem Loader.exists_copyLoaded (processor : Processor) (memory : Memory)
    (hprocessor : processor.machine = Machine.arm)
    (haction : processor.action? copySite.entry.type = some .copy)
    (hmemory : memory.size = 0x100000) :
    ∃ entry l l', (initiate copyFiles "a").Yields (new .standard processor memory) entry l ∧
      (loadLibraries copyFiles).Yields l () l' ∧ CopyLoaded l' ∧ l'.processor = processor := by
  obtain ⟨hrange, hrange'⟩ := ranges_copy
  obtain ⟨-, -, hbehind⟩ := copyRoot_facts
  obtain ⟨-, -, -, haddress, hletter⟩ := copyNode_facts
  obtain ⟨entry, l, l', hinitiate, -, hload, hphase, hl', horder, -, hlist⟩ :=
    exists_phases_copy processor memory hprocessor hmemory
  obtain ⟨_, _, -, -, -, horderly⟩ := serves_of_phases hinitiate hload
  have hbytes : ∀ n ∈ l'.graph.toList, ∀ a, n.Holds a → l'.memory.byteAt a =
      (n.object.byteAt? (n.linkAddress a)).getD (memory.byteAt a) :=
    fun n hn => horderly.held n.settled (List.mem_map_of_mem hn)
  have hroot : copyRoot ∈ l'.graph.toList := hlist ▸ List.mem_cons_self
  have hnode : copyNode ∈ l'.graph.toList := hlist ▸ List.mem_cons_of_mem _ List.mem_cons_self
  have hheld : copyRoot.Holds 0x10f4 := by
    unfold Node.Holds
    rw [hrange]
    decide
  have hheld' : copyNode.Holds 0x20e4 ∧ copyNode.Holds 0x20e8 := by
    unfold Node.Holds
    rw [hrange']
    decide
  refine ⟨entry, l, l', hinitiate, hload, ⟨hphase, hl' ▸ haction, horder, hlist,
    horderly.size_memory.trans hmemory, ?_, ?_, ?_⟩, hl'⟩
  · exact (hbytes _ hnode 0x20e4 hheld'.1).trans (congrArg (Option.getD · _) haddress)
  · exact (hbytes _ hnode 0x20e8 hheld'.2).trans (congrArg (Option.getD · _) hletter)
  · exact (hbytes _ hroot 0x10f4 hheld).trans (congrArg (Option.getD · _) hbehind)

/-- The relocations of an ARM give both types of the program a meaning. -/
theorem Loader.exists_copyLoaded_arm (memory : Memory) (hmemory : memory.size = 0x100000) :
    ∃ entry l l', (initiate copyFiles "a").Yields (new .standard .arm memory) entry l ∧
      (loadLibraries copyFiles).Yields l () l' ∧ CopyLoaded l' ∧
      l'.processor.action? copiedSite.entry.type = some .relative := by
  obtain ⟨entry, l, l', hinitiate, hload, h, hprocessor⟩ :=
    exists_copyLoaded .arm memory rfl (by decide +kernel) hmemory
  refine ⟨entry, l, l', hinitiate, hload, h, ?_⟩
  rw [hprocessor]
  decide +kernel

namespace CopyLoaded

variable {l : Loader} (h : CopyLoaded l)

include h

/-- The copy comes first, and then the relocation of the variable. -/
theorem sites_eq : l.graph.sites = [copySite, copiedSite] := by
  rw [ObjectGraph.sites, h.toList_eq, List.flatMap_cons, List.flatMap_singleton,
    sites_copyRoot.1, sites_copyNode.1]
  rfl

/-- The copy is bound to the variable of the library. -/
theorem target_copySite :
    (l.linker.target copySite.node copySite.entry copySite.index).result =
      .ok (some ⟨0x20e4, 8⟩) := by
  have hcopy : l.linker.processor.isCopy copySite.entry.type = true := by
    rw [Processor.isCopy, show l.linker.processor.action? _ = _ from h.action?_copySite]
    rfl
  rw [Linker.target, if_neg (by decide), hcopy]
  exact resolve_copy h.toList_eq

/-- The copy writes no other byte than its target. -/
theorem not_writes_copySite {a : Nat} (ha : a < 0x10f0 ∨ 0x10f8 ≤ a) :
    ¬ l.linker.Writes copySite a := by
  obtain ⟨-, haddress, -⟩ := copyRoot_facts
  unfold Linker.Writes
  rw [show l.linker.processor.action? _ = _ from h.action?_copySite]
  rintro ⟨d, hd, -, hlow, hhigh⟩
  obtain rfl := Option.some.inj (Except.ok.inj (hd.symm.trans h.target_copySite))
  rw [haddress] at hlow hhigh
  change 0x10f0 ≤ a at hlow
  change a < 0x10f0 + 8 at hhigh
  omega

/-- **The copy can be made** in every memory of the size. -/
theorem exists_copy {m : Memory} (hm : m.size = 0x100000) :
    ∃ m', (l.linker.linkEntry copySite.node copySite.index copySite.entry).Yields m () m' := by
  obtain ⟨-, haddress, -⟩ := copyRoot_facts
  obtain ⟨m', hmove⟩ : ∃ m', m.move 0x20e4 0x10f0 8 = .ok m' :=
    Memory.exists_move (hm ▸ by decide) (hm ▸ by decide)
  refine ⟨m', Linker.yields_linkEntry rfl h.target_copySite h.action?_copySite ?_⟩
  have hpatches : (Linker.fixup copySite.node copySite.entry 0 (some ⟨0x20e4, 8⟩)).patches .copy =
      [.copy 0x20e4 copySite.address 8] := rfl
  rw [hpatches, haddress]
  exact Processor.yields_applyAll_singleton_iff.2 hmove

/-- There are four steps to linking. -/
theorem linkSteps_eq : l.graph.linkSteps =
    [.setUp copyRoot, .relocate copySite, .setUp copyNode, .relocate copiedSite] := by
  rw [ObjectGraph.linkSteps, h.toList_eq, List.flatMap_cons, List.flatMap_singleton,
    Node.linkSteps, Node.linkSteps, sites_copyRoot.1, sites_copyNode.1]
  rfl

section Relative

variable (haction : l.processor.action? copiedSite.entry.type = some .relative)

include haction

omit h in
/-- The relocation of the variable writes no other byte. -/
theorem not_writes_copiedSite {a : Nat} (ha : a < 0x20e4 ∨ 0x20e8 ≤ a) :
    ¬ l.linker.Writes copiedSite a := by
  obtain ⟨-, haddress, -⟩ := copyNode_facts
  unfold Linker.Writes
  rw [show l.linker.processor.action? _ = _ from haction]
  change ¬ InWord copiedSite.address a
  rw [haddress]
  rintro ⟨hlow, hhigh⟩
  change 0x20e4 ≤ a at hlow
  change a < 0x20e4 + 4 at hhigh
  omega

/-- **The variable can be relocated** in every memory of the size. Its first byte is then that of
the address of the letters. -/
theorem exists_relocation {m : Memory} (hm : m.size = 0x100000) :
    ∃ m', (l.linker.linkEntry copiedSite.node copiedSite.index copiedSite.entry).Yields m () m' ∧
      m'.byteAt 0x20e4 = 0xe8 := by
  obtain ⟨-, haddress, hbase, -⟩ := copyNode_facts
  obtain ⟨m', hwrite⟩ : ∃ m', m.writeWord 0x20e4 0x20e8 l.linker.order = .ok m' :=
    ⟨_, Memory.writeWord_eq_ok_iff.2 ⟨hm ▸ by decide, rfl⟩⟩
  refine ⟨m', Linker.yields_linkEntry rfl (d := none) rfl haction ?_, ?_⟩
  · have hpatches : (Linker.fixup copiedSite.node copiedSite.entry 232 none).patches .relative =
        [.word copiedSite.address (copyNode.base + 232)] := rfl
    rw [hpatches, haddress, hbase]
    exact Processor.yields_applyAll_singleton_iff.2 hwrite
  · obtain ⟨-, rfl⟩ := Memory.writeWord_eq_ok_iff.1 hwrite
    rw [show l.linker.order = .little from h.order_eq, Memory.byteAt_store]
    rfl

/-- **The program is linked**: the copy is made, and then the variable is relocated. -/
theorem exists_link : ∃ m m', (l.linker.linkEntry copySite.node copySite.index
        copySite.entry).Yields l.memory () m ∧
      (l.linker.linkEntry copiedSite.node copiedSite.index copiedSite.entry).Yields m () m' ∧
      m'.byteAt 0x20e4 = 0xe8 ∧
      Loader.link.Yields l 2 { l with memory := m', phase := .linked } := by
  obtain ⟨m, hcopy⟩ := h.exists_copy h.size_memory
  obtain ⟨hsize, -⟩ := Linker.frame_linkEntry hcopy
  obtain ⟨m', hrelocation, hbyte⟩ := h.exists_relocation haction (hsize.trans h.size_memory)
  have hlinks : l.linker.Links l.graph.sites l.memory m' := by
    rw [h.sites_eq]
    exact .step hcopy (.step hrelocation (.done m'))
  have htables : ∀ n ∈ l.graph.toList, ∃ tables, n.object.relocationTables.result = .ok tables := by
    rw [h.toList_eq, List.forall_mem_cons, List.forall_mem_singleton]
    exact ⟨sites_copyRoot.2, sites_copyNode.2⟩
  have hlink := Loader.link_of_links h.phase_eq htables hlinks
  rw [h.sites_eq] at hlink
  exact ⟨m, m', hcopy, hrelocation, hbyte, hlink⟩

end Relative

end CopyLoaded

/-! ### What linking does to memory -/

/-- What holds at all other positions of a list holds of what stands before and behind one. -/
theorem forall_mem_others {sites : List Site} {i : Nat} {P : Site → Prop}
    (h : ∀ (j : Nat) (t : Site), sites[j]? = some t → j ≠ i → P t) :
    ∀ t ∈ sites.take i ++ sites.drop (i + 1), P t := by
  intro t ht
  rcases List.mem_append.1 ht with ht | ht
  · obtain ⟨j, hj, rfl⟩ := List.mem_take_iff_getElem.1 ht
    exact h j _ (List.getElem?_eq_getElem _) (by omega)
  · obtain ⟨j, hj, rfl⟩ := List.mem_drop_iff_getElem.1 ht
    exact h (i + 1 + j) _ (List.getElem?_eq_getElem _) (by omega)

namespace Loader

variable {l l' : Loader} {count : Nat}

/-- **What linking does to memory.** A relocation of one word, which no other relocation
writes, gives the word the value of its action, where the symbol is what resolving gives,
and an implicit addend is the word that was there before linking. All bytes that no
relocation writes stay as they are. -/
theorem memory_of_link (h : link.Yields l count l') :
    (∀ (i : Nat) (s : Site) (action : RelocationAction), l.graph.sites[i]? = some s →
      l.processor.action? s.entry.type = some action → action.isWord →
      (∀ (j : Nat) (t : Site), l.graph.sites[j]? = some t → j ≠ i →
        ∀ a, InWord s.address a → ¬ l.linker.Writes t a) →
      ∃ d addend value, (l.linker.target s.node s.entry s.index).result = .ok d ∧
        l.linker.addend s.node s.entry l.memory = .ok addend ∧
        action.value? (d.elim 0 (·.address)) addend s.node.base s.address
          (s.entry.symbolIndex ≠ 0) = some value ∧
        l'.memory.readWord s.address l.order = .ok value) ∧
    ∀ a, (∀ s ∈ l.graph.sites, ¬ l.linker.Writes s a) →
      l'.memory.byteAt a = l.memory.byteAt a := by
  obtain ⟨memory, hlinks, rfl⟩ := links_of_link h
  refine ⟨?_, hlinks.frame.2⟩
  intro i s action hs haction hword hothers
  -- the run is split at the site, and all sites before and behind it have other positions
  obtain ⟨hi, rfl⟩ := List.getElem?_eq_some_iff.1 hs
  have hsplit : l.graph.sites = l.graph.sites.take i ++ l.graph.sites[i] ::
      l.graph.sites.drop (i + 1) := by
    rw [List.getElem_cons_drop, List.take_append_drop]
  rw [hsplit] at hlinks
  exact hlinks.readWord_of_split haction hword (forall_mem_others hothers)

/-- **The word that the library relocates** becomes the address of the letters behind it. Of the
other bytes only those of the copy can change, whatever memory holds there. -/
theorem memory_of_link_copyFiles : ∃ entry l l' count l'',
    (initiate copyFiles "a").Yields (new .standard .arm litteredMemory) entry l ∧
      (loadLibraries copyFiles).Yields l () l' ∧ link.Yields l' count l'' ∧
      l''.memory.readWord 0x20e4 .little = .ok 0x20e8 ∧
      ∀ a, (a < 0x10f0 ∨ 0x10f8 ≤ a) → (a < 0x20e4 ∨ 0x20e8 ≤ a) →
        l''.memory.byteAt a = l'.memory.byteAt a := by
  obtain ⟨entry, l, l', hinitiate, hload, h, haction⟩ :=
    exists_copyLoaded_arm litteredMemory size_litteredMemory
  obtain ⟨m, m', -, -, -, hlink⟩ := h.exists_link haction
  obtain ⟨-, haddress, hbase, -⟩ := copyNode_facts
  obtain ⟨hwords, hrest⟩ := memory_of_link hlink
  have hothers : ∀ (j : Nat) (t : Site), l'.graph.sites[j]? = some t → j ≠ 1 →
      ∀ a, InWord copiedSite.address a → ¬ l'.linker.Writes t a := by
    intro j t ht hj a ha
    rw [h.sites_eq] at ht
    rcases j with _ | _ | j
    · obtain rfl := Option.some.inj ht
      rw [haddress] at ha
      exact h.not_writes_copySite (.inr (le_trans (by decide) ha.1))
    · exact absurd rfl hj
    · cases ht
  refine ⟨entry, l, l', _, _, hinitiate, hload, hlink, ?_, ?_⟩
  · obtain ⟨d, addend, value, hd, haddend, hvalue, hread⟩ :=
      hwords 1 copiedSite .relative (by rw [h.sites_eq]; rfl) haction rfl hothers
    -- the addend is explicit, and there is no symbol
    obtain rfl : 232 = addend := Except.ok.inj haddend
    change some (copyNode.base + 232) = some value at hvalue
    rw [hbase] at hvalue
    obtain rfl := Option.some.inj hvalue
    rw [haddress, h.order_eq] at hread
    exact hread
  · intro a hcopy hcopied
    refine hrest a ?_
    rw [h.sites_eq, List.forall_mem_cons, List.forall_mem_singleton]
    exact ⟨h.not_writes_copySite hcopy, CopyLoaded.not_writes_copiedSite haction hcopied⟩

/-! ### The steps of linking -/

/-- **Linking goes through its steps in turn.** Either all of them succeed: then memory is
what the relocations leave, carried out one after the other, and the number given is the sum
of those of the objects. Or some step fails after all steps before it have succeeded: then
linking fails with its error, none of the steps behind it is taken, and the phase is not
over; if the error is about a relocation, then the step carries out just this relocation,
counted across the tables of its object. -/
theorem steps_of_link (h : l.phase = .loaded) :
    (l.linker.Completes l.graph.linkSteps l.memory ∧
      ∃ counts : List Nat,
        l.graph.toList.map (·.object.relocationCount.result) = counts.map .ok ∧
        link.Yields l counts.sum
          { l with memory := l.linker.memoryAfter l.graph.sites l.memory, phase := .linked }) ∨
    ∃ before step behind e, l.graph.linkSteps = before ++ step :: behind ∧
      l.linker.Completes before l.memory ∧
      ((l.linker.work step).run
        (l.linker.memoryAfter (before.filterMap LinkStep.site?) l.memory)).result = .error e ∧
      (link.run l).result = .error e ∧
      (link.run l).state = { l with memory := ((l.linker.work step).run
        (l.linker.memoryAfter (before.filterMap LinkStep.site?) l.memory)).state } ∧
      ∀ place, e.place? = some place → ∃ s, step = .relocate s ∧
        place = (s.node.name, s.index) ∧ s.node.sites[s.index]? = some s := by
  have hall := l.linker.linkAll_eq l.graph.toList
  rcases Stage.sequence_cases (l.graph.linkSteps.map l.linker.work) l.memory with
    ⟨hcompletes, hyields⟩ | ⟨works, x, others, e, hworks, hcompletes, he, hresult, hstate⟩
  · obtain ⟨counts, hcounts, hsum⟩ := Node.exists_relocationCounts l.graph.toList
    refine .inl ⟨hcompletes, counts, hcounts, link_of_linkAll h ?_⟩
    rw [hall, hsum, ← l.graph.filterMap_linkSteps, ← Linker.stateAfter_work]
    exact Stage.yields_bind_iff.2 ⟨(), _, hyields, rfl, rfl⟩
  · -- the work that fails is that of a step, which splits the steps in the same way
    obtain ⟨before, rest, hsteps, rfl, hrest⟩ := List.map_eq_append_iff.1 hworks
    obtain ⟨step, behind, rfl, rfl, rfl⟩ := List.map_eq_cons_iff.1 hrest
    rw [Linker.stateAfter_work] at he hstate
    have herror : ((l.linker.linkAll l.graph.toList).run l.memory).result = .error e := by
      rw [hall]
      exact (congrArg Outcome.result (Stage.run_bind_of_error hresult) :)
    have hmemory : ((l.linker.linkAll l.graph.toList).run l.memory).state =
        ((l.linker.work step).run
          (l.linker.memoryAfter (before.filterMap LinkStep.site?) l.memory)).state := by
      rw [hall, ← hstate]
      exact (congrArg Outcome.state (Stage.run_bind_of_error hresult) :)
    obtain ⟨hlink, hleft⟩ := link_of_linkAll_error h herror
    rw [hmemory] at hleft
    refine .inr ⟨before, step, behind, e, hsteps, hcompletes, he, hlink, hleft, ?_⟩
    intro place hplace
    obtain ⟨s, rfl, rfl⟩ := Linker.place?_of_work he hplace
    have hmem : LinkStep.relocate s ∈ l.graph.linkSteps := by
      rw [hsteps]
      exact List.mem_append_right before List.mem_cons_self
    exact ⟨s, rfl, rfl, ObjectGraph.getElem?_of_mem_linkSteps hmem⟩

/-- A processor in the place of an ARM that knows copies only. -/
def copyingProcessor : Processor := ⟨Machine.arm, "copying", [(20, .copy)]⟩

/-- **All four steps are taken** if the processor is an ARM. One that knows copies only stops at the
last of them, after the copy has been made. -/
theorem steps_of_link_copyFiles :
    (∃ entry l l', (initiate copyFiles "a").Yields (new .standard .arm litteredMemory) entry l ∧
      (loadLibraries copyFiles).Yields l () l' ∧ l'.graph.linkSteps =
        [.setUp copyRoot, .relocate copySite, .setUp copyNode, .relocate copiedSite] ∧
      link.Yields l' 2 { l' with
        memory := l'.linker.memoryAfter [copySite, copiedSite] l'.memory, phase := .linked }) ∧
    ∃ entry l l', (initiate copyFiles "a").Yields
        (new .standard copyingProcessor litteredMemory) entry l ∧
      (loadLibraries copyFiles).Yields l () l' ∧
      (link.run l').result = .error (.unknownRelocation 23 "d/b" 0) ∧
      (link.run l').state =
        { l' with memory := l'.linker.memoryAfter [copySite] l'.memory } := by
  constructor
  · obtain ⟨entry, l, l', hinitiate, hload, h, haction⟩ :=
      exists_copyLoaded_arm litteredMemory size_litteredMemory
    refine ⟨entry, l, l', hinitiate, hload, h.linkSteps_eq, ?_⟩
    rcases steps_of_link h.phase_eq with
      ⟨-, counts, hcounts, hyields⟩ | ⟨_, _, _, e, -, -, -, herror, -⟩
    · rw [h.toList_eq, List.map_cons, List.map_singleton, Node.relocationCount_eq,
        Node.relocationCount_eq, sites_copyRoot.1, sites_copyNode.1] at hcounts
      obtain rfl : [1, 1] = counts := (List.map_inj_right fun _ _ => Except.ok.inj).1 hcounts
      rwa [h.sites_eq] at hyields
    · obtain ⟨_, _, -, -, -, hlink⟩ := h.exists_link haction
      rw [hlink.1] at herror
      cases herror
  · obtain ⟨entry, l, l', hinitiate, hload, h, hprocessor⟩ := exists_copyLoaded copyingProcessor
      litteredMemory rfl (by decide +kernel) size_litteredMemory
    have hunknown : ∀ m, ((l'.linker.work (.relocate copiedSite)).run m).result =
          .error (.unknownRelocation 23 "d/b" 0) ∧
        ((l'.linker.work (.relocate copiedSite)).run m).state = m := by
      intro m
      have haddend : l'.linker.addend copiedSite.node copiedSite.entry m = .ok 232 := rfl
      refine Linker.unknown_of_linkEntry haddend (d := none) rfl ?_
      rw [show l'.linker.processor = copyingProcessor from hprocessor]
      decide +kernel
    refine ⟨entry, l, l', hinitiate, hload, ?_⟩
    rcases steps_of_link h.phase_eq with
      ⟨hcompletes, -⟩ | ⟨before, step, behind, e, hsteps, -, he, hresult, hstate, -⟩
    · -- the last step cannot succeed
      rw [h.linkSteps_eq] at hcompletes
      obtain ⟨-, -, -, hlast, -⟩ := hcompletes
      cases (hunknown _).1.symm.trans hlast
    · -- none of the three steps before it can fail
      obtain ⟨tables, hroot⟩ := sites_copyRoot.2
      obtain ⟨tables', hnode⟩ := sites_copyNode.2
      obtain ⟨m, hcopy⟩ := h.exists_copy h.size_memory
      rw [h.linkSteps_eq] at hsteps
      rcases before with _ | ⟨s₁, _ | ⟨s₂, _ | ⟨s₃, _ | ⟨s₄, before⟩⟩⟩⟩ <;>
        simp only [List.nil_append, List.cons_append, List.cons.injEq] at hsteps
      · obtain ⟨rfl, -⟩ := hsteps
        cases (l'.linker.yields_work_setUp _ hroot).1.symm.trans he
      · obtain ⟨rfl, rfl, -⟩ := hsteps
        cases hcopy.1.symm.trans he
      · obtain ⟨rfl, rfl, rfl, -⟩ := hsteps
        cases (l'.linker.yields_work_setUp _ hnode).1.symm.trans he
      · obtain ⟨rfl, rfl, rfl, rfl, -⟩ := hsteps
        obtain rfl := Except.error.inj ((hunknown _).1.symm.trans he)
        rw [(hunknown _).2] at hstate
        exact ⟨hresult, hstate⟩
      · simp at hsteps

end Loader

end ElfLoader
