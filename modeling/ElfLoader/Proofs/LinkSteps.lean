import ElfLoader.Proofs.Patching
import Mathlib.Algebra.Ring.Nat

/-!
# Linking step by step

Linking takes one step for each object, to find its relocation tables, and then one step for
each of its relocations (`ElfLoader.ObjectGraph.linkSteps`). The steps are the same whatever
memory holds, so linking is a sequence of them that is known beforehand
(`ElfLoader.Linker.linkAll_eq`). It goes through them in turn, up to the first that fails
(`ElfLoader.Stage.sequence_cases`), and an error that is about a relocation says which
(`ElfLoader.Linker.place?_of_work`). It succeeds if all tables can be found and there is a run
through all relocations (`ElfLoader.Loader.link_of_links`).
-/

namespace ElfLoader

/-! ### Work in sequence -/

namespace Stage

variable {σ α β γ : Type}

/-- Work done in turn, up to the first that fails. -/
def sequence : List (Stage σ Unit) → Stage σ Unit
  | [] => pure ()
  | x :: rest => do
    x
    sequence rest

/-- The state after some work has been done in turn. -/
def stateAfter (works : List (Stage σ Unit)) (s : σ) : σ :=
  works.foldl (fun s x => (x.run s).state) s

/-- Whether all work succeeds that is done in turn. -/
def Completes : List (Stage σ Unit) → σ → Prop
  | [], _ => True
  | x :: rest, s => (x.run s).result = .ok () ∧ Completes rest (x.run s).state

theorem pure_bind (a : α) (f : α → Stage σ β) : (pure a >>= f : Stage σ β) = f a := rfl

theorem bind_assoc (x : Stage σ α) (f : α → Stage σ β) (g : β → Stage σ γ) :
    (x >>= f) >>= g = x >>= fun a => f a >>= g := by
  funext s
  change ((x >>= f) >>= g).run s = (x >>= fun a => f a >>= g).run s
  rw [run_bind, run_bind, run_bind]
  cases (x.run s).result with
  | error e => rfl
  | ok a =>
    dsimp only
    rw [run_bind]
    cases ((f a).run (x.run s).state).result with
    | error e => rfl
    | ok b =>
      dsimp only
      rw [List.append_assoc]

theorem bind_pure_unit (x : Stage σ Unit) : (x >>= fun _ => pure ()) = x := by
  funext s
  change (x >>= fun _ => pure ()).run s = x.run s
  rw [run_bind]
  rcases x.run s with ⟨_ | _, s', notices⟩
  · rfl
  · change Outcome.mk _ _ (notices ++ []) = _
    rw [List.append_nil]
    rfl

/-- What comes after a report has to be known only for what the report gives. -/
theorem ofReport_bind_congr {x : Report α} {f g : α → Stage σ β}
    (h : ∀ a, x.result = .ok a → f a = g a) : (ofReport x >>= f) = (ofReport x >>= g) := by
  funext s
  change (ofReport x >>= f).run s = (ofReport x >>= g).run s
  rw [run_bind, run_bind, run_ofReport]
  cases hx : x.result with
  | error e => rfl
  | ok a =>
    dsimp only
    rw [h a hx]

/-- Two sequences are one after the other. -/
theorem sequence_append (first second : List (Stage σ Unit)) :
    sequence (first ++ second) = (do sequence first; sequence second) := by
  induction first with
  | nil => rfl
  | cons x first ih =>
    change (x >>= fun _ => sequence (first ++ second)) = (x >>= fun _ => sequence first) >>= _
    rw [bind_assoc, ih]

/-- **A sequence goes on up to the first work that fails**: either all of it succeeds, or
some work fails after all work before it has succeeded, and none behind it is done. -/
theorem sequence_cases (works : List (Stage σ Unit)) (s : σ) :
    (Completes works s ∧ (sequence works).Yields s () (stateAfter works s)) ∨
    ∃ before x behind e, works = before ++ x :: behind ∧ Completes before s ∧
      (x.run (stateAfter before s)).result = .error e ∧
      ((sequence works).run s).result = .error e ∧
      ((sequence works).run s).state = (x.run (stateAfter before s)).state := by
  induction works generalizing s with
  | nil => exact .inl ⟨trivial, yields_pure_iff.2 ⟨rfl, rfl⟩⟩
  | cons w rest ih =>
    cases hw : (w.run s).result with
    | error e =>
      -- the first work fails, and what is left of the sequence does not matter
      refine .inr ⟨[], w, rest, e, rfl, trivial, hw, ?_⟩
      rw [sequence, run_bind_of_error hw]
      exact ⟨rfl, rfl⟩
    | ok u =>
      have hrun : ((sequence (w :: rest)).run s).result =
            ((sequence rest).run (w.run s).state).result ∧
          ((sequence (w :: rest)).run s).state = ((sequence rest).run (w.run s).state).state := by
        rw [sequence, run_bind, hw]
        exact ⟨rfl, rfl⟩
      rcases ih (w.run s).state with
        ⟨hall, hyields⟩ | ⟨before, x, behind, e, rfl, hbefore, he, hresult, hstate⟩
      · exact .inl ⟨⟨hw, hall⟩, hrun.1.trans hyields.1, hrun.2.trans hyields.2⟩
      · exact .inr ⟨w :: before, x, behind, e, rfl, ⟨hw, hbefore⟩, he,
          hrun.1.trans hresult, hrun.2.trans hstate⟩

end Stage

/-! ### The steps -/

/-- One step of linking. -/
inductive LinkStep where
  /-- The relocation tables of an object are found. -/
  | setUp (node : Node)
  /-- A relocation is carried out. -/
  | relocate (site : Site)

theorem Node.length_sitesFrom (n : Node) (index : Nat) (entries : List RelocationEntry) :
    (n.sitesFrom index entries).length = entries.length := by
  induction entries generalizing index with
  | nil => rfl
  | cons e rest ih => rw [Node.sitesFrom, List.length_cons, ih, List.length_cons]

/-- The relocation that a step carries out, if it does one. -/
def LinkStep.site? : LinkStep → Option Site
  | setUp _ => none
  | relocate s => some s

/-- The steps for an object. -/
def Node.linkSteps (n : Node) : List LinkStep := .setUp n :: n.sites.map .relocate

/-- **The steps for a program**, object by object in load order. -/
def ObjectGraph.linkSteps (g : ObjectGraph) : List LinkStep := g.toList.flatMap Node.linkSteps

/-- The steps carry out the relocations in their order, each of them once. -/
theorem ObjectGraph.filterMap_linkSteps (g : ObjectGraph) :
    g.linkSteps.filterMap LinkStep.site? = g.sites := by
  have hnode : ∀ n : Node, n.linkSteps.filterMap LinkStep.site? = n.sites := by
    intro n
    change (n.sites.map LinkStep.relocate).filterMap LinkStep.site? = n.sites
    rw [List.filterMap_map]
    exact List.filterMap_some
  rw [linkSteps, List.filterMap_flatMap]
  simp only [hnode]
  rfl

namespace Linker

variable {k : Linker} {n : Node} {s : Site} {m m' : Memory}

/-- What is done in a step. -/
def work (k : Linker) : LinkStep → Stage Memory Unit
  | .setUp n => do
    let _ ← Stage.ofReport n.object.relocationTables
  | .relocate s => k.linkEntry s.node s.index s.entry

/-- Whether all steps succeed that are taken in turn. -/
def Completes (k : Linker) (steps : List LinkStep) (m : Memory) : Prop :=
  Stage.Completes (steps.map k.work) m

/-- The memory after relocations have been carried out one after the other. -/
def memoryAfter (k : Linker) (sites : List Site) (m : Memory) : Memory :=
  sites.foldl (fun m s => ((k.linkEntry s.node s.index s.entry).run m).state) m

/-- Finding the tables of an object changes no memory. -/
theorem stateAfter_work (k : Linker) (steps : List LinkStep) (m : Memory) :
    Stage.stateAfter (steps.map k.work) m = k.memoryAfter (steps.filterMap LinkStep.site?) m := by
  induction steps generalizing m with
  | nil => rfl
  | cons step rest ih =>
    cases step with
    | setUp n =>
      have hstate : ((k.work (.setUp n)).run m).state = m := by
        change ((Stage.ofReport n.object.relocationTables >>= fun _ => pure ()).run m).state = m
        rw [Stage.run_bind, Stage.run_ofReport]
        cases n.object.relocationTables.result <;> rfl
      change Stage.stateAfter (rest.map k.work) ((k.work (.setUp n)).run m).state = _
      rw [hstate, ih]
      rfl
    | relocate s => exact ih _

theorem linkEntries_eq (k : Linker) (n : Node) (index : Nat) (entries : List RelocationEntry) :
    k.linkEntries n index entries =
      Stage.sequence ((n.sitesFrom index entries).map fun s => k.work (.relocate s)) := by
  induction entries generalizing index with
  | nil => rfl
  | cons e rest ih =>
    rw [linkEntries, ih]
    rfl

/-- **The steps for an object**: its tables are found, and then its relocations are carried
out. -/
theorem linkNode_eq (k : Linker) (n : Node) : k.linkNode n = do
    Stage.sequence (n.linkSteps.map k.work)
    return n.sites.length := by
  change (Stage.ofReport n.object.relocationTables >>= _) =
    (((Stage.ofReport n.object.relocationTables >>= fun _ => pure ()) >>= _) >>= _)
  rw [Stage.bind_assoc, Stage.bind_assoc]
  -- the sites are those of the tables that have just been found
  refine Stage.ofReport_bind_congr fun tables htables => ?_
  have hsites : n.sites = n.sitesFrom 0 (tables.flatMap RelocationTable.entries) := by
    rw [Node.sites, htables]
  dsimp only
  rw [linkEntries_eq, hsites, List.map_map, Node.length_sitesFrom]
  rfl

/-- **Linking is a sequence of steps**, and the number that it gives is that of all
relocations. -/
theorem linkAll_eq (k : Linker) (nodes : List Node) : k.linkAll nodes = do
    Stage.sequence ((nodes.flatMap Node.linkSteps).map k.work)
    return (nodes.flatMap Node.sites).length := by
  induction nodes with
  | nil => rfl
  | cons n rest ih =>
    rw [linkAll, ih, linkNode_eq, List.flatMap_cons, List.flatMap_cons, List.map_append,
      Stage.sequence_append, List.length_append, Stage.bind_assoc, Stage.bind_assoc]
    simp only [Stage.bind_assoc, Stage.pure_bind]

/-- A run through sites leaves what their relocations leave, carried out one after the other. -/
theorem Links.eq_memoryAfter {sites : List Site} (h : k.Links sites m m') :
    m' = k.memoryAfter sites m := by
  induction h with
  | done m => rfl
  | @step s rest m m₁ m' first others ih =>
    rw [memoryAfter, List.foldl_cons, first.2]
    exact ih

/-! ### Linking that succeeds -/

/-- **A relocation can be carried out** if its addend can be read, its symbol resolved, and the
changes of its action made. -/
theorem yields_linkEntry {addend : UInt32} {d : Option Definition} {action : RelocationAction}
    (haddend : k.addend s.node s.entry m = .ok addend)
    (hd : (k.target s.node s.entry s.index).result = .ok d)
    (haction : k.processor.action? s.entry.type = some action)
    (hall : (Processor.applyAll k.order ((fixup s.node s.entry addend d).patches action)).Yields
      m () m') :
    (k.linkEntry s.node s.index s.entry).Yields m () m' := by
  have hpatches : k.processor.patches (fixup s.node s.entry addend d) =
      .ok ((fixup s.node s.entry addend d).patches action) := by
    have htype : k.processor.action? (fixup s.node s.entry addend d).type = some action := haction
    rw [Processor.patches, htype]
  refine Stage.yields_bind_iff.2 ⟨m, m, Stage.yields_state_iff.2 ⟨rfl, rfl⟩, ?_⟩
  refine Stage.yields_bind_iff.2 ⟨addend, m, Stage.yields_ofExcept_iff.2 ⟨haddend, rfl⟩, ?_⟩
  refine Stage.yields_bind_iff.2 ⟨d, m, Stage.yields_ofReport_iff.2 ⟨hd, rfl⟩, ?_⟩
  refine Stage.yields_rewording_iff.2 ?_
  exact Stage.yields_bind_iff.2 ⟨_, m, Stage.yields_ofExcept_iff.2 ⟨hpatches, rfl⟩, hall⟩

/-- Tables that can be found are found whatever memory holds. -/
theorem yields_work_setUp (k : Linker) (m : Memory) {tables : List RelocationTable}
    (h : n.object.relocationTables.result = .ok tables) : (k.work (.setUp n)).Yields m () m :=
  Stage.yields_bind_iff.2 ⟨tables, m, Stage.yields_ofReport_iff.2 ⟨h, rfl⟩,
    Stage.yields_pure_iff.2 ⟨rfl, rfl⟩⟩

/-- A run through sites carries out their relocations in turn. -/
theorem yields_sequence_of_links {sites : List Site} (h : k.Links sites m m') :
    (Stage.sequence (sites.map fun s => k.work (.relocate s))).Yields m () m' := by
  induction h with
  | done m => exact Stage.yields_pure_iff.2 ⟨rfl, rfl⟩
  | step first others ih => exact Stage.yields_bind_iff.2 ⟨(), _, first, ih⟩

/-- **Objects are linked** if their tables can be found and there is a run through their sites. -/
theorem yields_linkAll_of_links {nodes : List Node}
    (htables : ∀ n ∈ nodes, ∃ tables, n.object.relocationTables.result = .ok tables)
    (h : k.Links (nodes.flatMap Node.sites) m m') :
    (k.linkAll nodes).Yields m (nodes.flatMap Node.sites).length m' := by
  induction nodes generalizing m with
  | nil =>
    cases h
    exact Stage.yields_pure_iff.2 ⟨rfl, rfl⟩
  | cons n rest ih =>
    obtain ⟨tables, hn⟩ := htables n List.mem_cons_self
    rw [List.flatMap_cons] at h ⊢
    obtain ⟨m₁, hfirst, hothers⟩ := Links.append_iff.1 h
    have hnode : (k.linkNode n).Yields m n.sites.length m₁ := by
      rw [linkNode_eq, Node.linkSteps, List.map_cons, List.map_map]
      refine Stage.yields_bind_iff.2 ⟨(), m₁, ?_, Stage.yields_pure_iff.2 ⟨rfl, rfl⟩⟩
      exact Stage.yields_bind_iff.2
        ⟨(), m, k.yields_work_setUp m hn, yields_sequence_of_links hfirst⟩
    refine Stage.yields_bind_iff.2 ⟨_, m₁, hnode, ?_⟩
    refine Stage.yields_bind_iff.2 ⟨_, m', ih (fun x hx => htables x (List.mem_cons_of_mem n hx))
      hothers, ?_⟩
    exact Stage.yields_pure_iff.2 ⟨List.length_append.symm, rfl⟩

end Linker

/-! ### Counting -/

theorem RelocationTable.length_entries (t : RelocationTable) : t.entries.length = t.count := by
  rw [entries, List.length_map, List.length_range]

/-- The relocations of an object are as many as its tables have entries. -/
theorem Node.relocationCount_eq (n : Node) :
    n.object.relocationCount.result = .ok n.sites.length := by
  simp only [Object.relocationCount, Node.sites]
  cases n.object.relocationTables.result with
  | error e => rfl
  | ok tables =>
    dsimp only
    rw [length_sitesFrom, List.length_flatMap]
    simp only [RelocationTable.length_entries]
    rfl

/-- Relocations are counted across all tables of their object. -/
theorem Node.getElem?_sitesFrom (n : Node) (index i : Nat) (entries : List RelocationEntry) :
    (n.sitesFrom index entries)[i]? = entries[i]?.map fun e => ⟨n, index + i, e⟩ := by
  induction entries generalizing index i with
  | nil => rfl
  | cons e rest ih =>
    cases i with
    | zero => rfl
    | succ i =>
      rw [sitesFrom, List.getElem?_cons_succ, ih, List.getElem?_cons_succ, Nat.add_right_comm,
        Nat.add_assoc]

/-- The index of a relocation is its position among those of its object. -/
theorem Node.getElem?_sites {n : Node} {s : Site} (h : s ∈ n.sites) :
    s.node.sites[s.index]? = some s := by
  cases htables : n.object.relocationTables.result with
  | error e =>
    rw [Node.sites, htables] at h
    cases h
  | ok tables =>
    have hsites : n.sites = n.sitesFrom 0 (tables.flatMap RelocationTable.entries) := by
      rw [Node.sites, htables]
    obtain ⟨i, hi⟩ := List.mem_iff_getElem?.1 h
    have hs := hi
    rw [hsites, getElem?_sitesFrom, Option.map_eq_some_iff] at hs
    obtain ⟨e, -, rfl⟩ := hs
    rwa [Nat.zero_add] at hi ⊢

/-- A relocation that a step carries out stands at its index among those of its object. -/
theorem ObjectGraph.getElem?_of_mem_linkSteps {g : ObjectGraph} {s : Site}
    (h : .relocate s ∈ g.linkSteps) : s.node.sites[s.index]? = some s := by
  obtain ⟨n, -, hn⟩ := List.mem_flatMap.1 h
  rcases List.mem_cons.1 hn with hn | hn
  · cases hn
  · obtain ⟨t, ht, hts⟩ := List.mem_map.1 hn
    cases hts
    exact Node.getElem?_sites ht

/-- The relocations of objects are as many as those of the single ones. -/
theorem Node.exists_relocationCounts (nodes : List Node) :
    ∃ counts : List Nat, nodes.map (·.object.relocationCount.result) = counts.map .ok ∧
      (nodes.flatMap Node.sites).length = counts.sum := by
  refine ⟨nodes.map (·.sites.length), ?_, List.length_flatMap⟩
  rw [List.map_map]
  exact List.map_congr_left fun n _ => n.relocationCount_eq

/-! ### What an error says -/

/-- The object and the relocation that an error is about, if it is about one. -/
def LoadError.place? : LoadError → Option (String × Nat)
  | undefinedSymbol _ requiring relocation => some (requiring, relocation)
  | unknownRelocation _ library relocation => some (library, relocation)
  | _ => none

/-- An error about no relocation stays as it is when one is carried out. -/
theorem LoadError.inRelocation_of_place? {e : LoadError} (h : e.place? = none) (name : String)
    (index : Nat) : e.inRelocation name index = e := by
  cases e <;> first | rfl | cases h

/-- The tables of an object are not about a relocation. -/
theorem Object.place?_of_tablesOf {o : Object} {refs : List RelocationRef} {e : LoadError}
    (h : (o.tablesOf refs).result = .error e) : e.place? = none := by
  induction refs with
  | nil => cases h
  | cons r rest ih =>
    rcases Report.result_bind_eq_error_iff.1 h with h | ⟨t, -, h⟩
    · rcases Report.result_bind_eq_error_iff.1 h with h | ⟨offset, -, h⟩
      · change o.fileOffset r.table.address = .error e at h
        unfold Object.fileOffset Object.offsetIn at h
        split at h
        · cases h
        · cases h
          rfl
      · unfold RelocationTable.bind at h
        split at h
        · cases h
        · cases h
          rfl
    · rcases Report.result_bind_eq_error_iff.1 h with h | ⟨ts, -, h⟩
      · exact ih h
      · cases h

theorem Object.place?_of_relocationTables {o : Object} {e : LoadError}
    (h : o.relocationTables.result = .error e) : e.place? = none := by
  unfold Object.relocationTables at h
  split at h
  · cases h
  · exact place?_of_tablesOf h

section Memory

variable {m : Memory} {order : ByteOrder} {address : UInt32} {length : Nat} {e : LoadError}

theorem Memory.place?_of_reach (h : m.reach address length = .error e) : e.place? = none := by
  unfold Memory.reach at h
  split at h
  · cases h
  · cases h
    rfl

theorem Memory.place?_of_readWord (h : m.readWord address order = .error e) :
    e.place? = none := by
  rcases bind_eq_error_iff.1 h with h | ⟨u, -, h⟩
  · exact place?_of_reach h
  · cases h

theorem Patch.place?_of_apply {patch : Patch} (h : patch.apply order m = .error e) :
    e.place? = none := by
  cases patch with
  | word address value =>
    rcases bind_eq_error_iff.1 h with h | ⟨u, -, h⟩
    · exact Memory.place?_of_reach h
    · cases h
  | copy source target length =>
    rcases bind_eq_error_iff.1 h with h | ⟨u, -, h⟩
    · exact Memory.place?_of_reach h
    · rcases bind_eq_error_iff.1 h with h | ⟨u, -, h⟩
      · exact Memory.place?_of_reach h
      · split at h <;> cases h

theorem Processor.place?_of_applyAll {patches : List Patch}
    (h : ((applyAll order patches).run m).result = .error e) : e.place? = none := by
  induction patches generalizing m with
  | nil => cases h
  | cons patch rest ih =>
    rcases Stage.result_bind_eq_error_iff.1 h with h | ⟨u, -, h⟩
    · cases hpatch : patch.apply order m with
      | error e' =>
        simp only [Stage.run, Stage.attempt, hpatch, Except.error.injEq] at h
        exact h ▸ Patch.place?_of_apply hpatch
      | ok m' =>
        rw [Stage.run_attempt_of_ok hpatch] at h
        cases h
    · exact ih h

end Memory

/-- An unknown relocation is about the relocation that is carried out; no other error of a
fixup is about one. -/
theorem Processor.place?_of_apply {p : Processor} {order : ByteOrder} {f : Fixup} {m : Memory}
    {name : String} {index : Nat} {e : LoadError} {place : String × Nat}
    (h : (((p.apply order f).rewording (LoadError.inRelocation name index)).run m).result =
      .error e) (hplace : e.place? = some place) : place = (name, index) := by
  obtain ⟨e, he, rfl⟩ := Stage.result_rewording_eq_error_iff.1 h
  rcases Stage.result_bind_eq_error_iff.1 he with he | ⟨patches, -, he⟩
  · -- the type is unknown, and rewording puts in the name and the index
    change p.patches f = .error e at he
    unfold Processor.patches at he
    split at he
    · cases he
    · cases he
      exact (Option.some.inj hplace).symm
  · have hnone := place?_of_applyAll he
    rw [LoadError.inRelocation_of_place? hnone, hnone] at hplace
    cases hplace

namespace Linker

variable {k : Linker} {n : Node} {index : Nat} {entry : RelocationEntry} {m : Memory}
  {e : LoadError} {place : String × Nat}

theorem place?_of_addend (h : k.addend n entry m = .error e) : e.place? = none := by
  unfold addend at h
  split at h
  · cases h
  · exact Memory.place?_of_readWord h

/-- A symbol that is not defined is about the relocation that asks for it. -/
theorem place?_of_target (h : (k.target n entry index).result = .error e)
    (hplace : e.place? = some place) : place = (n.name, index) := by
  unfold target Scope.resolve at h
  split at h
  · cases h
  · split at h
    · cases h
      cases hplace
    · split at h
      · cases h
      · dsimp only at h
        split at h
        · cases h
        · cases h
          cases hplace
        · unfold Scope.fallback at h
          split at h
          · cases h
          · split at h
            · cases h
            · cases h
              exact (Option.some.inj hplace).symm

/-- **An error that is about a relocation is about the one that is carried out.** -/
theorem place?_of_linkEntry (h : ((k.linkEntry n index entry).run m).result = .error e)
    (hplace : e.place? = some place) : place = (n.name, index) := by
  rcases Stage.result_bind_eq_error_iff.1 h with h | ⟨m', -, h⟩
  · cases h
  rcases Stage.result_bind_eq_error_iff.1 h with h | ⟨addend, -, h⟩
  · rw [place?_of_addend h] at hplace
    cases hplace
  rcases Stage.result_bind_eq_error_iff.1 h with h | ⟨d, -, h⟩
  · exact place?_of_target h hplace
  · exact Processor.place?_of_apply h hplace

/-- An error that is about a relocation comes of the step that carries it out. -/
theorem place?_of_work {step : LinkStep} (h : ((k.work step).run m).result = .error e)
    (hplace : e.place? = some place) :
    ∃ s, step = .relocate s ∧ place = (s.node.name, s.index) := by
  cases step with
  | setUp n =>
    rcases Stage.result_bind_eq_error_iff.1 h with h | ⟨tables, -, h⟩
    · rw [Object.place?_of_relocationTables h] at hplace
      cases hplace
    · cases h
  | relocate s => exact ⟨s, rfl, place?_of_linkEntry h hplace⟩

end Linker

/-! ### The third phase -/

namespace Loader

variable {l : Loader} {count : Nat} {m : Memory} {e : LoadError}

/-- Linking that comes to its end. -/
theorem link_of_linkAll (h : l.phase = .loaded)
    (hall : (l.linker.linkAll l.graph.toList).Yields l.memory count m) :
    link.Yields l count { l with memory := m, phase := .linked } := by
  refine Stage.yields_bind_iff.2 ⟨(), l, yields_enter_iff.2 ⟨h, rfl⟩, ?_⟩
  refine Stage.yields_bind_iff.2 ⟨l, l, Stage.yields_state_iff.2 ⟨rfl, rfl⟩, ?_⟩
  refine Stage.yields_bind_iff.2 ⟨count, _, Stage.yields_within_iff.2 ⟨m, hall, rfl⟩, ?_⟩
  exact Stage.yields_bind_iff.2 ⟨(), _, Stage.yields_update_iff.2 rfl, rfl, rfl⟩

/-- **A program is linked** if its tables can be found and there is a run through its sites. -/
theorem link_of_links (hphase : l.phase = .loaded)
    (htables : ∀ n ∈ l.graph.toList, ∃ tables, n.object.relocationTables.result = .ok tables)
    (h : l.linker.Links l.graph.sites l.memory m) :
    link.Yields l l.graph.sites.length { l with memory := m, phase := .linked } :=
  link_of_linkAll hphase (Linker.yields_linkAll_of_links htables h)

/-- Linking that stops before its end. -/
theorem link_of_linkAll_error (h : l.phase = .loaded)
    (hall : ((l.linker.linkAll l.graph.toList).run l.memory).result = .error e) :
    (link.run l).result = .error e ∧ (link.run l).state =
      { l with memory := ((l.linker.linkAll l.graph.toList).run l.memory).state } := by
  have henter : (enter .loaded "link").Yields l () l := yields_enter_iff.2 ⟨h, rfl⟩
  have hwithin : ((Stage.within (·.memory) (fun m l => { l with memory := m })
      (l.linker.linkAll l.graph.toList)).run l).result = .error e := hall
  constructor
  · refine Stage.result_bind_eq_error_iff.2 (.inr ⟨(), henter.1, ?_⟩)
    rw [henter.2]
    exact Stage.result_bind_eq_error_iff.2 (.inr ⟨l, rfl,
      Stage.result_bind_eq_error_iff.2 (.inl hwithin)⟩)
  · unfold link
    rw [Stage.state_bind_of_ok henter.1, henter.2, Stage.state_bind_of_ok rfl]
    exact (congrArg Outcome.state (Stage.run_bind_of_error hwithin) :)

end Loader

end ElfLoader
