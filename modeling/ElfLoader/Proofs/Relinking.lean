import ElfLoader.Proofs.OneLibrary
import ElfLoader.Proofs.Turns
import Mathlib.Data.List.Forall2
import Mathlib.Data.List.Nodup

/-!
# Linking again

Linking reads memory, for addends and for copies, and what it reads may have been changed by
relocations that were carried out before, also by linking that has failed. All the same memory
decides nothing but values: it matters neither to an address that is accessed nor to what a symbol
is bound to, so two memories of one size are linked with the same result
(`ElfLoader.Linker.alike_linkAll`).

So linking that has failed fails again, and when a program is linked after all, no relocation of it
had been begun before (`ElfLoader.Loader.Accounted`).
-/

namespace ElfLoader

variable {size : Nat} {order : ByteOrder} {m m' : Memory}

/-- **Two memories have a size.** What they hold does not matter. -/
def Memory.Sized (size : Nat) (m m' : Memory) : Prop := m.size = size ∧ m'.size = size

/-! ### Changes of memory -/

theorem Memory.Sized.reach_eq (h : Memory.Sized size m m') (address : UInt32) (length : Nat) :
    m.reach address length = m'.reach address length := by
  rw [Memory.reach, Memory.reach, h.1, h.2]

/-- **Two changes differ at most in the value of a word.** -/
inductive Patch.Similar : Patch → Patch → Prop
  /-- Words at one address are written. -/
  | word (address value value' : UInt32) : Similar (.word address value) (.word address value')
  /-- The same bytes are copied. -/
  | copy (source target : UInt32) (length : Nat) :
    Similar (.copy source target length) (.copy source target length)

/-- Similar changes can both be made or neither of them can. -/
theorem Patch.Similar.corresponds_apply {patch patch' : Patch} (h : patch.Similar patch')
    (hm : Memory.Sized size m m') :
    Corresponds (Memory.Sized size) (patch.apply order m) (patch'.apply order m') := by
  cases h with
  | word address value value' =>
    change Corresponds _ (m.reach address (order.wordBytes value).length >>= fun _ => .ok _)
      (m'.reach address (order.wordBytes value').length >>= fun _ => .ok _)
    rw [ByteOrder.length_wordBytes, ByteOrder.length_wordBytes, hm.reach_eq]
    refine (Corresponds.refl _).bind fun _ _ _ => .ok ⟨?_, ?_⟩
    · rw [Memory.size_store, hm.1]
    · rw [Memory.size_store, hm.2]
  | copy source target length =>
    change Corresponds _ (m.move source target length) (m'.move source target length)
    unfold Memory.move
    rw [hm.reach_eq, hm.reach_eq]
    refine (Corresponds.refl _).bind fun _ _ _ => (Corresponds.refl _).bind fun _ _ _ => ?_
    split
    · exact .ok ⟨(Memory.size_moveUp ..).trans hm.1, (Memory.size_moveUp ..).trans hm.2⟩
    · exact .ok ⟨(Memory.size_moveDown ..).trans hm.1, (Memory.size_moveDown ..).trans hm.2⟩

/-- Fixups that differ in their addends ask for similar changes. -/
theorem Fixup.similar_patches (f : Fixup) (addend : UInt32) (action : RelocationAction) :
    List.Forall₂ Patch.Similar (f.patches action) ({ f with addend }.patches action) := by
  cases action with
  | none => exact .nil
  | copy =>
    dsimp only [Fixup.patches]
    split
    · exact .cons (.copy ..) .nil
    · exact .nil
  | sparcJump => exact .cons (.word ..) (.cons (.word ..) .nil)
  | _ => exact .cons (.word ..) .nil

namespace Processor

theorem alike_applyAll {patches patches' : List Patch}
    (h : List.Forall₂ Patch.Similar patches patches') (hm : Memory.Sized size m m') :
    (applyAll order patches).Alike m (applyAll order patches') m' Eq (Memory.Sized size) := by
  induction h generalizing m m' with
  | nil => exact Stage.alike_pure rfl hm
  | cons hpatch _ ih =>
    refine (Stage.alike_attempt (hpatch.corresponds_apply hm) hm).bind ?_
    exact fun _ _ _ _ _ hm' => ih hm'

/-- **Fixups that differ in their addends** both succeed or fail with one error. -/
theorem alike_apply (p : Processor) (f : Fixup) (addend : UInt32)
    (hm : Memory.Sized size m m') : (p.apply order f).Alike m
      (p.apply order { f with addend }) m' Eq (Memory.Sized size) := by
  have hpatches : Corresponds (List.Forall₂ Patch.Similar) (p.patches f)
      (p.patches { f with addend }) := by
    unfold Processor.patches
    dsimp only
    split
    · exact .ok (f.similar_patches addend _)
    · exact .error _
  refine (Stage.alike_ofExcept hpatches hm).bind ?_
  exact fun _ _ _ _ hsimilar hm' => alike_applyAll hsimilar hm'

end Processor

/-! ### Linking two memories -/

/-- Sequences of work are alike if each work in them is. -/
theorem Stage.alike_sequence {σ τ : Type} {R : σ → τ → Prop} {ι : Type} {x : ι → Stage σ Unit}
    {y : ι → Stage τ Unit} (h : ∀ i s t, R s t → (x i).Alike s (y i) t Eq R) (is : List ι) {s : σ}
    {t : τ} (hR : R s t) : (sequence (is.map x)).Alike s (sequence (is.map y)) t Eq R := by
  induction is generalizing s t with
  | nil => exact alike_pure rfl hR
  | cons i is ih => exact (h i s t hR).bind fun _ _ _ _ _ hR' => ih hR'

namespace Linker

variable (k : Linker)

theorem corresponds_addend (n : Node) (e : RelocationEntry) (hm : Memory.Sized size m m') :
    Corresponds (fun _ _ => True) (k.addend n e m) (k.addend n e m') := by
  unfold addend
  split
  · exact .ok trivial
  · unfold Memory.readWord
    rw [hm.reach_eq]
    exact (Corresponds.refl _).bind fun _ _ _ => .ok trivial

/-- **A relocation is carried out in both memories or in neither.** -/
theorem alike_linkEntry (n : Node) (index : Nat) (e : RelocationEntry)
    (hm : Memory.Sized size m m') :
    (k.linkEntry n index e).Alike m (k.linkEntry n index e) m' Eq (Memory.Sized size) := by
  refine (Stage.alike_state hm).bind fun m₁ m₁' _ _ hm₁ hm => ?_
  refine (Stage.alike_ofExcept (k.corresponds_addend n e hm₁) hm).bind ?_
  rintro addend addend' _ _ - hm
  refine (Stage.alike_ofReport _ hm).bind ?_
  rintro d _ _ _ rfl hm
  exact (k.processor.alike_apply (fixup n e addend d) addend' hm).rewording _

theorem alike_work (step : LinkStep) (hm : Memory.Sized size m m') :
    (k.work step).Alike m (k.work step) m' Eq (Memory.Sized size) := by
  cases step with
  | setUp n =>
    exact (Stage.alike_ofReport _ hm).bind fun _ _ _ _ _ hm' => Stage.alike_pure rfl hm'
  | relocate s => exact k.alike_linkEntry s.node s.index s.entry hm

/-- **Memories of one size are linked with the same result.** -/
theorem alike_linkAll (nodes : List Node) (hm : Memory.Sized size m m') :
    (k.linkAll nodes).Alike m (k.linkAll nodes) m' Eq (Memory.Sized size) := by
  rw [linkAll_eq]
  refine (Stage.alike_sequence (fun step _ _ => k.alike_work step) _ hm).bind ?_
  exact fun _ _ _ _ _ hm' => Stage.alike_pure rfl hm'

/-! ### What has been begun -/

/-- **The relocations that are begun** when steps are taken in turn: those of all steps up to the
first that fails, and that of this step too. -/
def begun (k : Linker) : List LinkStep → Memory → List Site
  | [], _ => []
  | step :: rest, m => step.site?.toList ++
    match ((k.work step).run m).result with
    | .ok _ => k.begun rest ((k.work step).run m).state
    | .error _ => []

/-- A step does nothing to memory but to carry out its relocation, if it has one. -/
theorem state_work (step : LinkStep) (m : Memory) :
    ((k.work step).run m).state = k.memoryAfter step.site?.toList m := by
  have h := k.stateAfter_work [step] m
  cases step <;> exact h

theorem memoryAfter_append (first second : List Site) (m : Memory) :
    k.memoryAfter (first ++ second) m = k.memoryAfter second (k.memoryAfter first m) :=
  List.foldl_append

/-- **What memory is after linking**, whether it succeeds or fails: what the relocations leave that
have been begun. -/
theorem state_sequence (steps : List LinkStep) (m : Memory) :
    ((Stage.sequence (steps.map k.work)).run m).state = k.memoryAfter (k.begun steps m) m := by
  induction steps generalizing m with
  | nil => rfl
  | cons step rest ih =>
    rw [List.map_cons, Stage.sequence, begun, memoryAfter_append, ← state_work]
    cases hstep : ((k.work step).run m).result with
    | ok u =>
      rw [Stage.state_bind_of_ok hstep]
      exact ih _
    | error e =>
      rw [Stage.run_bind_of_error hstep]
      rfl

theorem state_linkAll (nodes : List Node) (m : Memory) : ((k.linkAll nodes).run m).state =
    k.memoryAfter (k.begun (nodes.flatMap Node.linkSteps) m) m := by
  rw [← state_sequence, linkAll_eq]
  cases hsteps : ((Stage.sequence ((nodes.flatMap Node.linkSteps).map k.work)).run m).result with
  | ok u => rw [Stage.state_bind_of_ok hsteps]; rfl
  | error e => rw [Stage.run_bind_of_error hsteps]

/-- **If linking succeeds**, all steps have been taken, and all relocations begun. -/
theorem begun_of_ok {steps : List LinkStep} {m : Memory}
    (h : ((Stage.sequence (steps.map k.work)).run m).result = .ok ()) :
    k.begun steps m = steps.filterMap LinkStep.site? ∧
      ∀ step ∈ steps, ∃ m', ((k.work step).run m').result = .ok () := by
  induction steps generalizing m with
  | nil => exact ⟨rfl, fun _ hstep => absurd hstep List.not_mem_nil⟩
  | cons step rest ih =>
    rw [List.map_cons, Stage.sequence, Stage.result_bind_eq_ok_iff] at h
    obtain ⟨_, hstep, hrest⟩ := h
    obtain ⟨hbegun, hsteps⟩ := ih hrest
    constructor
    · rw [begun, hstep, hbegun]
      cases step <;> rfl
    · intro other hother
      rcases List.mem_cons.1 hother with rfl | hother
      · exact ⟨m, hstep⟩
      · exact hsteps other hother

end Linker

/-! ### All relocations of a program -/

theorem Node.node_of_mem_sites {n : Node} {s : Site} (h : s ∈ n.sites) : s.node = n := by
  unfold Node.sites at h
  split at h
  · next tables _ =>
    obtain ⟨i, hi⟩ := List.mem_iff_getElem?.1 h
    rw [getElem?_sitesFrom, Option.map_eq_some_iff] at hi
    obtain ⟨e, -, rfl⟩ := hi
    rfl
  · cases h

theorem Node.nodup_sites (n : Node) : n.sites.Nodup := by
  refine List.nodup_iff_getElem?_ne_getElem?.2 fun i j hij hj heq => ?_
  unfold Node.sites at heq hj
  split at heq
  · next tables htables =>
    rw [htables] at hj
    dsimp only at hj
    rw [length_sitesFrom] at hj
    rw [getElem?_sitesFrom, getElem?_sitesFrom, List.getElem?_eq_getElem hj,
      List.getElem?_eq_getElem (hij.trans hj)] at heq
    have hindex := congrArg Site.index (Option.some.inj heq)
    dsimp only at hindex
    omega
  · next htables =>
    rw [htables] at hj
    cases hj

/-- No relocation of a program is another one. -/
theorem ObjectGraph.Numbered.nodup_sites {g : ObjectGraph} (h : g.Numbered) : g.sites.Nodup := by
  refine List.nodup_flatMap.2 ⟨fun n _ => n.nodup_sites, ?_⟩
  refine List.pairwise_iff_getElem.2 fun i j hi hj hij => ?_
  intro s hs hs'
  -- the two objects are one, and have one position
  have heq : g.toList[i] = g.toList[j] :=
    (Node.node_of_mem_sites hs).symm.trans (Node.node_of_mem_sites hs')
  have hn : g.nodes[i]? = some g.toList[i] := by
    rw [← getElem?_toList, List.getElem?_eq_getElem hi]
  have hn' : g.nodes[j]? = some g.toList[i] := by
    rw [← getElem?_toList, List.getElem?_eq_getElem hj, heq]
  exact absurd ((h.toNat_key hn).symm.trans (h.toNat_key hn')) hij.ne

namespace Loader

variable {l l' : Loader} {e : LoadError}

/-! ### The third phase -/

theorem run_link_of_phase_ne (h : l.phase ≠ .loaded) :
    link.run l = ⟨.error (.phaseOrder "link" l.phase.text), l, []⟩ :=
  Stage.run_bind_of_run_error (run_enter_of_phase_ne h _)

/-- **Memory does not decide what linking gives.** -/
theorem result_link_eq (h : m.size = l.memory.size) :
    (link.run { l with memory := m }).result = (link.run l).result := by
  by_cases hphase : l.phase = .loaded
  · have hm : Memory.Sized l.memory.size m l.memory := ⟨h, rfl⟩
    have halike := l.linker.alike_linkAll l.graph.toList hm
    have hphase' : { l with memory := m }.phase = .loaded := hphase
    rcases Corresponds.iff_ok_or_error.1 halike.result with
      ⟨count, _, hall', hall, rfl⟩ | ⟨e, hall', hall⟩
    · rw [(link_of_linkAll hphase ⟨hall, rfl⟩).1]
      exact (link_of_linkAll hphase' ⟨hall', rfl⟩).1
    · rw [(link_of_linkAll_error hphase hall).1]
      exact (link_of_linkAll_error hphase' hall').1
  · have hphase' : { l with memory := m }.phase ≠ .loaded := hphase
    rw [run_link_of_phase_ne hphase, run_link_of_phase_ne hphase']

/-- Linking that fails changes nothing but the contents of memory. -/
theorem state_link_of_error (h : (link.run l).result = .error e) :
    ∃ m, m.size = l.memory.size ∧ (link.run l).state = { l with memory := m } := by
  by_cases hphase : l.phase = .loaded
  · cases hall : ((l.linker.linkAll l.graph.toList).run l.memory).result with
    | ok count =>
      rw [(link_of_linkAll hphase ⟨hall, rfl⟩).1] at h
      cases h
    | error e' =>
      have hm : Memory.Sized l.memory.size l.memory l.memory := ⟨rfl, rfl⟩
      exact ⟨_, (l.linker.alike_linkAll _ hm).state.1, (link_of_linkAll_error hphase hall).2⟩
  · exact ⟨l.memory, rfl, congrArg Outcome.state (run_link_of_phase_ne hphase)⟩

/-- **Linking that has failed fails again.** -/
theorem result_link_again (h : (link.run l).result = .error e) :
    (link.run (link.run l).state).result = .error e := by
  obtain ⟨m, hm, hstate⟩ := state_link_of_error h
  rw [hstate, result_link_eq hm, h]

/-- The relocations that a call begins. -/
def Event.begun (e : Event) : List Site :=
  match e.call with
  | .link =>
    if e.loader.phase = .loaded then
      e.loader.linker.begun e.loader.graph.linkSteps e.loader.memory
    else []
  | _ => []

/-- Linking carries out the relocations that it begins, and does nothing else to memory. -/
theorem memory_link (l : Loader) :
    (link.run l).state.memory = l.linker.memoryAfter (Event.begun ⟨l, .link⟩) l.memory := by
  unfold Event.begun
  dsimp only
  split
  · next hphase =>
    have hall := l.linker.state_linkAll l.graph.toList l.memory
    cases hresult : ((l.linker.linkAll l.graph.toList).run l.memory).result with
    | ok count =>
      rw [(link_of_linkAll hphase ⟨hresult, rfl⟩).2]
      exact hall
    | error e =>
      rw [(link_of_linkAll_error hphase hresult).2]
      exact hall
  · next hphase =>
    rw [run_link_of_phase_ne hphase]
    rfl

/-- **A program that is linked** has had all its relocations begun, in their order, and the tables
of all its objects were found. -/
theorem begun_of_link {count : Nat} (h : link.Yields l count l') :
    Event.begun ⟨l, .link⟩ = l.graph.sites ∧
      ∀ n ∈ l.graph.toList, ∃ tables, n.object.relocationTables.result = .ok tables := by
  have hphase := ((ensures_link l).ok count l' h).1
  have hsteps : ((Stage.sequence (l.graph.linkSteps.map l.linker.work)).run l.memory).result =
      .ok () := by
    cases hall : ((l.linker.linkAll l.graph.toList).run l.memory).result with
    | ok count =>
      rw [Linker.linkAll_eq, Stage.result_bind_eq_ok_iff] at hall
      obtain ⟨_, hsteps, -⟩ := hall
      exact hsteps
    | error e =>
      rw [Stage.Yields, (link_of_linkAll_error hphase hall).1] at h
      cases h.1
  obtain ⟨hbegun, htaken⟩ := l.linker.begun_of_ok hsteps
  constructor
  · rw [Event.begun]
    dsimp only
    rw [if_pos hphase, hbegun, ObjectGraph.filterMap_linkSteps]
  · intro n hn
    have hmem : LinkStep.setUp n ∈ l.graph.linkSteps :=
      List.mem_flatMap.2 ⟨n, hn, List.mem_cons_self⟩
    obtain ⟨m, hm⟩ := htaken _ hmem
    rw [Linker.work, Stage.result_bind_eq_ok_iff] at hm
    obtain ⟨tables, htables, -⟩ := hm
    exact ⟨tables, htables⟩

/-! ### The whole run -/

/-- What work leaves whose result is of no interest. -/
theorem state_discard {α : Type} (x : Work α) (l : Loader) :
    (((do let _ ← x) : Work Unit).run l).state = (x.run l).state := by
  cases hx : (x.run l).result with
  | ok a =>
    rw [Stage.state_bind_of_ok hx]
    rfl
  | error e => rw [Stage.run_bind_of_error hx]

/-- **A loader is stuck** if all libraries are loaded and the program cannot be linked. -/
def Stuck (l : Loader) : Prop := l.phase = .loaded ∧ ∃ e, (link.run l).result = .error e

/-- Linking that fails leaves a loader that is stuck. -/
theorem stuck_of_link_error (hphase : l.phase = .loaded) (h : (link.run l).result = .error e) :
    (link.run l).state.Stuck :=
  ⟨((ensures_link l).error e h).phase_eq.trans hphase, e, result_link_again h⟩

/-- **No call gets a stuck loader any further.** -/
theorem Stuck.after (h : l.Stuck) (c : Call) : (l.after c).Stuck := by
  by_cases hturn : l.phase = c.turn
  · cases c with
    | link =>
      obtain ⟨hphase, e, he⟩ := h
      have hstate : l.after .link = (link.run l).state := state_discard link l
      exact hstate ▸ stuck_of_link_error hphase he
    | _ => cases h.1.symm.trans hturn
  · rw [Loader.after, run_work_of_phase_ne hturn]
    exact h

/-- **The relocations that have been begun are accounted for**: before all libraries are loaded
there are none, and as long as the program is not linked there are none unless the loader is stuck.
In the end they are all relocations of the program. -/
def Accounted (begun : List Site) (l : Loader) : Prop :=
  match l.phase with
  | .created | .initiated => begun = []
  | .loaded => begun = [] ∨ l.Stuck
  | .linked | .finalized => begun = l.graph.sites ∧
      ∀ n ∈ l.graph.toList, ∃ tables, n.object.relocationTables.result = .ok tables

/-- A call that is refused begins nothing. -/
theorem Event.begun_of_phase_ne {c : Call} (h : l.phase ≠ c.turn) : Event.begun ⟨l, c⟩ = [] := by
  cases c with
  | link => exact if_neg h
  | _ => rfl

/-- Linking keeps account. -/
theorem Accounted.after_link {begun : List Site} (h : l.Accounted begun)
    (hphase : l.phase = .loaded) :
    (l.after .link).Accounted (begun ++ Event.begun ⟨l, .link⟩) := by
  have hstate : l.after .link = (link.run l).state := state_discard link l
  unfold Accounted at h ⊢
  rw [hphase] at h
  cases hresult : (link.run l).result with
  | ok count =>
    -- the loader has not been stuck, so this is the first time
    obtain ⟨-, hphase', hgraph⟩ := (ensures_link l).ok count _ ⟨hresult, rfl⟩
    obtain ⟨hbegun, htables⟩ := begun_of_link ⟨hresult, rfl⟩
    rw [hstate, hphase', hgraph, hbegun]
    rcases h with rfl | ⟨-, e, he⟩
    · exact ⟨rfl, htables⟩
    · rw [he] at hresult
      cases hresult
  | error e =>
    have hstuck := stuck_of_link_error hphase hresult
    rw [hstate, hstuck.1]
    exact .inr hstuck

/-- Before the program is linked, no relocation need have been begun. -/
theorem accounted_nil (h : l.phase = .created ∨ l.phase = .initiated ∨ l.phase = .loaded) :
    l.Accounted [] := by
  unfold Accounted
  rcases h with h | h | h
  · rw [h]
  · rw [h]
  · rw [h]
    exact .inl rfl

/-- **Every call keeps account** of the relocations that it begins. -/
theorem Accounted.after {begun : List Site} (h : l.Accounted begun) (c : Call) :
    (l.after c).Accounted (begun ++ Event.begun ⟨l, c⟩) := by
  by_cases hturn : l.phase = c.turn
  · cases c with
    | initiate fs path =>
      unfold Accounted at h
      rw [hturn] at h
      obtain rfl : begun = [] := h
      refine accounted_nil ?_
      rcases after_cases l (.initiate fs path) with ⟨-, -, hphase⟩ | ⟨e, -, hphase⟩
      · exact .inr (.inl hphase)
      · exact .inl (hphase.trans hturn)
    | loadLibraries fs =>
      unfold Accounted at h
      rw [hturn] at h
      obtain rfl : begun = [] := h
      refine accounted_nil ?_
      rcases after_cases l (.loadLibraries fs) with ⟨-, -, hphase⟩ | ⟨e, -, hphase⟩
      · exact .inr (.inr hphase)
      · exact .inr (.inl (hphase.trans hturn))
    | link => exact h.after_link hturn
    | finalize =>
      have hstate : l.after .finalize = (finalize.run l).state := state_discard finalize l
      have hgraph : (l.after .finalize).graph = l.graph := by
        rw [hstate]
        exact ((ensures_finalize l).mono (fun _ _ h => h.2.2) fun _ h => h.graph_eq).state
      unfold Accounted at h ⊢
      rw [hturn] at h
      obtain ⟨rfl, htables⟩ := h
      rcases after_cases l .finalize with ⟨-, -, hphase⟩ | ⟨e, -, hphase⟩
      · rw [hphase, hgraph]
        exact ⟨List.append_nil _, htables⟩
      · rw [hphase, hturn, hgraph]
        exact ⟨List.append_nil _, htables⟩
  · rw [Event.begun_of_phase_ne hturn, List.append_nil, Loader.after, run_work_of_phase_ne hturn]
    exact h

namespace History

variable {es : List Event}

/-- What every call preserves holds in the end. -/
theorem preserves {P : Loader → Prop} (h : History l es l') (hP : ∀ l c, P l → P (l.after c))
    (hl : P l) : P l' := by
  induction h with
  | start l => exact hl
  | call c _ ih => exact ih (hP _ c hl)

/-- Every call is followed by what is left of the history. -/
theorem after_mem (h : History l es l') {event : Event} (hevent : event ∈ es) :
    ∃ es', History (event.loader.after event.call) es' l' := by
  induction h with
  | start l => cases hevent
  | call c others ih =>
    rcases List.mem_cons.1 hevent with rfl | hevent
    · exact ⟨_, others⟩
    · exact ih hevent

/-- **Account is kept all along.** -/
theorem accounted (h : History l es l') {begun : List Site} (hl : l.Accounted begun) :
    l'.Accounted (begun ++ es.flatMap Event.begun) := by
  induction h generalizing begun with
  | start l => exact (List.append_nil begun).symm ▸ hl
  | call c _ ih =>
    rw [List.flatMap_cons, ← List.append_assoc]
    exact ih (hl.after c)

/-- **Relocations are begun by linking that succeeds**, if the loader is not stuck in the end. -/
theorem link_of_begun (h : History l es l') (hl' : ¬ l'.Stuck) {event : Event}
    (hevent : event ∈ es) (hbegun : event.begun ≠ []) :
    event.call = .link ∧ ∃ count, (link.run event.loader).result = .ok count := by
  obtain ⟨k, c⟩ := event
  by_cases hturn : k.phase = c.turn
  · cases c with
    | link =>
      refine ⟨rfl, ?_⟩
      cases hresult : (link.run k).result with
      | ok count => exact ⟨count, rfl⟩
      | error e =>
        obtain ⟨es', hrest⟩ := h.after_mem hevent
        exact absurd (hrest.preserves (fun _ c => (·.after c))
          (Stuck.after ⟨hturn, e, hresult⟩ .link)) hl'
    | _ => exact absurd rfl hbegun
  · exact absurd (Event.begun_of_phase_ne hturn) hbegun

end History

/-- **Relocations are carried out once.** Memories of one size are linked with the same result, so
linking that has failed fails again. Whatever linking does to memory, the relocations do that it
begins. And whatever a user does with a new loader, if the program is linked in the end, then all
calls together, also those that have failed, have begun each of its relocations just once, and
those that have begun any have succeeded. -/
theorem relocations_of_actions (config : Config) (processor : Processor) (memory : Memory)
    (actions : List Action) :
    (∀ (l : Loader) (m : Memory), m.size = l.memory.size →
        (link.run { l with memory := m }).result = (link.run l).result) ∧
      (∀ (l : Loader) (e : LoadError), (link.run l).result = .error e →
        (link.run (link.run l).state).result = .error e) ∧
      (∀ l : Loader, (link.run l).state.memory =
        l.linker.memoryAfter (Event.begun ⟨l, .link⟩) l.memory) ∧
      ∀ l : Loader, (new config processor memory).afterActions actions = l →
        .linked ∈ l.phase.passed →
        (events (new config processor memory) actions).flatMap Event.begun = l.graph.sites ∧
          l.graph.sites.Nodup ∧
          (∀ n ∈ l.graph.toList, ∃ tables, n.object.relocationTables.result = .ok tables) ∧
          ∀ event ∈ events (new config processor memory) actions, event.begun ≠ [] →
            event.call = .link ∧ ∃ count, (link.run event.loader).result = .ok count := by
  refine ⟨fun l m => result_link_eq, fun l e => result_link_again, memory_link, ?_⟩
  intro l hl hlinked
  have hhistory := history_events (new config processor memory) actions
  rw [hl] at hhistory
  have hnew : (new config processor memory).Accounted [] := rfl
  have haccounted := hhistory.accounted hnew
  have htended : l.Tended 0 := hhistory.preserves
    (fun _ _ h => h.of_call fun habandons => Nat.lt_irrefl 0 habandons.1)
    (tended_new 0 config processor memory)
  have hstuck : ¬ l.Stuck := by
    rintro ⟨hphase, -⟩
    rw [hphase] at hlinked
    exact absurd hlinked (by decide)
  have hall : (events (new config processor memory) actions).flatMap Event.begun = l.graph.sites ∧
      ∀ n ∈ l.graph.toList, ∃ tables, n.object.relocationTables.result = .ok tables := by
    unfold Accounted at haccounted
    cases hphase : l.phase with
    | linked | finalized =>
      rw [hphase] at haccounted
      exact haccounted
    | created | initiated | loaded =>
      rw [hphase] at hlinked
      exact absurd hlinked (by decide)
  exact ⟨hall.1, htended.numbered.nodup_sites, hall.2, fun event => hhistory.link_of_begun hstuck⟩

end Loader

/-! ### A program of one relocation -/

/-- A file system with the file `ElfLoader.relativeWord` in it. -/
def relativeFiles : FileSystem := ⟨[(["a"], .file relativeWord)], [], []⟩

namespace Loader

theorem open_relativeWord :
    (Object.open relativeFiles "a" 4096).result = .ok relativeNode.object := eq_ok_get _

/-- What is in the file. -/
theorem relativeNode_facts : relativeNode.object.needed = [] ∧
    relativeNode.object.versions.needs.toList = [] ∧ relativeNode.object.isShared = true ∧
    relativeNode.object.extent = ⟨0, 0x1000⟩ ∧
    Processor.arm.action? relativeSite.entry.type = some .relative := by
  decide +kernel

/-- The executable is placed at the first page behind the guard page. -/
theorem exists_initiate_relative : ∃ entry l,
    (initiate relativeFiles "a").Yields (new .standard .arm (.zeroed 0x100000)) entry l ∧
      l.phase = .initiated ∧ l.graph.nodes = #[relativeNode] ∧ l.processor = .arm ∧
      l.memory.size = 0x100000 := by
  obtain ⟨-, -, hshared, hextent, -⟩ := relativeNode_facts
  obtain ⟨entry, l, hinitiate, h⟩ := exists_begun_of_onePage .arm (.zeroed 0x100000) rfl
    open_relativeWord ⟨hshared, hextent⟩ (by decide +kernel) (eq_ok_get (by decide +kernel))
  have hnode : rootAt "a" relativeNode.object 0x1000 = relativeNode := by
    have hname : executableName "a" = "a" := by decide +kernel
    rw [rootAt, hextent, hname]
    rfl
  exact ⟨entry, l, hinitiate, h.initiated.phase_eq, hnode ▸ h.initiated.nodes_eq, h.processor_eq,
    h.initiated.orderly.size_memory⟩

/-- Nothing else is needed. -/
theorem exists_loadLibraries_relative {l : Loader} (hphase : l.phase = .initiated)
    (hnodes : l.graph.nodes = #[relativeNode]) :
    ∃ l', (loadLibraries relativeFiles).Yields l () l' ∧ l'.phase = .loaded ∧
      l'.graph = l.graph ∧ l'.processor = l.processor ∧ l'.memory = l.memory := by
  obtain ⟨hneeded, hversions, -⟩ := relativeNode_facts
  have hrequests : l.graph.requestsOf (Key.ofNat 0) = [] := by
    have hn : l.graph.nodes[(Key.ofNat 0).toNat]? = some relativeNode := by
      rw [hnodes]
      rfl
    rw [ObjectGraph.requestsOf, ObjectGraph.get?, hn]
    dsimp only
    rw [Node.requests, hneeded]
    rfl
  have hneeds : l.graph.checkNeeds.result = .ok () := by
    refine checkNeeds_of_needs_eq_nil fun n hn => ?_
    rw [ObjectGraph.settled, ObjectGraph.toList, hnodes] at hn
    obtain rfl := List.mem_singleton.1 hn
    exact hversions
  refine ⟨_, yields_loadLibraries hphase ?_ hneeds, rfl, rfl, rfl, rfl⟩
  rw [hrequests, serveAll_nil]
  exact Stage.yields_pure_iff.2 ⟨rfl, rfl⟩

theorem sites_relativeNode : relativeNode.sites = [relativeSite] :=
  (Node.sites_eq tables_relativeNode).1

/-- The relocation is carried out in every memory that has its address. -/
theorem exists_linkEntry_relative {k : Linker} {m : Memory} (hprocessor : k.processor = .arm)
    (hm : m.size = 0x100000) :
    ∃ m', (k.linkEntry relativeNode 0 relativeSite.entry).Yields m () m' := by
  obtain ⟨-, -, -, -, haction⟩ := relativeNode_facts
  have hin : (relativeNode.relocate 148).toNat + 4 ≤ m.size := hm ▸ by decide
  obtain ⟨addend, haddend⟩ : ∃ addend,
      m.readWord (relativeNode.relocate 148) k.order = .ok addend :=
    ⟨_, Memory.readWord_eq_ok_iff.2 ⟨hin, rfl⟩⟩
  obtain ⟨m', hm'⟩ : ∃ m', m.writeWord (relativeNode.relocate 148) (relativeNode.base + addend)
      k.order = .ok m' := ⟨_, Memory.writeWord_eq_ok_iff.2 ⟨hin, rfl⟩⟩
  refine ⟨m', Linker.yields_linkEntry (s := relativeSite) (d := none) haddend rfl
    (hprocessor ▸ haction) ?_⟩
  exact Processor.yields_applyAll_singleton_iff.2 hm'

/-- **The program is linked.** -/
theorem exists_link_relative {l : Loader} (hphase : l.phase = .loaded)
    (hnodes : l.graph.nodes = #[relativeNode]) (hprocessor : l.processor = .arm)
    (hmemory : l.memory.size = 0x100000) :
    ∃ l', link.Yields l 1 l' ∧ l'.phase = .linked ∧ l'.graph = l.graph := by
  have hlist : l.graph.toList = [relativeNode] := by rw [ObjectGraph.toList, hnodes]
  have hsites : l.graph.sites = [relativeSite] := by
    rw [ObjectGraph.sites, hlist, List.flatMap_singleton, sites_relativeNode]
  obtain ⟨m, hentry⟩ := exists_linkEntry_relative (k := l.linker) hprocessor hmemory
  have hlinks : l.linker.Links l.graph.sites l.memory m := by
    rw [hsites]
    exact .step hentry (.done m)
  have hlink := link_of_links hphase (by
    rw [hlist, List.forall_mem_singleton]
    exact (Node.sites_eq tables_relativeNode).2) hlinks
  rw [hsites] at hlink
  exact ⟨_, hlink, rfl, rfl⟩

/-- What a user does who loads the program and links it twice. -/
def relativeActions : List Action :=
  [.phase (.initiate relativeFiles "a"), .phase (.loadLibraries relativeFiles), .phase .link,
    .phase .link]

/-- **The program is linked once**, although a user tries to do so twice. -/
theorem relocations_of_relativeActions :
    (events (new .standard .arm (.zeroed 0x100000)) relativeActions).flatMap Event.begun =
      [relativeSite] := by
  obtain ⟨entry, l, hinitiate, hphase, hnodes, hprocessor, hmemory⟩ := exists_initiate_relative
  obtain ⟨l₁, hload, hphase₁, hgraph₁, hprocessor₁, hmemory₁⟩ :=
    exists_loadLibraries_relative hphase hnodes
  have hnodes₁ : l₁.graph.nodes = #[relativeNode] := hgraph₁ ▸ hnodes
  obtain ⟨l₂, hlink, hphase₂, hgraph₂⟩ := exists_link_relative hphase₁ hnodes₁
    (hprocessor₁.trans hprocessor) ((congrArg Memory.size hmemory₁).trans hmemory)
  have hfirst : (new .standard .arm (.zeroed 0x100000)).after (.initiate relativeFiles "a") = l :=
    after_initiate hinitiate
  have hsecond : l.after (.loadLibraries relativeFiles) = l₁ := hload.2
  have hthird : l₁.after .link = l₂ := (state_discard link l₁).trans hlink.2
  -- the second time it is not the turn of linking
  have hfourth : l₂.after .link = l₂ := by
    refine congrArg Outcome.state (run_work_of_phase_ne ?_)
    rw [hphase₂]
    exact nofun
  have hlast : (new .standard .arm (.zeroed 0x100000)).afterActions relativeActions = l₂ := by
    change ((((new .standard .arm (.zeroed 0x100000)).after (.initiate relativeFiles "a")).after
      (.loadLibraries relativeFiles)).after .link).after .link = _
    rw [hfirst, hsecond, hthird, hfourth]
  have hlinked : .linked ∈ l₂.phase.passed := by
    rw [hphase₂]
    decide
  obtain ⟨-, -, -, hbegun⟩ :=
    relocations_of_actions .standard .arm (.zeroed 0x100000) relativeActions
  rw [(hbegun l₂ hlast hlinked).1, ObjectGraph.sites, ObjectGraph.toList, hgraph₂, hnodes₁]
  exact (List.append_nil _).trans sites_relativeNode

end Loader

end ElfLoader
