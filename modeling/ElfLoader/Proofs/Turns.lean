import ElfLoader.Proofs.Registry
import ElfLoader.Proofs.TwoRuns

/-!
# Phases in turn

A user may call the phases of a loader in any order, again after they have failed, and all of
them in a row (`ElfLoader.Loader.Action`). For a single call there are three ways to go
(`ElfLoader.Loader.ensures_work`, `ElfLoader.Loader.run_work_of_phase_ne`):

* it is not its turn: it is refused, and the loader stays as it is in every respect;
* it fails: the loader may have changed, but it is in the same phase;
* it succeeds: the loader is in the next phase.

So whatever is called, the calls that have succeeded are those of the phases up to the one that
the loader is in (`ElfLoader.Loader.phases_of_actions`). What a user does is told by its
*history*, the single calls that are made in the course of it (`ElfLoader.Loader.History`).
-/

namespace ElfLoader

/-- The phases that a loader has gone through, up to the one that it is in. -/
def Phase.passed : Phase → List Phase
  | created => []
  | initiated => [initiated]
  | loaded => [initiated, loaded]
  | linked => [initiated, loaded, linked]
  | finalized => [initiated, loaded, linked, finalized]

namespace Loader

variable {fs : FileSystem} {path name : String} {l l' l'' : Loader} {c : Call} {n : Node}
  {o : Object} {r : Request}

/-! ### A single call -/

namespace Call

/-- The phase in which it is the turn of a call. -/
def turn : Call → Phase
  | initiate _ _ => .created
  | loadLibraries _ => .initiated
  | link => .loaded
  | finalize => .linked

/-- The phase that a call is for. -/
def goal : Call → Phase
  | initiate _ _ => .initiated
  | loadLibraries _ => .loaded
  | link => .linked
  | finalize => .finalized

/-- What a call is named when it is refused. -/
def activity : Call → String
  | initiate _ _ => "initiate"
  | loadLibraries _ => "load libraries"
  | link => "link"
  | finalize => "finalize"

theorem passed_goal (c : Call) : c.goal.passed = c.turn.passed ++ [c.goal] := by
  cases c <;> rfl

end Call

/-- **A call is refused** when it is not its turn, and nothing else happens. -/
theorem run_work_of_phase_ne (h : l.phase ≠ c.turn) :
    c.work.run l = ⟨.error (.phaseOrder c.activity l.phase.text), l, []⟩ := by
  cases c with
  | initiate fs path =>
    exact Stage.run_bind_of_run_error (Stage.run_bind_of_run_error (run_enter_of_phase_ne h _))
  | loadLibraries fs => exact Stage.run_bind_of_run_error (run_enter_of_phase_ne h _)
  | link =>
    exact Stage.run_bind_of_run_error (Stage.run_bind_of_run_error (run_enter_of_phase_ne h _))
  | finalize =>
    exact Stage.run_bind_of_run_error (Stage.run_bind_of_run_error (run_enter_of_phase_ne h _))

/-! ### What changes no phase -/

theorem preserves_enter {P : Loader → Prop} (expected : Phase) (activity : String) :
    (enter expected activity).Preserves P := by
  intro l h
  refine (ensures_enter h expected activity).mono ?_ fun _ => id
  rintro _ _ ⟨rfl, -⟩
  exact h

theorem preserves_settle (name : String) (o : Object) : (settle name o).Preserves l.Spares :=
  fun k hk => (ensures_settle k name o).mono (fun _ _ h => hk.trans h.2) fun _ h => hk.trans h

/-- Whatever comes before the executable is enrolled spares the graph. -/
theorem preserves_prepare (fs : FileSystem) (path : String) :
    (prepare fs path).Preserves l.Spares := by
  refine (preserves_enter _ _).bind fun _ => Stage.preserves_state.bind fun k => ?_
  refine (Stage.preserves_ofExcept _).bind fun _ => (Stage.preserves_ofReport _).bind fun o => ?_
  refine (Stage.preserves_ofExcept _).bind fun _ => ?_
  refine (Stage.preserves_update fun _ h => ⟨h.graph_eq, h.phase_eq⟩).bind fun _ => ?_
  refine (preserves_claim _).bind fun _ => (preserves_claim _).bind fun _ => ?_
  refine (preserves_noteLibrary _ o).bind fun _ => (preserves_noteInterpreter o).bind fun _ => ?_
  exact preserves_settle _ o

/-- So does whatever comes before a library is enrolled. -/
theorem preserves_fetch (fs : FileSystem) (name path : String) :
    (fetch fs name path).Preserves l.Spares := by
  refine Stage.preserves_state.bind fun k => (Stage.preserves_ofReport _).bind fun o => ?_
  exact (Stage.preserves_ofExcept _).bind fun _ => preserves_settle name o

section Phase

variable {phase : Phase}

/-- Work that spares the graph preserves the phase. -/
theorem preserves_phase_of_spares {α : Type} {x : Work α}
    (h : ∀ l : Loader, x.Preserves l.Spares) : x.Preserves fun l => l.phase = phase :=
  fun l hl => (h l l (.refl l)).mono (fun _ _ hs => hs.phase_eq.trans hl) fun _ hs =>
    hs.phase_eq.trans hl

theorem preserves_phase_enroll (fs : FileSystem) (n : Node) :
    (enroll fs n).Preserves fun l => l.phase = phase := by
  refine fun l h => ⟨?_, fun e _ => ?_⟩
  · intro key l' hkey
    obtain ⟨g, -, rfl⟩ := yields_enroll_iff.1 hkey
    exact h
  · unfold enroll Stage.run
    dsimp only
    split <;> exact h

theorem preserves_phase_bring (fs : FileSystem) (name path : String) :
    (bring fs name path).Preserves fun l => l.phase = phase := by
  rw [bring_eq]
  exact (preserves_phase_of_spares fun _ => preserves_fetch fs name path).bind
    (preserves_phase_enroll fs)

/-- Serving a request preserves the phase. -/
theorem preserves_phase_serve (fs : FileSystem) (r : Request) :
    (serve fs r).Preserves fun l => l.phase = phase := by
  intro l h
  refine ensures_serve_cases (fun _ _ => h) (fun _ _ => h) (fun _ _ _ _ _ => h) ?_
  exact fun path _ _ _ => preserves_phase_bring fs r.name path l h

end Phase

/-! ### What a call does to the phase -/

theorem ensures_phase_initiate (fs : FileSystem) (path : String) (l : Loader) :
    (initiate fs path).Ensures l (fun _ l' => l.phase = .created ∧ l'.phase = .initiated)
      (fun l' => l'.phase = l.phase) := by
  by_cases hphase : l.phase = .created
  · rw [initiate_eq]
    have hprepare : (prepare fs path).Preserves fun l' => l'.phase = l.phase :=
      preserves_phase_of_spares fun _ => preserves_prepare fs path
    refine Stage.ensures_bind (hprepare l rfl) ?_
    intro n l₁ h₁
    refine Stage.ensures_bind (preserves_phase_enroll fs n l₁ h₁) ?_
    intro key l₂ _
    refine Stage.ensures_bind (R := fun _ l' => l'.phase = .initiated) (Stage.ensures_update rfl) ?_
    intro _ l₃ h₃
    refine Stage.ensures_bind (Stage.ensures_state (Q := fun _ l' => l' = l₃) rfl) ?_
    rintro _ _ rfl
    exact Stage.ensures_pure ⟨hphase, h₃⟩
  · exact Stage.ensures_of_error
      (Stage.run_bind_of_run_error (run_enter_of_phase_ne hphase _)) rfl

theorem ensures_phase_loadLibraries (fs : FileSystem) (l : Loader) :
    (loadLibraries fs).Ensures l (fun _ l' => l.phase = .initiated ∧ l'.phase = .loaded)
      (fun l' => l'.phase = l.phase) := by
  refine Stage.ensures_bind (ensures_enter (P := fun l' => l'.phase = l.phase) rfl _ _) ?_
  rintro _ l ⟨rfl, hphase⟩
  have hserve : ∀ todo, Stage.Preserves (serveAll fs todo) fun l' => l'.phase = l.phase :=
    preserves_serveAll (preserves_phase_serve fs)
  refine Stage.ensures_bind (Stage.ensures_state (Q := fun k l' => l = k ∧ l = l') ⟨rfl, rfl⟩) ?_
  rintro _ _ ⟨rfl, rfl⟩
  refine Stage.ensures_bind (hserve _ l rfl) ?_
  intro _ l₁ h₁
  refine Stage.ensures_bind (Stage.preserves_state l₁ h₁) ?_
  intro k l₂ h₂
  refine Stage.ensures_bind (Stage.preserves_ofReport _ l₂ h₂) ?_
  intro _ l₃ h₃
  exact Stage.ensures_update ⟨hphase, rfl⟩

/-- **A call brings a loader to the phase that it is for, if it succeeds**, and else leaves it
in its phase. -/
theorem ensures_work (c : Call) (l : Loader) : c.work.Ensures l
    (fun _ l' => l.phase = c.turn ∧ l'.phase = c.goal) (fun l' => l'.phase = l.phase) := by
  cases c with
  | initiate fs path =>
    exact Stage.ensures_bind (ensures_phase_initiate fs path l) fun _ _ h => Stage.ensures_pure h
  | loadLibraries fs => exact ensures_phase_loadLibraries fs l
  | link =>
    refine Stage.ensures_bind ((ensures_link l).mono (fun _ _ h => h) fun _ h => h.phase_eq) ?_
    rintro _ l' ⟨hphase, hphase', -⟩
    exact Stage.ensures_pure ⟨hphase, hphase'⟩
  | finalize =>
    refine Stage.ensures_bind ((ensures_finalize l).mono (fun _ _ h => h) fun _ h => h.phase_eq) ?_
    rintro _ l' ⟨hphase, hphase', -⟩
    exact Stage.ensures_pure ⟨hphase, hphase'⟩

/-- **What comes of a call**, whoever makes it and when. -/
theorem after_cases (l : Loader) (c : Call) :
    ((c.work.run l).result = .ok () ∧ l.phase = c.turn ∧ (l.after c).phase = c.goal) ∨
      ∃ e, (c.work.run l).result = .error e ∧ (l.after c).phase = l.phase := by
  cases hc : (c.work.run l).result with
  | ok u => exact .inl ⟨rfl, (ensures_work c l).ok u _ ⟨hc, rfl⟩⟩
  | error e => exact .inr ⟨e, rfl, (ensures_work c l).error e hc⟩

/-! ### What a user does -/

/-- What a user does with a loader. -/
inductive Action where
  /-- A single phase is called. -/
  | phase (c : Call)
  /-- All phases are called in a row. -/
  | all (fs : FileSystem) (path : String)

namespace Action

/-- What is done then. -/
def work : Action → Work Unit
  | phase c => c.work
  | all fs path => do
    let _ ← loadAndLink fs path

/-- The phases that are called then, if none of them fails. -/
def calls : Action → List Call
  | phase c => [c]
  | all fs path => [.initiate fs path, .loadLibraries fs, .link, .finalize]

end Action

/-- The loader that is left behind in the end. -/
def afterActions (l : Loader) (actions : List Action) : Loader :=
  actions.foldl (fun l a => (a.work.run l).state) l

/-- A phase of a loader is called. -/
structure Event where
  /-- The loader, as it is before. -/
  loader : Loader
  /-- The call. -/
  call : Call

/-- The phase that the loader comes to; none if the call fails. -/
def Event.phase? (e : Event) : Option Phase :=
  match (e.call.work.run e.loader).result with
  | .ok _ => some e.call.goal
  | .error _ => none

/-- **Calls one after the other**, up to the first that fails. -/
def inTurn (l : Loader) : List Call → List Event
  | [] => []
  | c :: rest => ⟨l, c⟩ ::
    match (c.work.run l).result with
    | .ok _ => inTurn (l.after c) rest
    | .error _ => []

/-- **All calls that are made** in the course of what a user does. -/
def events (l : Loader) : List Action → List Event
  | [] => []
  | a :: rest => inTurn l a.calls ++ events (a.work.run l).state rest

/-- **The four phases one after the other**, up to the first that fails: what comes out, and the
loader that is left behind. -/
def phasesInTurn (fs : FileSystem) (path : String) (l : Loader) :
    Except LoadError ProgramInfo × Loader :=
  let first := (initiate fs path).run l
  match first.result with
  | .error e => (.error e, first.state)
  | .ok _ =>
    let second := (loadLibraries fs).run first.state
    match second.result with
    | .error e => (.error e, second.state)
    | .ok _ =>
      let third := link.run second.state
      match third.result with
      | .error e => (.error e, third.state)
      | .ok _ =>
        let last := finalize.run third.state
        (last.result, last.state)

/-- What is reported changes nothing. -/
theorem alike_report_bind {α : Type} (notices : Loader → List Notice) (x : Work α) (l : Loader) :
    (Stage.state >>= fun k => report (notices k) >>= fun _ => x).Alike l x l Eq Eq := by
  obtain ⟨hresult, hstate⟩ : (report (notices l)).Yields l () l := yields_report_iff.2 rfl
  constructor
  · change Corresponds Eq ((report (notices l) >>= fun _ => x).run l).result _
    rw [Stage.run_bind, hresult, hstate]
    exact .refl _
  · change ((report (notices l) >>= fun _ => x).run l).state = _
    rw [Stage.state_bind_of_ok hresult, hstate]

/-- **All phases in a row** are the four phases one after the other. -/
theorem run_loadAndLink (fs : FileSystem) (path : String) (l : Loader) :
    ((loadAndLink fs path).run l).result = (phasesInTurn fs path l).1 ∧
      ((loadAndLink fs path).run l).state = (phasesInTurn fs path l).2 := by
  unfold loadAndLink phasesInTurn
  rw [Stage.run_bind]
  rcases (initiate fs path).run l with ⟨_ | entry, l₁, _⟩
  · exact ⟨rfl, rfl⟩
  dsimp only
  rw [Stage.run_bind]
  rcases (loadLibraries fs).run l₁ with ⟨_ | u, l₂, _⟩
  · exact ⟨rfl, rfl⟩
  dsimp only
  rw [Stage.run_bind]
  rcases link.run l₂ with ⟨_ | count, l₃, _⟩
  · exact ⟨rfl, rfl⟩
  have hlast := alike_report_bind (fun k => [.linked count k.graph.size]) finalize l₃
  exact ⟨hlast.result.eq, hlast.state⟩

/-! ### Histories -/

/-- **A history of a loader**: calls, each of them on the loader that the one before has left,
and the loader that the last one leaves. -/
inductive History : Loader → List Event → Loader → Prop
  /-- Nothing has been called. -/
  | start (l : Loader) : History l [] l
  /-- A phase is called, and then others. -/
  | call {l l' : Loader} {es : List Event} (c : Call) (others : History (l.after c) es l') :
    History l (⟨l, c⟩ :: es) l'

theorem History.append {es es' : List Event} (h : History l es l') (h' : History l' es' l'') :
    History l (es ++ es') l'' := by
  induction h with
  | start l => exact h'
  | call c _ ih => exact .call c (ih h')

/-- Calls one after the other make a history. -/
theorem history_inTurn (l : Loader) (calls : List Call) :
    History l (inTurn l calls) ((Stage.sequence (calls.map Call.work)).run l).state := by
  induction calls generalizing l with
  | nil => exact .start l
  | cons c rest ih =>
    rw [inTurn, List.map_cons, Stage.sequence]
    refine .call c ?_
    cases hc : (c.work.run l).result with
    | ok u =>
      rw [Stage.state_bind_of_ok hc]
      exact ih (l.after c)
    | error e =>
      rw [Stage.run_bind_of_error hc]
      exact .start _

/-- What a user does is to make calls, one after the other. -/
theorem alike_sequence_calls (a : Action) (l : Loader) :
    a.work.Alike l (Stage.sequence (a.calls.map Call.work)) l Eq Eq := by
  cases a with
  | phase c =>
    change c.work.Alike l (c.work >>= fun _ => pure ()) l Eq Eq
    rw [Stage.bind_pure_unit]
    exact .refl _ _
  | all fs path =>
    simp only [Action.work, Action.calls, List.map, Call.work, loadAndLink, Stage.sequence,
      Stage.bind_assoc, Stage.pure_bind]
    refine (Stage.Alike.refl _ l).bind ?_
    rintro _ _ l₁ _ rfl rfl
    refine (Stage.Alike.refl _ l₁).bind ?_
    rintro _ _ l₂ _ rfl rfl
    refine (Stage.Alike.refl _ l₂).bind ?_
    rintro count _ l₃ _ rfl rfl
    exact alike_report_bind (fun k => [.linked count k.graph.size]) _ l₃

/-- **What a user does makes a history.** -/
theorem history_events (l : Loader) (actions : List Action) :
    History l (events l actions) (l.afterActions actions) := by
  induction actions generalizing l with
  | nil => exact .start l
  | cons a rest ih =>
    refine History.append ?_ (ih (a.work.run l).state)
    rw [(alike_sequence_calls a l).state]
    exact history_inTurn l a.calls

/-- The phase of a loader tells which calls have succeeded. -/
theorem History.passed_eq {es : List Event} (h : History l es l') :
    l'.phase.passed = l.phase.passed ++ es.filterMap Event.phase? := by
  induction h with
  | start l => exact (List.append_nil _).symm
  | @call l l' es c _ ih =>
    rw [ih]
    rcases after_cases l c with ⟨hok, hturn, hgoal⟩ | ⟨e, herror, hphase⟩
    · have hsome : Event.phase? ⟨l, c⟩ = some c.goal := by
        rw [Event.phase?, hok]
      rw [List.filterMap_cons_some hsome, hgoal, c.passed_goal, hturn, List.append_assoc]
      rfl
    · have hnone : Event.phase? ⟨l, c⟩ = none := by
        rw [Event.phase?, herror]
      rw [List.filterMap_cons_none hnone, hphase]

theorem passed_prefix (p : Phase) : p.passed <+: Phase.finalized.passed := by
  cases p <;> decide

/-- **Phases take their turns**, whatever a user does with a new loader. Its calls make a
history, and those that succeed are for the phases up to the one that the loader is in: the first
of the four phases in their order, each of them once. A call that is not in its turn is refused,
and the loader stays as it is. One that fails in its turn leaves the loader in its phase. All
phases in a row are the four phases one after the other, up to the first that fails. -/
theorem phases_of_actions (config : Config) (processor : Processor) (memory : Memory)
    (actions : List Action) :
    History (new config processor memory) (events (new config processor memory) actions)
        ((new config processor memory).afterActions actions) ∧
      (events (new config processor memory) actions).filterMap Event.phase? =
        ((new config processor memory).afterActions actions).phase.passed ∧
      ((new config processor memory).afterActions actions).phase.passed <+:
        [.initiated, .loaded, .linked, .finalized] ∧
      (∀ (l : Loader) (c : Call), l.phase ≠ c.turn →
        c.work.run l = ⟨.error (.phaseOrder c.activity l.phase.text), l, []⟩) ∧
      (∀ (l : Loader) (c : Call) (e : LoadError), (c.work.run l).result = .error e →
        (l.after c).phase = l.phase) ∧
      ∀ (l : Loader) (fs : FileSystem) (path : String),
        ((loadAndLink fs path).run l).result = (phasesInTurn fs path l).1 ∧
          ((loadAndLink fs path).run l).state = (phasesInTurn fs path l).2 := by
  have hhistory := history_events (new config processor memory) actions
  refine ⟨hhistory, hhistory.passed_eq.symm, passed_prefix _, ?_, ?_, ?_⟩
  · exact fun l c => run_work_of_phase_ne
  · exact fun l c => (ensures_work c l).error
  · exact fun l fs path => run_loadAndLink fs path l

/-- A second phase that fails, and succeeds when it is called once more, counts once. -/
theorem phases_of_gapCalls : gapCalls.length = 3 ∧
    (events gapLoader (gapCalls.map .phase)).filterMap Event.phase? = [.initiated, .loaded] := by
  obtain ⟨l, -, -, hl, hphase, -⟩ := afterAll_gapCalls
  obtain ⟨-, hpassed, -⟩ :=
    phases_of_actions gapConfig .arm (.zeroed 0x100000) (gapCalls.map .phase)
  have hlast : gapLoader.afterActions (gapCalls.map .phase) = l := by
    rw [afterActions, List.foldl_map]
    exact hl
  refine ⟨rfl, hpassed.trans ?_⟩
  change (gapLoader.afterActions (gapCalls.map .phase)).phase.passed = _
  rw [hlast, hphase]
  rfl

end Loader

end ElfLoader
