import ElfLoader.Proofs.Conditions
import ElfLoader.Proofs.Serving

/-!
# Calls that may fail

A user calls the phases of a loader one after the other, and nothing keeps a user from
calling one again that has failed (`ElfLoader.Loader.Call`). So the graph of the loaded
objects has to be told after every call, also after one that has failed.

Whatever fails while a single object is placed, the graph is left alone
(`ElfLoader.Loader.Spares`). So a graph changes only by requests that are served
(`ElfLoader.ObjectGraph.Serving`), and when the executable joins it.
-/

namespace ElfLoader

/-! ### What happens to a graph -/

namespace ObjectGraph

variable {g g' : ObjectGraph} {n : Node} {name : String} {r : Request} {more : List Request}

/-- **What serving a request does to a graph**: an edge comes to it, and maybe a name or an
object with requests of its own. -/
inductive Serving (r : Request) (g : ObjectGraph) : List Request → ObjectGraph → Prop
  /-- The name is known. -/
  | known {dep : Key} (found : g.find? r.name = some dep) :
    Serving r g [] (g.addEdge r.asker dep)
  /-- The name is one more name for an object. -/
  | aliased {dep : Key} (new : g.find? r.name = none) (loaded : dep.toNat < g.size) :
    Serving r g [] ((g.insertAlias r.name dep).2.addEdge r.asker dep)
  /-- The name leads to an object that joins the graph. -/
  | joined {n : Node} {g₁ : ObjectGraph} (joined : g.Joined r.name n g₁) :
    Serving r g (n.requests n.key) (g₁.addEdge r.asker n.key)

theorem Serving.numbered (h : g.Serving r more g') (hg : g.Numbered) : g'.Numbered := by
  cases h with
  | known found => exact hg.addEdge _ _
  | aliased new loaded => exact (hg.insertAlias _ loaded).addEdge _ _
  | joined joined => exact joined.numbered.addEdge _ _

end ObjectGraph

namespace Loader

variable {fs : FileSystem} {path name : String} {r : Request} {l l' l'' : Loader} {o : Object}
  {n : Node}

/-! ### Placing an object -/

/-- **Work spares the graph**: objects, names and phase are as they were. -/
structure Spares (l l' : Loader) : Prop where
  /-- The graph stays. -/
  graph_eq : l'.graph = l.graph
  /-- The phase stays. -/
  phase_eq : l'.phase = l.phase

theorem Spares.refl (l : Loader) : l.Spares l := ⟨rfl, rfl⟩

theorem Spares.trans (h : l.Spares l') (h' : l'.Spares l'') : l.Spares l'' :=
  ⟨h'.graph_eq.trans h.graph_eq, h'.phase_eq.trans h.phase_eq⟩

/-- Settling an object spares the graph. -/
theorem ensures_settle (l : Loader) (name : String) (o : Object) :
    (settle name o).Ensures l (fun n l' => (∃ address, n = l.nodeAt name o address) ∧ l.Spares l')
      l.Spares where
  ok n l' h := by
    obtain ⟨address, map, memory, -, rfl, rfl⟩ := of_settle h
    exact ⟨⟨address, rfl⟩, rfl, rfl⟩
  error e _ := by
    unfold settle Stage.run
    dsimp only
    split
    · exact .refl l
    · split <;> exact ⟨rfl, rfl⟩

/-- An object is enrolled under a new name, or nothing happens. -/
theorem ensures_enroll (hg : l.graph.Numbered) (hkey : n.key = l.graph.nextKey)
    (new : l.graph.find? n.name = none) :
    (enroll fs n).Ensures l
      (fun key l' => key = n.key ∧ l'.phase = l.phase ∧ l.graph.Joined n.name n l'.graph)
      l.Spares where
  ok key l' h := by
    obtain ⟨rfl, graph, rfl, hnodes, hkeeps, hfind, hnumbered⟩ := of_enroll hg hkey new h
    exact ⟨rfl, rfl, hnodes, hfind, hkeeps, hnumbered⟩
  error e he := by
    unfold enroll Stage.run at he ⊢
    dsimp only at he ⊢
    split
    · exact .refl l
    · next hinsert => simp [hinsert] at he

/-- **An object that is placed under a new name joins the graph.** If it cannot be placed,
the graph is spared. -/
theorem ensures_place (hg : l.graph.Numbered) (new : l.graph.find? name = none) :
    (place fs name o).Ensures l
      (fun key l' => l'.phase = l.phase ∧ ∃ n, key = n.key ∧ l.graph.Joined name n l'.graph)
      l.Spares := by
  refine Stage.ensures_bind (ensures_settle l name o) ?_
  rintro _ l₁ ⟨⟨address, rfl⟩, hspares⟩
  have hg₁ : l₁.graph.Numbered := hspares.graph_eq ▸ hg
  refine (ensures_enroll hg₁ (hspares.graph_eq ▸ rfl) (hspares.graph_eq ▸ new)).mono ?_ ?_
  · rintro key l' ⟨rfl, hphase, hjoined⟩
    exact ⟨hphase.trans hspares.phase_eq, _, rfl, hspares.graph_eq ▸ hjoined⟩
  · exact fun l' => hspares.trans

/-- **A file that is brought under a new name joins the graph**, or the graph is spared. -/
theorem ensures_bring (fs : FileSystem) (path : String) (hg : l.graph.Numbered)
    (new : l.graph.find? name = none) : (bring fs name path).Ensures l
      (fun key l' => l'.phase = l.phase ∧ ∃ n, key = n.key ∧ l.graph.Joined name n l'.graph)
      l.Spares := by
  refine Stage.ensures_bind (R := fun _ => (l = ·)) (Stage.ensures_state rfl) ?_
  rintro _ _ rfl
  refine Stage.ensures_bind (R := fun _ => (l = ·))
    (Stage.ensures_ofReport (fun _ _ => rfl) (.refl l)) ?_
  rintro o _ rfl
  refine Stage.ensures_bind (R := fun _ => (l = ·))
    (Stage.ensures_ofExcept (fun _ _ => rfl) (.refl l)) ?_
  rintro _ _ rfl
  exact ensures_place hg new

/-! ### Serving requests -/

/-- **What serving a request ensures** has to be ensured for each of the ways in which it may
go. -/
theorem ensures_serve_cases {Q : List Request → Loader → Prop} {E : Loader → Prop}
    (known : ∀ dep, l.graph.find? r.name = some dep → Q [] (l.answer r dep))
    (missing : l.graph.find? r.name = none → l.config.libraryPath.find? fs r.name = none → E l)
    (aliased : ∀ path dep, l.graph.find? r.name = none →
      l.config.libraryPath.find? fs r.name = some path →
      l.graph.find? (fs.canonical path) = some dep →
      Q [] ({ l with graph := (l.graph.insertAlias r.name dep).2 }.answer r dep))
    (brought : ∀ path, l.graph.find? r.name = none →
      l.config.libraryPath.find? fs r.name = some path →
      l.graph.find? (fs.canonical path) = none → (bring fs r.name path).Ensures l
        (fun dep l' => Q (l'.graph.requestsOf dep) (l'.answer r dep)) E) :
    (serve fs r).Ensures l Q E := by
  cases hfind : l.graph.find? r.name with
  | some dep => exact Stage.ensures_of_ok (run_serve_of_known hfind) (known dep hfind)
  | none =>
    cases hpath : l.config.libraryPath.find? fs r.name with
    | none => exact Stage.ensures_of_error (run_serve_of_missing hfind hpath) (missing hfind hpath)
    | some path =>
      cases hfile : l.graph.find? (fs.canonical path) with
      | some dep =>
        exact Stage.ensures_of_ok (run_serve_of_alias hfind hpath hfile)
          (aliased path dep hfind hpath hfile)
      | none =>
        have hbring := brought path hfind hpath hfile
        cases hresult : ((bring fs r.name path).run l).result with
        | error e =>
          exact Stage.ensures_of_error (run_serve_of_bring_error hfind hpath hfile hresult)
            (hbring.error e hresult)
        | ok key =>
          exact Stage.ensures_of_ok (run_serve_of_bring hfind hpath hfile hresult)
            (hbring.ok key _ ⟨hresult, rfl⟩)

/-- **A request is served, or the graph is spared.** -/
theorem ensures_serve (hg : l.graph.Numbered) (fs : FileSystem) (r : Request) :
    (serve fs r).Ensures l
      (fun more l' => l'.phase = l.phase ∧ l.graph.Serving r more l'.graph) l.Spares := by
  refine ensures_serve_cases ?_ ?_ ?_ ?_
  · exact fun dep hfind => ⟨rfl, .known hfind⟩
  · exact fun _ _ => .refl l
  · exact fun path dep hfind _ hfile => ⟨rfl, .aliased hfind (hg.known _ _ hfile)⟩
  · intro path hfind _ _
    refine (ensures_bring fs path hg hfind).mono ?_ fun _ => id
    rintro _ l' ⟨hphase, n, rfl, hjoined⟩
    rw [hjoined.requestsOf_eq]
    exact ⟨hphase, .joined hjoined⟩

/-- **Requests are served until one of them cannot be.** What every request that is served
keeps, of the graph and of the requests that are left, holds in the end. -/
theorem ensures_serveAll (fs : FileSystem) {todo : List Request}
    {P : ObjectGraph → List Request → Prop}
    (hP : ∀ {g g' : ObjectGraph} {r : Request} {more rest : List Request}, g.Numbered →
      g.Serving r more g' → P g (r :: rest) → P g' (more ++ rest))
    (hg : l.graph.Numbered) (h : P l.graph todo) :
    Stage.Ensures (serveAll fs todo) l
      (fun _ l' => l'.phase = l.phase ∧ l'.graph.Numbered ∧ P l'.graph [])
      (fun l' => l'.phase = l.phase ∧ l'.graph.Numbered) := by
  induction todo, l using serveAll.induct fs with
  | case1 l =>
    rw [serveAll_nil]
    exact Stage.ensures_pure ⟨rfl, hg, h⟩
  | case2 l r rest e l₁ ns served =>
    have hspares := (ensures_serve hg fs r).error e (congrArg Outcome.result served)
    have hstate : ((serve fs r).run l).state = l₁ := congrArg Outcome.state served
    rw [hstate] at hspares
    exact Stage.ensures_of_error (run_serveAll_of_error served rest)
      ⟨hspares.phase_eq, hspares.graph_eq ▸ hg⟩
  | case3 l r rest more l₁ ns served ih =>
    obtain ⟨hphase, hserving⟩ := (ensures_serve hg fs r).ok more l₁ (Stage.yields_of_run served)
    have hothers := ih (hserving.numbered hg) (hP hg hserving h)
    rw [hphase] at hothers
    rw [serveAll_cons]
    refine Stage.ensures_bind (R := fun more' l' => more' = more ∧ l' = l₁)
      (Stage.ensures_of_ok served ⟨rfl, rfl⟩) ?_
    rintro _ _ ⟨rfl, rfl⟩
    exact hothers

/-! ### The phases -/

theorem preserves_claim (f : AddressMap → Except LoadError AddressMap) :
    (claim f).Preserves l.Spares := by
  refine Stage.preserves_attempt ?_
  intro l₁ l₂ h₁ h
  obtain ⟨map, -, h⟩ := bind_eq_ok_iff.1 h
  cases h
  exact ⟨h₁.graph_eq, h₁.phase_eq⟩

theorem preserves_report {P : Loader → Prop} (notices : List Notice) :
    (report notices).Preserves P := by
  refine Stage.preserves_state.bind ?_
  intro l₁
  split
  · exact Stage.preserves_notes notices
  · exact Stage.preserves_pure ()

theorem preserves_noteLibrary (name : String) (o : Object) :
    (noteLibrary name o).Preserves l.Spares := by
  refine (Stage.preserves_ofReport _).bind ?_
  rintro (_ | symbols)
  · exact Stage.preserves_pure ()
  · refine (preserves_report _).bind ?_
    rintro _ l₁ h₁
    exact Stage.ensures_update ⟨h₁.graph_eq, h₁.phase_eq⟩

theorem preserves_noteInterpreter {P : Loader → Prop} (o : Object) :
    (noteInterpreter o).Preserves P := by
  unfold noteInterpreter
  split
  · exact Stage.preserves_pure ()
  · exact preserves_report _

/-- A phase is entered, or it is not its turn. -/
theorem ensures_enter {P : Loader → Prop} (h : P l) (expected : Phase) (activity : String) :
    (enter expected activity).Ensures l (fun _ l' => l' = l ∧ l.phase = expected) P where
  ok u l' hu := by
    obtain ⟨hphase, rfl⟩ := yields_enter_iff.1 hu
    exact ⟨rfl, hphase⟩
  error e _ := h

/-- **The executable joins a graph that is empty**, or the graph is spared. -/
theorem ensures_initiate (hl : l.phase = .created → l.graph = .empty) :
    (initiate fs path).Ensures l
      (fun _ l' => l'.phase = .initiated ∧ l'.graph.Numbered ∧ ∃ n, l'.graph.nodes = #[n])
      l.Spares := by
  refine Stage.ensures_bind (ensures_enter (.refl l) _ _) ?_
  rintro _ l ⟨rfl, hphase⟩
  have hempty := hl hphase
  -- whatever comes before the executable is placed spares the graph
  refine Stage.ensures_bind (Stage.preserves_state l (.refl l)) ?_
  intro k l₁ h₁
  refine Stage.ensures_bind (Stage.preserves_ofExcept _ l₁ h₁) ?_
  intro _ l₂ h₂
  refine Stage.ensures_bind (Stage.preserves_ofReport _ l₂ h₂) ?_
  intro o l₃ h₃
  refine Stage.ensures_bind (Stage.preserves_ofExcept _ l₃ h₃) ?_
  intro _ l₄ h₄
  refine Stage.ensures_bind (R := fun _ => l.Spares)
    (Stage.ensures_update ⟨h₄.graph_eq, h₄.phase_eq⟩) ?_
  intro _ l₅ h₅
  refine Stage.ensures_bind (preserves_claim _ l₅ h₅) ?_
  intro _ l₆ h₆
  refine Stage.ensures_bind (preserves_claim _ l₆ h₆) ?_
  intro _ l₇ h₇
  refine Stage.ensures_bind (preserves_noteLibrary _ o l₇ h₇) ?_
  intro _ l₈ h₈
  refine Stage.ensures_bind (preserves_noteInterpreter o l₈ h₈) ?_
  intro _ l₉ h₉
  have hgraph : l₉.graph = .empty := h₉.graph_eq.trans hempty
  refine Stage.ensures_bind ((ensures_place (hgraph ▸ ObjectGraph.numbered_empty)
    (hgraph ▸ ObjectGraph.find?_empty _)).mono (fun _ _ h => h) ?_) ?_
  · exact fun l' => h₉.trans
  rintro key l₁₀ ⟨-, n, -, hjoined⟩
  -- and nothing fails after it
  refine Stage.ensures_bind (R := fun _ l' => l'.phase = .initiated ∧ l'.graph = l₁₀.graph)
    (Stage.ensures_update ⟨rfl, rfl⟩) ?_
  rintro _ l₁₁ ⟨hphase', hgraph'⟩
  refine Stage.ensures_bind (Stage.ensures_state (Q := fun _ l' => l' = l₁₁) rfl) ?_
  rintro _ _ rfl
  refine Stage.ensures_pure ⟨hphase', hgraph' ▸ hjoined.numbered, n, ?_⟩
  rw [hgraph', hjoined.nodes_eq, hgraph]
  rfl

/-- **The libraries are loaded, or loading breaks off** with a graph that is numbered still. -/
theorem ensures_loadLibraries (fs : FileSystem)
    {P : ObjectGraph → List Request → Prop}
    (hP : ∀ {g g' : ObjectGraph} {r : Request} {more rest : List Request}, g.Numbered →
      g.Serving r more g' → P g (r :: rest) → P g' (more ++ rest))
    (hg : l.graph.Numbered)
    (h : l.phase = .initiated → P l.graph (l.graph.requestsOf (Key.ofNat 0))) :
    (loadLibraries fs).Ensures l
      (fun _ l' => l'.phase = .loaded ∧ l'.graph.Numbered ∧ P l'.graph [])
      (fun l' => l.Spares l' ∨
        l.phase = .initiated ∧ l'.phase = .initiated ∧ l'.graph.Numbered) := by
  refine Stage.ensures_bind (ensures_enter (.inl (.refl l)) _ _) ?_
  rintro _ l ⟨rfl, hphase⟩
  refine Stage.ensures_bind (Stage.ensures_state (Q := fun k l' => l = k ∧ l = l') ⟨rfl, rfl⟩) ?_
  rintro _ _ ⟨rfl, rfl⟩
  have hall := ensures_serveAll fs hP hg (h hphase)
  rw [hphase] at hall
  refine Stage.ensures_bind (hall.mono (fun _ _ h => h) fun _ h => .inr ⟨hphase, h⟩) ?_
  rintro _ l₁ ⟨hphase₁, hnumbered, hdone⟩
  refine Stage.ensures_bind (Stage.ensures_state (Q := fun k l' => l₁ = k ∧ l₁ = l')
    ⟨rfl, rfl⟩) ?_
  rintro _ _ ⟨rfl, rfl⟩
  refine Stage.ensures_bind (Stage.ensures_ofReport (Q := fun _ l' => l₁ = l')
    (fun _ _ => rfl) (.inr ⟨hphase, hphase₁, hnumbered⟩)) ?_
  rintro _ _ rfl
  exact Stage.ensures_update ⟨rfl, hnumbered, hdone⟩

/-- When a request cannot be served, the second phase leaves behind what was there then. -/
theorem state_loadLibraries_of_error {fs : FileSystem} {l : Loader} {e : LoadError}
    (hphase : l.phase = .initiated)
    (h : (Stage.run (serveAll fs (l.graph.requestsOf (Key.ofNat 0))) l).result = .error e) :
    ((loadLibraries fs).run l).state =
      (Stage.run (serveAll fs (l.graph.requestsOf (Key.ofNat 0))) l).state := by
  have henter : (enter .initiated "load libraries").Yields l () l :=
    yields_enter_iff.2 ⟨hphase, rfl⟩
  unfold loadLibraries
  rw [Stage.state_bind_of_ok henter.1, henter.2, Stage.state_bind_of_ok rfl]
  exact (congrArg Outcome.state (Stage.run_bind_of_error h) :)

/-- Linking leaves the graph alone. -/
theorem ensures_link (l : Loader) :
    link.Ensures l (fun _ l' => l.phase = .loaded ∧ l'.phase = .linked ∧ l'.graph = l.graph)
      l.Spares := by
  refine Stage.ensures_bind (ensures_enter (.refl l) _ _) ?_
  rintro _ l ⟨rfl, hphase⟩
  refine Stage.ensures_bind (Stage.preserves_state l (.refl l)) ?_
  intro k l₁ h₁
  refine Stage.ensures_bind (R := fun _ => l.Spares)
    (Stage.ensures_within (R := fun _ _ => True) (F := fun _ => True)
      ⟨fun _ _ _ => trivial, fun _ _ => trivial⟩ (fun _ _ _ => ⟨h₁.graph_eq, h₁.phase_eq⟩)
      fun _ _ => ⟨h₁.graph_eq, h₁.phase_eq⟩) ?_
  intro count l₂ h₂
  refine Stage.ensures_bind (R := fun _ l' => l'.phase = .linked ∧ l'.graph = l.graph)
    (Stage.ensures_update ⟨rfl, h₂.graph_eq⟩) ?_
  rintro _ l₃ h₃
  exact Stage.ensures_pure ⟨hphase, h₃⟩

/-- Finishing leaves the graph alone. -/
theorem ensures_finalize (l : Loader) :
    finalize.Ensures l (fun _ l' => l.phase = .linked ∧ l'.phase = .finalized ∧ l'.graph = l.graph)
      l.Spares := by
  refine Stage.ensures_bind (ensures_enter (.refl l) _ _) ?_
  rintro _ l ⟨rfl, hphase⟩
  refine Stage.ensures_bind (R := fun _ l' => l'.phase = .finalized ∧ l'.graph = l.graph)
    (Stage.ensures_update ⟨rfl, rfl⟩) ?_
  intro _ l₁ h₁
  refine Stage.ensures_bind (Stage.ensures_state (Q := fun _ l' => l' = l₁) rfl) ?_
  rintro _ _ rfl
  exact Stage.ensures_pure ⟨hphase, h₁⟩

/-! ### Calls -/

/-- A phase is called. The files may be others than those of an earlier call. -/
inductive Call where
  /-- The first phase is called. -/
  | initiate (fs : FileSystem) (path : String)
  /-- The second phase is called. -/
  | loadLibraries (fs : FileSystem)
  /-- The third phase is called. -/
  | link
  /-- The last phase is called. -/
  | finalize

/-- What a call does. -/
def Call.work : Call → Work Unit
  | .initiate fs path => do
    let _ ← Loader.initiate fs path
  | .loadLibraries fs => Loader.loadLibraries fs
  | .link => do
    let _ ← Loader.link
  | .finalize => do
    let _ ← Loader.finalize

/-- The loader that a call leaves behind, whether it succeeds or fails. -/
def after (l : Loader) (c : Call) : Loader := (c.work.run l).state

theorem after_initiate {l' : Loader} {entry : UInt32}
    (h : (initiate fs path).Yields l entry l') : l.after (.initiate fs path) = l' :=
  (Stage.state_bind_of_ok h.1).trans h.2

/-- The loader that calls leave behind, one after the other. -/
def afterAll (l : Loader) (calls : List Call) : Loader := calls.foldl after l

end Loader

end ElfLoader
