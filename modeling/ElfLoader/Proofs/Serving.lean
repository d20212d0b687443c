import ElfLoader.Proofs.Starting

/-!
# The second phase

A request is served in one of three ways (`ElfLoader.Loader.Served`): its name is known,
its file is known, or its file is opened and placed. The second phase is a run of such
steps (`ElfLoader.Loader.Serves`), in which the requests that come of a step go first.
What every step preserves, the run preserves; that a loader is orderly is an example
(`ElfLoader.Loader.Serves.orderly`).
-/

namespace ElfLoader

/-- The requests of an object that has just joined a graph. -/
theorem ObjectGraph.Joined.requestsOf_eq {g g' : ObjectGraph} {name : String} {n : Node}
    (h : g.Joined name n g') : g'.requestsOf n.key = n.requests n.key := by
  have hn : g'.nodes[g.size]? = some n := by
    rw [h.nodes_eq, ObjectGraph.size, Array.getElem?_push_size]
  rw [ObjectGraph.requestsOf, h.numbered.get?_key hn]

/-- The requests of an object that is known by its position. -/
theorem ObjectGraph.requestsOf_of_settled {g : ObjectGraph} {n : Node} {i : Nat}
    (hi : i ≤ KeyTable.capacity) (h : g.settled[i]? = some n) :
    g.requestsOf (Key.ofNat i) = n.requests (Key.ofNat i) := by
  obtain ⟨m, hm, rfl⟩ := exists_of_getElem?_settled h
  rw [requestsOf, get?, Key.toNat_ofNat hi, ← getElem?_toList, hm]
  rfl

namespace Loader

variable {fs : FileSystem} {r : Request} {l l' l'' : Loader} {more rest todo : List Request}
  {memory : Memory} {root : Object}

/-! ### How a request is served -/

section Serve

variable {path : String} {dep : Key} {e : LoadError}

theorem run_serve_of_known (found : l.graph.find? r.name = some dep) :
    (serve fs r).run l = ⟨.ok [], l.answer r dep, []⟩ := by
  simp only [Stage.run, serve, found]

theorem run_serve_of_missing (new : l.graph.find? r.name = none)
    (missing : l.config.libraryPath.find? fs r.name = none) : (serve fs r).run l =
      ⟨.error (.fileNotFound r.name (some (l.graph.nameOf r.asker))), l, []⟩ := by
  simp only [Stage.run, serve, new, missing]

theorem run_serve_of_alias (new : l.graph.find? r.name = none)
    (located : l.config.libraryPath.find? fs r.name = some path)
    (found : l.graph.find? (fs.canonical path) = some dep) : (serve fs r).run l =
      ⟨.ok [], { l with graph := (l.graph.insertAlias r.name dep).2 }.answer r dep, []⟩ := by
  simp only [Stage.run, serve, new, located, found]

/-- A file that is not known is brought, and then its object is asked what it needs. -/
theorem run_serve_of_bring (new : l.graph.find? r.name = none)
    (located : l.config.libraryPath.find? fs r.name = some path)
    (unknown : l.graph.find? (fs.canonical path) = none)
    (brought : ((bring fs r.name path).run l).result = .ok dep) : (serve fs r).run l =
      ⟨.ok (((bring fs r.name path).run l).state.graph.requestsOf dep),
        ((bring fs r.name path).run l).state.answer r dep,
        ((bring fs r.name path).run l).notices⟩ := by
  simp only [Stage.run, serve, new, located, unknown] at brought ⊢
  rw [brought]

theorem run_serve_of_bring_error (new : l.graph.find? r.name = none)
    (located : l.config.libraryPath.find? fs r.name = some path)
    (unknown : l.graph.find? (fs.canonical path) = none)
    (failed : ((bring fs r.name path).run l).result = .error e) : (serve fs r).run l =
      ⟨.error e, ((bring fs r.name path).run l).state,
        ((bring fs r.name path).run l).notices⟩ := by
  simp only [Stage.run, serve, new, located, unknown] at failed ⊢
  rw [failed]

end Serve

/-! ### One request -/

/-- **A request has been served**: there are the requests that come of it and the loader
that is left. -/
inductive Served (fs : FileSystem) (r : Request) (l : Loader) : List Request → Loader → Prop
  /-- The name is known. -/
  | known {dep : Key} (found : l.graph.find? r.name = some dep) :
    Served fs r l [] (l.answer r dep)
  /-- The file is known, and the name is one more name for its object. -/
  | aliased {path : String} {dep : Key} (new : l.graph.find? r.name = none)
    (located : l.config.libraryPath.find? fs r.name = some path)
    (found : l.graph.find? (fs.canonical path) = some dep) :
    Served fs r l [] ({ l with graph := (l.graph.insertAlias r.name dep).2 }.answer r dep)
  /-- The file is opened and placed, and its own requests come up. -/
  | brought {path : String} {o : Object} {n : Node} {l₁ : Loader}
    (new : l.graph.find? r.name = none)
    (located : l.config.libraryPath.find? fs r.name = some path)
    (unknown : l.graph.find? (fs.canonical path) = none)
    (opened : (Object.open fs path l.config.pageSize.toNat).result = .ok o)
    (admitted : l.admissible o = .ok ())
    (placed : l.Placed r.name o n l₁) :
    Served fs r l (n.requests n.key) (l₁.answer r n.key)

/-- What it takes to bring a file. -/
theorem of_bring {name path : String} {key : Key} (h : (bring fs name path).Yields l key l') :
    ∃ o, (Object.open fs path l.config.pageSize.toNat).result = .ok o ∧
      l.admissible o = .ok () ∧ (place fs name o).Yields l key l' := by
  simp only [bring, Stage.yields_bind_iff, Stage.yields_state_iff, Stage.yields_ofReport_iff,
    Stage.yields_ofExcept_iff] at h
  obtain ⟨_, _, ⟨rfl, rfl⟩, o, _, ⟨hopen, rfl⟩, _, _, ⟨hadmissible, rfl⟩, hplace⟩ := h
  exact ⟨o, hopen, hadmissible, hplace⟩

/-- **A request that is served** is served in one of the three ways. -/
theorem served_of_serve {ns : List Notice} (hl : l.Orderly memory root)
    (hpage : isPowerOfTwo l.config.pageSize.toNat) (h : serve fs r l = ⟨.ok more, l', ns⟩) :
    Served fs r l more l' := by
  unfold serve at h
  split at h
  · next dep hfound =>
    cases h
    exact .known hfound
  · next hnew =>
    split at h
    · cases h
    · next path hpath =>
      split at h
      · next dep hfound =>
        cases h
        exact .aliased hnew hpath hfound
      · next hunknown =>
        dsimp only at h
        split at h
        · cases h
        · next dep hdep =>
          cases h
          -- the requests that come up are those of the object that has been placed last
          obtain ⟨o, hopen, hadmissible, hplace⟩ := of_bring ⟨hdep, rfl⟩
          have ho := Object.sound_of_open (pos_of_isPowerOfTwo hpage) hopen
          obtain ⟨n, rfl, hplaced⟩ := placed_of_place hl.consistent hl.numbered ho hnew hplace
          rw [hplaced.joined.requestsOf_eq]
          exact .brought hnew hpath hunknown hopen hadmissible hplaced

/-- Serving a request does not change the settings. -/
theorem Served.config_eq (h : Served fs r l more l') : l'.config = l.config := by
  cases h with
  | known found => rfl
  | aliased new located found => rfl
  | brought new located unknown opened admitted placed =>
    rw [answer, placed.state_eq]

/-- **Serving a request keeps a loader orderly.** -/
theorem Served.orderly (h : Served fs r l more l') (hl : l.Orderly memory root)
    (hpage : isPowerOfTwo l.config.pageSize.toNat) : l'.Orderly memory root := by
  cases h with
  | known found =>
    exact hl.congr rfl rfl rfl (l.graph.settled_addEdge _ _) (hl.numbered.addEdge _ _)
  | aliased new located found =>
    exact hl.congr rfl rfl rfl (ObjectGraph.settled_addEdge _ _ _)
      ((hl.numbered.insertAlias _ (hl.numbered.known _ _ found)).addEdge _ _)
  | brought new located unknown opened admitted placed =>
    have ho := Object.sound_of_open (pos_of_isPowerOfTwo hpage) opened
    -- the object is placed first, and then the edge to it is drawn
    have hl₁ := hl.placed placed hpage ho
    exact hl₁.congr rfl rfl rfl (ObjectGraph.settled_addEdge _ _ _) (hl₁.numbered.addEdge _ _)

/-- Names keep their meaning when a request is served. -/
theorem Served.keeps (h : Served fs r l more l') : l.graph.Keeps l'.graph := by
  cases h with
  | known found => exact ObjectGraph.Keeps.refl _
  | aliased new located found => exact l.graph.keeps_insertAlias _ _
  | brought new located unknown opened admitted placed => exact placed.keeps

/-! ### All requests -/

/-- **A run that serves requests** and all that come of them. -/
inductive Serves (fs : FileSystem) : List Request → Loader → Loader → Prop
  /-- There is no request left. -/
  | done (l : Loader) : Serves fs [] l l
  /-- The first request is served, and those that come of it go before the others. -/
  | step {r : Request} {more rest : List Request} {l l₁ l' : Loader}
    (served : Served fs r l more l₁) (others : Serves fs (more ++ rest) l₁ l') :
    Serves fs (r :: rest) l l'

/-- Names keep their meaning during a run. -/
theorem Serves.keeps (h : Serves fs todo l l') : l.graph.Keeps l'.graph := by
  induction h with
  | done l => exact ObjectGraph.Keeps.refl _
  | step served others ih => exact served.keeps.trans ih

/-- **A loader stays orderly** during a run. -/
theorem Serves.orderly (h : Serves fs todo l l') (hl : l.Orderly memory root)
    (hpage : isPowerOfTwo l.config.pageSize.toNat) :
    l'.Orderly memory root ∧ l'.config = l.config := by
  induction h with
  | done l => exact ⟨hl, rfl⟩
  | step served others ih =>
    obtain ⟨hl', hconfig⟩ := ih (served.orderly hl hpage) (served.config_eq ▸ hpage)
    exact ⟨hl', hconfig.trans served.config_eq⟩

theorem serveAll_nil (fs : FileSystem) : serveAll fs [] = (pure () : Work Unit) := by
  funext l
  rw [serveAll]
  rfl

/-- Requests are served one after the other. -/
theorem serveAll_cons (fs : FileSystem) (r : Request) (rest : List Request) :
    serveAll fs (r :: rest) =
      (serve fs r >>= fun more => serveAll fs (more ++ rest) : Work Unit) := by
  funext l
  change _ = Stage.bind (serve fs r) _ l
  unfold Stage.bind
  rw [serveAll]
  split <;> next h => rw [h]

/-- The requests that come of one that is served go first. -/
theorem run_serveAll_of_ok {ns : List Notice} (h : (serve fs r).run l = ⟨.ok more, l', ns⟩) :
    Stage.run (serveAll fs (r :: rest)) l = ⟨(Stage.run (serveAll fs (more ++ rest)) l').result,
      (Stage.run (serveAll fs (more ++ rest)) l').state,
      ns ++ (Stage.run (serveAll fs (more ++ rest)) l').notices⟩ := by
  rw [serveAll_cons]
  exact Stage.run_bind_of_ok h

/-- No request is served behind one that cannot be. -/
theorem run_serveAll_of_error {e : LoadError} {ns : List Notice}
    (h : (serve fs r).run l = ⟨.error e, l', ns⟩) (rest : List Request) :
    Stage.run (serveAll fs (r :: rest)) l = ⟨.error e, l', ns⟩ := by
  rw [serveAll_cons]
  exact (Stage.run_bind_of_error (congrArg Outcome.result h)).trans (by rw [h])

/-- **Serving all requests** is such a run, if it succeeds. -/
theorem serves_of_serveAll (hl : l.Orderly memory root)
    (hpage : isPowerOfTwo l.config.pageSize.toNat)
    (h : Stage.Yields (serveAll fs todo) l () l') : Serves fs todo l l' := by
  unfold Stage.Yields Stage.run at h
  -- that the loader is orderly goes along, as every step needs it
  fun_induction serveAll fs todo l with
  | case1 l =>
    obtain ⟨-, rfl⟩ := h
    exact .done l
  | case2 l r rest e l₁ ns served => cases h.1
  | case3 l r rest more l₁ ns served o ih =>
    have hserved := served_of_serve hl hpage served
    exact .step hserved (ih (hserved.orderly hl hpage) (hserved.config_eq ▸ hpage) h)

/-! ### The phase -/

/-- **Loading the libraries** serves what the executable needs, if it succeeds. -/
theorem serves_of_loadLibraries {u : Unit} (hl : l.Orderly memory root)
    (hpage : isPowerOfTwo l.config.pageSize.toNat) (h : (loadLibraries fs).Yields l u l') :
    ∃ l₁, Serves fs (l.graph.requestsOf (Key.ofNat 0)) l l₁ ∧
      l' = { l₁ with program := l'.program, phase := .loaded } := by
  simp only [loadLibraries, Stage.yields_bind_iff, yields_enter_iff, Stage.yields_state_iff] at h
  obtain ⟨_, _, ⟨-, rfl⟩, _, _, ⟨rfl, rfl⟩, hrun⟩ := h
  obtain ⟨_, l₁, hserve, hlast⟩ := Stage.yields_bind_iff.1 hrun
  simp only [Stage.yields_bind_iff, Stage.yields_state_iff, Stage.yields_ofReport_iff,
    Stage.yields_update_iff] at hlast
  obtain ⟨_, _, ⟨rfl, rfl⟩, _, _, ⟨-, rfl⟩, rfl⟩ := hlast
  exact ⟨l₁, serves_of_serveAll hl hpage hserve, rfl⟩

/-- The requests of an executable that has been initiated. -/
theorem Initiated.requestsOf_eq {path : String} {config : Config} {n : Node}
    (h : Initiated fs config memory path n l) :
    l.graph.requestsOf (Key.ofNat 0) = n.requests n.key := by
  have hn : l.graph.nodes[0]? = some n := by rw [h.nodes_eq]; rfl
  have hkey := h.orderly.numbered.key_eq 0 n hn
  rw [ObjectGraph.requestsOf, ← hkey, h.orderly.numbered.get?_key hn]

/-- **The first two phases**, if both succeed: a run from the executable on, after which the
loader is orderly. -/
theorem serves_of_phases {path : String} {config : Config} {processor : Processor}
    {entry : UInt32} {u : Unit}
    (hinitiate : (initiate fs path).Yields (new config processor memory) entry l)
    (hload : (loadLibraries fs).Yields l u l') :
    ∃ n l₁, Initiated fs config memory path n l ∧ Serves fs (n.requests n.key) l l₁ ∧
      l'.graph = l₁.graph ∧ l'.Orderly memory n.object := by
  obtain ⟨n, hn⟩ := initiated_of_initiate hinitiate
  have hpage : isPowerOfTwo l.config.pageSize.toNat := hn.config_eq ▸ hn.pageSize
  obtain ⟨l₁, hserves, hl'⟩ := serves_of_loadLibraries hn.orderly hpage hload
  rw [hn.requestsOf_eq] at hserves
  obtain ⟨horderly, -⟩ := hserves.orderly hn.orderly hpage
  refine ⟨n, l₁, hn, hserves, by rw [hl'], ?_⟩
  rw [hl']
  exact horderly.congr rfl rfl rfl rfl horderly.numbered

end Loader

end ElfLoader
