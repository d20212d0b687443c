import ElfLoader.Proofs.Registry
import Mathlib.Order.WellFounded

/-!
# Which files are opened

Objects may need each other in circles, under several names and through links, so it is not clear
that serving their requests comes to an end, and that no file is opened twice. Both rest on the
order of the checks in `ElfLoader.Loader.serve`: a file is opened only if neither its name nor its
path is known, and once its object has joined, both are (`ElfLoader.Loader.find?_of_opening`). So
each file is opened at most once (`ElfLoader.Loader.pairwise_opened`), and each object takes up a
key, of which there are finitely many (`ElfLoader.Loader.wellFounded_serveStep`).

The files that are opened are told by a list, `ElfLoader.Loader.opened`, and that it leaves out
none is told without it: what the files hold that are not in the list does not matter to the second
phase at all (`ElfLoader.Loader.run_loadLibraries_congr`).
-/

namespace ElfLoader

variable {fs fs' : FileSystem} {path path' name : String} {r : Request}
  {more rest todo : List Request}

/-! ### Files and paths -/

/-- **Two paths lead to different files.** -/
def FileSystem.Differ (fs : FileSystem) (path path' : String) : Prop :=
  fs.canonical path ≠ fs.canonical path' ∧
    ∀ place, fs.locate path = .ok place → fs.locate path' ≠ .ok place

/-- Paths that lead to one place have one canonical form. -/
theorem FileSystem.differ_of_canonical_ne (h : fs.canonical path ≠ fs.canonical path') :
    fs.Differ path path' := by
  refine ⟨h, fun place hplace hplace' => h ?_⟩
  rw [canonical, canonical, canonical?, canonical?, hplace, hplace']
  rfl

/-- **Two file systems have the same paths**: names are found at the same places, and paths lead to
the same places. What the files hold does not matter. -/
structure FileSystem.SamePaths (fs fs' : FileSystem) : Prop where
  /-- Names are found at the same places. -/
  find?_eq : ∀ (directories : LibraryPath) (name : String),
    directories.find? fs' name = directories.find? fs name
  /-- Paths lead to the same places. -/
  canonical_eq : ∀ path, fs'.canonical path = fs.canonical path

namespace ObjectGraph

/-- The files of the loaded objects, by their paths, in load order. -/
def paths (g : ObjectGraph) : List String := g.toList.map (·.object.path)

/-- What an object needs has nothing to do with its file. -/
theorem paths_addEdge (g : ObjectGraph) (user dep : Key) :
    (g.addEdge user dep).paths = g.paths := by
  have hpaths : ∀ g : ObjectGraph, g.paths = g.settled.map (·.object.path) := by
    intro g
    rw [settled, List.map_map]
    rfl
  rw [hpaths, hpaths, settled_addEdge]

/-- Serving a request keeps all names. -/
theorem Serving.keeps {g g' : ObjectGraph} (h : g.Serving r more g') : g.Keeps g' := by
  cases h with
  | known found => exact fun _ _ => id
  | aliased new loaded => exact g.keeps_insertAlias _ _
  | joined joined => exact joined.keeps

end ObjectGraph

namespace Loader

variable {config : Config} {processor : Processor} {memory : Memory} {l l' k : Loader} {key : Key}

/-! ### Serving comes to an end -/

/-- **A request is served**: the first one, and those that come of it go first from then on. -/
inductive ServeStep (fs : FileSystem) : List Request × Loader → List Request × Loader → Prop
  /-- The first request is served. -/
  | serve {r : Request} {more rest : List Request} {l l' : Loader}
    (served : (Loader.serve fs r).Yields l more l') : ServeStep fs (r :: rest, l) (more ++ rest, l')

/-- The keys that are left, and the requests. -/
def prospects (x : List Request × Loader) : Nat × Nat :=
  (KeyTable.capacity - x.2.graph.names.size, x.1.length)

/-- **Serving requests comes to an end**, whatever the objects ask for: each step takes up a key, or
leaves fewer requests. -/
theorem wellFounded_serveStep (fs : FileSystem) :
    WellFounded fun after before => ServeStep fs before after := by
  refine Subrelation.wf (fun {after before} hstep => ?_)
    (InvImage.wf prospects (WellFounded.prod_lex wellFounded_lt wellFounded_lt))
  obtain @⟨r, more, rest, l, l', served⟩ := hstep
  have hserve : serve fs r l = ⟨.ok more, l', ((serve fs r).run l).notices⟩ := by
    obtain ⟨hresult, rfl⟩ := served
    rw [← hresult]
    rfl
  change Prod.Lex _ _ (KeyTable.capacity - l'.graph.names.size, _)
    (KeyTable.capacity - l.graph.names.size, _)
  rcases serve_progress hserve with ⟨rfl, same⟩ | ⟨room, grown⟩
  · rw [same]
    exact Prod.Lex.right _ (Nat.lt_succ_self _)
  · exact Prod.Lex.left _ _ (by omega)

/-- **Serving requests ends well or with an error**: all of them have been served, or one of them
cannot be. -/
theorem ServedTo.ends (h : ServedTo fs l todo k) :
    (∃ k', ServedTo fs l [] k' ∧ Stage.Yields (serveAll fs todo) k () k') ∨
    ∃ r rest k' e, ServedTo fs l (r :: rest) k' ∧ ((Loader.serve fs r).run k').result = .error e ∧
      (Stage.run (serveAll fs todo) k).result = .error e ∧
      (Stage.run (serveAll fs todo) k).state = ((Loader.serve fs r).run k').state := by
  induction todo, k using serveAll.induct fs with
  | case1 k =>
    rw [serveAll_nil]
    exact .inl ⟨k, h, Stage.yields_pure_iff.2 ⟨rfl, rfl⟩⟩
  | case2 k r rest e k₁ ns served =>
    have hrun : (Loader.serve fs r).run k = ⟨.error e, k₁, ns⟩ := served
    refine .inr ⟨r, rest, k, e, h, ?_⟩
    rw [run_serveAll_of_error hrun, hrun]
    exact ⟨rfl, rfl, rfl⟩
  | case3 k r rest more k₁ ns served ih =>
    have hrun : (Loader.serve fs r).run k = ⟨.ok more, k₁, ns⟩ := served
    rcases ih (h.serve (Stage.yields_of_run hrun)) with ⟨k', hk', hyields⟩ | hfails
    · exact .inl ⟨k', hk', yields_serveAll_cons hrun hyields⟩
    · rw [run_serveAll_of_ok hrun]
      exact .inr hfails

/-- When a request cannot be served, the second phase fails. -/
theorem result_loadLibraries_of_error {e : LoadError} (hphase : l.phase = .initiated)
    (h : (Stage.run (serveAll fs (l.graph.requestsOf (Key.ofNat 0))) l).result = .error e) :
    ((loadLibraries fs).run l).result = .error e := by
  have henter := run_enter_of_phase hphase "load libraries"
  refine Stage.result_bind_eq_error_iff.2 (.inr ⟨(), congrArg Outcome.result henter, ?_⟩)
  rw [henter]
  exact Stage.result_bind_eq_error_iff.2 (.inr ⟨l, rfl, Stage.result_bind_eq_error_iff.2 (.inl h)⟩)

/-! ### Which files are opened -/

/-- **The file that is opened to serve a request**, by its path. There is none if the name or the
file is known, or if there is no file. -/
def opening? (fs : FileSystem) (r : Request) (l : Loader) : Option String :=
  match l.graph.find? r.name with
  | some _ => none
  | none =>
    match l.config.libraryPath.find? fs r.name with
    | none => none
    | some path =>
      match l.graph.find? (fs.canonical path) with
      | some _ => none
      | none => some path

theorem opening?_eq_some_iff : opening? fs r l = some path ↔ l.graph.find? r.name = none ∧
    l.config.libraryPath.find? fs r.name = some path ∧
    l.graph.find? (fs.canonical path) = none := by
  unfold opening?
  cases l.graph.find? r.name with
  | some dep => simp
  | none =>
    cases l.config.libraryPath.find? fs r.name with
    | none => simp
    | some located =>
      dsimp only
      cases hfile : l.graph.find? (fs.canonical located) with
      | some dep =>
        simp only [reduceCtorEq, Option.some.injEq, true_and, false_iff, not_and]
        rintro rfl
        simp [hfile]
      | none =>
        simp only [Option.some.injEq, true_and]
        constructor
        · rintro rfl
          exact ⟨rfl, hfile⟩
        · exact And.left

/-- **The files that are opened to serve requests**, by their paths, in their order. -/
def opened (fs : FileSystem) (todo : List Request) (l : Loader) : List String :=
  match todo with
  | [] => []
  | r :: rest =>
    (opening? fs r l).toList ++
      match _served : serve fs r l with
      | ⟨.error _, _, _⟩ => []
      | ⟨.ok more, l', _⟩ => opened fs (more ++ rest) l'
  termination_by (KeyTable.capacity - l.graph.names.size, todo.length)
  decreasing_by
    rcases serve_progress _served with ⟨rfl, same⟩ | ⟨room, grown⟩
    · rw [same]
      exact Prod.Lex.right _ (by simp)
    · exact Prod.Lex.left _ _ (by omega)

theorem opened_nil (fs : FileSystem) (l : Loader) : opened fs [] l = [] := by
  rw [opened]

theorem opened_cons (fs : FileSystem) (r : Request) (rest : List Request) (l : Loader) :
    opened fs (r :: rest) l = (opening? fs r l).toList ++
      match ((serve fs r).run l).result with
      | .error _ => []
      | .ok more => opened fs (more ++ rest) ((serve fs r).run l).state := by
  rw [opened]
  congr 1
  change _ = match (serve fs r l).result with
    | .error _ => []
    | .ok more => opened fs (more ++ rest) (serve fs r l).state
  split <;> next h => rw [h]

/-! ### What is known once a file has been opened -/

/-- **The file of an object that has been brought is known**, and it is the one that was opened. -/
theorem of_bring_new (new : l.graph.find? name = none) (h : (bring fs name path).Yields l key l') :
    l'.graph.paths = l.graph.paths ++ [path] ∧
      ∃ dep, l'.graph.find? (fs.canonical path) = some dep := by
  obtain ⟨o, hopen, -, hplace⟩ := of_bring h
  obtain ⟨n, l₁, hsettle, henroll⟩ := Stage.yields_bind_iff.1 hplace
  obtain ⟨address, map, memory, -, rfl, rfl⟩ := of_settle hsettle
  obtain ⟨g, hinsert, rfl⟩ := yields_enroll_iff.1 henroll
  have hpath : (l.nodeAt name o address).object.path = path := Object.path_of_open hopen
  obtain ⟨-, -, -, hnodes, -⟩ := ObjectGraph.insert_eq_ok new hinsert
  rw [hpath]
  refine ⟨?_, _, ObjectGraph.find?_withNames_path ..⟩
  rw [ObjectGraph.paths, ObjectGraph.toList, ObjectGraph.nodes_withNames, hnodes,
    Array.toList_push, List.map_append, List.map_singleton, hpath]
  rfl

/-- So is the file that is opened to serve a request. -/
theorem find?_of_opening (h : opening? fs r l = some path)
    (served : (serve fs r).Yields l more l') :
    ∃ dep, l'.graph.find? (fs.canonical path) = some dep := by
  obtain ⟨new, located, unknown⟩ := opening?_eq_some_iff.1 h
  cases hbring : ((bring fs r.name path).run l).result with
  | error e =>
    rw [Stage.Yields, run_serve_of_bring_error new located unknown hbring] at served
    cases served.1
  | ok dep =>
    rw [Stage.Yields, run_serve_of_bring new located unknown hbring] at served
    obtain ⟨-, rfl⟩ := served
    exact (of_bring_new new ⟨hbring, rfl⟩).2

/-- **Files that are opened are not known before, and no two of them are the same.** -/
theorem pairwise_opened (fs : FileSystem) (todo : List Request) (hl : l.graph.Numbered) :
    (opened fs todo l).Pairwise fs.Differ ∧
      ∀ path ∈ opened fs todo l, l.graph.find? (fs.canonical path) = none := by
  have hfirst : ∀ (r : Request) (l : Loader), (opening? fs r l).toList.Pairwise fs.Differ ∧
      ∀ path ∈ (opening? fs r l).toList, l.graph.find? (fs.canonical path) = none := by
    intro r l
    cases hopening : opening? fs r l with
    | none => exact ⟨.nil, fun _ hpath => absurd hpath List.not_mem_nil⟩
    | some path =>
      refine ⟨List.pairwise_singleton _ _, fun other hother => ?_⟩
      obtain rfl := List.mem_singleton.1 hother
      exact (opening?_eq_some_iff.1 hopening).2.2
  induction todo, l using serveAll.induct fs with
  | case1 l =>
    rw [opened_nil]
    exact ⟨.nil, fun _ hpath => absurd hpath List.not_mem_nil⟩
  | case2 l r rest e l₁ ns served =>
    have hrun : (serve fs r).run l = ⟨.error e, l₁, ns⟩ := served
    rw [opened_cons, hrun, List.append_nil]
    exact hfirst r l
  | case3 l r rest more l₁ ns served ih =>
    have hrun : (serve fs r).run l = ⟨.ok more, l₁, ns⟩ := served
    have hserving := ((ensures_serve hl fs r).ok more l₁ (Stage.yields_of_run hrun)).2
    obtain ⟨hpairwise, hunknown⟩ := ih (hserving.numbered hl)
    rw [opened_cons, hrun]
    constructor
    · refine List.pairwise_append.2 ⟨(hfirst r l).1, hpairwise, ?_⟩
      -- what has been opened is known from then on, and what is opened later is not
      intro path hpath other hother
      have hopening : opening? fs r l = some path := Option.mem_toList.1 hpath
      obtain ⟨dep, hdep⟩ := find?_of_opening hopening (Stage.yields_of_run hrun)
      refine FileSystem.differ_of_canonical_ne fun heq => ?_
      rw [heq, hunknown other hother] at hdep
      cases hdep
    · intro path hpath
      rcases List.mem_append.1 hpath with hpath | hpath
      · exact (hfirst r l).2 path hpath
      · cases hknown : l.graph.find? (fs.canonical path) with
        | none => rfl
        | some dep =>
          have hkept := hserving.keeps _ _ hknown
          rw [hunknown path hpath] at hkept
          cases hkept

/-! ### Objects of the files that are opened -/

/-- A file that is opened to serve a request is that of an object, if the request is served. -/
theorem ensures_paths_serve (hl : l.graph.Numbered) (fs : FileSystem) (r : Request) :
    (serve fs r).Ensures l (fun _ l' => l'.graph.paths = l.graph.paths ++ (opening? fs r l).toList)
      (fun l' => l'.graph.paths = l.graph.paths) := by
  refine ensures_serve_cases ?_ ?_ ?_ ?_
  · intro dep hfind
    rw [opening?, hfind]
    exact (ObjectGraph.paths_addEdge ..).trans (List.append_nil _).symm
  · exact fun _ _ => rfl
  · intro path dep hfind hpath hfile
    rw [opening?, hfind, hpath]
    dsimp only
    rw [hfile]
    exact (ObjectGraph.paths_addEdge ..).trans (List.append_nil _).symm
  · intro path hfind hpath hfile
    rw [opening?_eq_some_iff.2 ⟨hfind, hpath, hfile⟩]
    refine ⟨fun dep l' hbring => ?_, fun e he => ?_⟩
    · exact (ObjectGraph.paths_addEdge ..).trans (of_bring_new hfind hbring).1
    · exact congrArg _ ((ensures_bring fs path hl hfind).error e he).graph_eq

/-- **The files that are opened are those of the objects that join**, in their order. Only the last
one may be of no object, if serving requests breaks off there. -/
theorem paths_serveAll (fs : FileSystem) (todo : List Request) (hl : l.graph.Numbered) :
    ∃ last, last.length ≤ 1 ∧ ((Stage.run (serveAll fs todo) l).result = .ok () → last = []) ∧
      (Stage.run (serveAll fs todo) l).state.graph.paths ++ last =
        l.graph.paths ++ opened fs todo l := by
  induction todo, l using serveAll.induct fs with
  | case1 l =>
    rw [serveAll_nil, opened_nil]
    exact ⟨[], Nat.zero_le _, fun _ => rfl, rfl⟩
  | case2 l r rest e l₁ ns served =>
    have hrun : (serve fs r).run l = ⟨.error e, l₁, ns⟩ := served
    have hpaths := (ensures_paths_serve hl fs r).error e (congrArg Outcome.result hrun)
    rw [run_serveAll_of_error hrun, opened_cons, hrun, List.append_nil]
    rw [hrun] at hpaths
    refine ⟨(opening? fs r l).toList, ?_, fun h => ?_, by rw [hpaths]⟩
    · cases opening? fs r l with
      | none => exact Nat.zero_le 1
      | some path => exact le_rfl
    · cases h
  | case3 l r rest more l₁ ns served ih =>
    have hrun : (serve fs r).run l = ⟨.ok more, l₁, ns⟩ := served
    have hyields := Stage.yields_of_run hrun
    have hserving := ((ensures_serve hl fs r).ok more l₁ hyields).2
    have hpaths := (ensures_paths_serve hl fs r).ok more l₁ hyields
    obtain ⟨last, hlast, hok, hrest⟩ := ih (hserving.numbered hl)
    rw [run_serveAll_of_ok hrun, opened_cons, hrun]
    refine ⟨last, hlast, hok, hrest.trans ?_⟩
    rw [hpaths, List.append_assoc]

/-- The second phase does nothing to the graph but to serve requests. -/
theorem graph_loadLibraries (hphase : l.phase = .initiated) :
    ((loadLibraries fs).run l).state.graph =
      (Stage.run (serveAll fs (l.graph.requestsOf (Key.ofNat 0))) l).state.graph := by
  generalize hg : (Stage.run (serveAll fs (l.graph.requestsOf (Key.ofNat 0))) l).state.graph = g
  have henter := run_enter_of_phase hphase "load libraries"
  have hserve : Stage.Ensures (serveAll fs (l.graph.requestsOf (Key.ofNat 0))) l
      (fun _ l' => l'.graph = g) (fun l' => l'.graph = g) :=
    ⟨fun _ _ h => h.2 ▸ hg, fun _ _ => hg⟩
  have hload : (loadLibraries fs).Ensures l
      (fun _ l' => l'.graph = g) (fun l' => l'.graph = g) := by
    refine Stage.ensures_bind (Stage.ensures_of_ok (Q := fun _ => (l = ·)) henter rfl) ?_
    rintro _ _ rfl
    refine Stage.ensures_bind (Stage.ensures_state (Q := fun k l' => l = k ∧ l = l') ⟨rfl, rfl⟩) ?_
    rintro _ _ ⟨rfl, rfl⟩
    refine Stage.ensures_bind hserve ?_
    intro _ l₁ h₁
    refine Stage.Preserves.bind (P := fun l' => l'.graph = g) Stage.preserves_state ?_ l₁ h₁
    exact fun _ => (Stage.preserves_ofReport _).bind fun _ => Stage.preserves_update fun _ h => h
  exact hload.state

/-! ### What the other files hold does not matter -/

theorem enroll_congr (hpaths : fs.SamePaths fs') (n : Node) : enroll fs' n = enroll fs n := by
  funext l
  unfold enroll
  rw [hpaths.canonical_eq]

theorem bring_congr (hpaths : fs.SamePaths fs')
    (hopen : ∀ size, Object.open fs' path size = Object.open fs path size) (name : String) :
    bring fs' name path = bring fs name path := by
  simp only [bring, place, hopen, enroll_congr hpaths]

theorem serve_congr (hpaths : fs.SamePaths fs')
    (hopen : ∀ path, opening? fs r l = some path →
      ∀ size, Object.open fs' path size = Object.open fs path size) :
    (serve fs' r).run l = (serve fs r).run l := by
  cases hfind : l.graph.find? r.name with
  | some dep => rw [run_serve_of_known hfind, run_serve_of_known hfind]
  | none =>
    have hsame := hpaths.find?_eq l.config.libraryPath r.name
    cases hpath : l.config.libraryPath.find? fs r.name with
    | none =>
      rw [run_serve_of_missing hfind hpath, run_serve_of_missing hfind (hsame.trans hpath)]
    | some path =>
      have hcanonical := hpaths.canonical_eq path
      cases hfile : l.graph.find? (fs.canonical path) with
      | some dep =>
        rw [run_serve_of_alias hfind hpath hfile,
          run_serve_of_alias hfind (hsame.trans hpath) (hcanonical ▸ hfile)]
      | none =>
        have hbring := bring_congr hpaths
          (hopen path (opening?_eq_some_iff.2 ⟨hfind, hpath, hfile⟩)) r.name
        cases hresult : ((bring fs r.name path).run l).result with
        | error e =>
          rw [run_serve_of_bring_error hfind hpath hfile hresult, run_serve_of_bring_error hfind
            (hsame.trans hpath) (hcanonical ▸ hfile) (hbring ▸ hresult), hbring]
        | ok dep =>
          rw [run_serve_of_bring hfind hpath hfile hresult, run_serve_of_bring hfind
            (hsame.trans hpath) (hcanonical ▸ hfile) (hbring ▸ hresult), hbring]

theorem serveAll_congr (hpaths : fs.SamePaths fs')
    (hopen : ∀ path ∈ opened fs todo l,
      ∀ size, Object.open fs' path size = Object.open fs path size) :
    Stage.run (serveAll fs' todo) l = Stage.run (serveAll fs todo) l := by
  have hserve : ∀ {r : Request} {rest : List Request} {l : Loader},
      (∀ path ∈ opened fs (r :: rest) l,
        ∀ size, Object.open fs' path size = Object.open fs path size) →
      (serve fs' r).run l = (serve fs r).run l := by
    intro r rest l hopen
    refine serve_congr hpaths fun path hpath => hopen path ?_
    rw [opened_cons]
    exact List.mem_append_left _ (Option.mem_toList.2 hpath)
  induction todo, l using serveAll.induct fs with
  | case1 l => rw [serveAll_nil, serveAll_nil]
  | case2 l r rest e l₁ ns served =>
    have hrun : (serve fs r).run l = ⟨.error e, l₁, ns⟩ := served
    rw [run_serveAll_of_error hrun, run_serveAll_of_error ((hserve hopen).trans hrun)]
  | case3 l r rest more l₁ ns served ih =>
    have hrun : (serve fs r).run l = ⟨.ok more, l₁, ns⟩ := served
    rw [serveAll_cons, serveAll_cons]
    refine Stage.run_bind_congr (hserve hopen) fun more' hmore' => ?_
    rw [hrun] at hmore' ⊢
    cases hmore'
    refine ih fun path hpath => hopen path ?_
    rw [opened_cons, hrun]
    exact List.mem_append_right _ hpath

/-- **The second phase opens no other files**: what they hold does not matter to it. -/
theorem run_loadLibraries_congr (hpaths : fs.SamePaths fs')
    (hopen : ∀ path ∈ opened fs (l.graph.requestsOf (Key.ofNat 0)) l,
      ∀ size, Object.open fs' path size = Object.open fs path size) :
    (loadLibraries fs').run l = (loadLibraries fs).run l := by
  unfold loadLibraries
  refine Stage.run_bind_congr rfl fun _ henter => ?_
  rw [← (yields_enter_iff.1 ⟨henter, rfl⟩).2]
  refine Stage.run_bind_congr rfl fun k hk => ?_
  cases hk
  exact Stage.run_bind_congr (serveAll_congr hpaths hopen) fun _ _ => rfl

/-- **Which files the second phase opens**, whatever objects need each other in circles, need
themselves, or are found under several names. Serving requests does not go on for ever: all are
served in the end, or one cannot be. No file is opened twice, and none whose object is there
already, such as that of the executable. The files that are opened are those of the objects that
join, and one more at most, where loading breaks off; other files are not opened at all. There are
never more objects than there are keys. -/
theorem opened_of_reached (h : Reached fs config processor memory l)
    (hphase : l.phase = .initiated) :
    (¬ ∃ run : Nat → List Request × Loader, run 0 = (l.graph.requestsOf (Key.ofNat 0), l) ∧
        ∀ i, ServeStep fs (run i) (run (i + 1))) ∧
      ((∃ k, ServedTo fs l [] k ∧
          Stage.Yields (serveAll fs (l.graph.requestsOf (Key.ofNat 0))) l () k) ∨
        ∃ r rest k e, ServedTo fs l (r :: rest) k ∧ ((serve fs r).run k).result = .error e ∧
          ((loadLibraries fs).run l).result = .error e ∧
          ((loadLibraries fs).run l).state = ((serve fs r).run k).state) ∧
      (opened fs (l.graph.requestsOf (Key.ofNat 0)) l).Pairwise fs.Differ ∧
      (∃ last, last.length ≤ 1 ∧ ((loadLibraries fs).run l).state.graph.paths ++ last =
        l.graph.paths ++ opened fs (l.graph.requestsOf (Key.ofNat 0)) l) ∧
      (∃ root, l.graph.root? = some root) ∧
      (∀ n ∈ l.graph.toList, ∀ path ∈ opened fs (l.graph.requestsOf (Key.ofNat 0)) l,
        fs.Differ path n.object.path) ∧
      (∀ fs', fs.SamePaths fs' →
        (∀ path ∈ opened fs (l.graph.requestsOf (Key.ofNat 0)) l, ∀ size,
          Object.open fs' path size = Object.open fs path size) →
        (loadLibraries fs').run l = (loadLibraries fs).run l) ∧
      (∀ todo k, ServedTo fs l todo k → k.graph.size ≤ 65535) ∧
      ((loadLibraries fs).run l).state.graph.size ≤ 65535 := by
  have hl := h.registered
  obtain ⟨hpairwise, hunknown⟩ :=
    pairwise_opened fs (l.graph.requestsOf (Key.ofNat 0)) hl.registers.numbered
  refine ⟨?_, ?_, hpairwise, ?_, ?_, ?_, ?_, ?_, ?_⟩
  · rintro ⟨run, -, hsteps⟩
    exact (wellFounded_iff_isEmpty_descending_chain.1 (wellFounded_serveStep fs)).false
      ⟨run, hsteps⟩
  · rcases (ServedTo.start hphase).ends with hall | ⟨r, rest, k, e, hk, he, hresult, hstate⟩
    · exact .inl hall
    · exact .inr ⟨r, rest, k, e, hk, he, result_loadLibraries_of_error hphase hresult,
        (state_loadLibraries_of_error hphase hresult).trans hstate⟩
  · obtain ⟨last, hlast, -, hpaths⟩ :=
      paths_serveAll fs (l.graph.requestsOf (Key.ofNat 0)) hl.registers.numbered
    rw [graph_loadLibraries hphase]
    exact ⟨last, hlast, hpaths⟩
  · exact ⟨_, Array.getElem?_eq_getElem (hl.started (by rw [hphase]; exact nofun))⟩
  · intro n hn path hpath
    obtain ⟨i, hi⟩ := List.mem_iff_getElem?.1 hn
    rw [ObjectGraph.getElem?_toList] at hi
    refine FileSystem.differ_of_canonical_ne fun heq => ?_
    have hfiled := (hl.registers.records i n hi).filed
    rw [← heq, hunknown path hpath] at hfiled
    cases hfiled
  · exact fun fs' => run_loadLibraries_congr
  · exact fun todo k hk => (hk.registered hl).2.registers.numbered.size_le
  · exact h.loadLibraries.registered.registers.numbered.size_le

/-- The second phase opens the library that is there, and not the one that is missing. -/
theorem opened_gap {n : Node} (h : GapInitiated n l) :
    opened gapFiles (l.graph.requestsOf (Key.ofNat 0)) l = ["d/b"] := by
  obtain ⟨m, l₁, ns, hserve, hm⟩ := exists_serve_gap h
  have hfirst : opening? gapFiles ⟨.ofNat 0, "b"⟩ l = some "d/b" := by
    refine opening?_eq_some_iff.2 ⟨h.find?_eq "b" (by decide) (by decide), ?_, ?_⟩
    · rw [h.initiated.config_eq]
      decide +kernel
    · have hcanonical : gapFiles.canonical "d/b" = "/d/b" := by decide +kernel
      rw [hcanonical]
      exact h.find?_eq "/d/b" (by decide) (by decide)
  have hmissing : l₁.config.libraryPath.find? gapFiles "c" = none := by
    rw [hm.config_eq]
    decide +kernel
  have hsecond : opening? gapFiles ⟨.ofNat 1, "c"⟩ l₁ = none := by
    rw [opening?, hm.find?_c, hmissing]
  have hfails := run_serve_of_missing (r := ⟨.ofNat 1, "c"⟩) hm.find?_c hmissing
  rw [h.requestsOf_eq, opened_cons, hfirst, hserve]
  change "d/b" :: opened gapFiles [⟨.ofNat 1, "c"⟩] l₁ = _
  rw [opened_cons, hsecond, hfails]
  rfl

/-- The library is another file than the executable. -/
theorem opened_of_gapFiles : ∃ l root, Reached gapFiles gapConfig .arm (.zeroed 0x100000) l ∧
    l.phase = .initiated ∧ opened gapFiles (l.graph.requestsOf (Key.ofNat 0)) l = ["d/b"] ∧
    l.graph.root? = some root ∧ gapFiles.Differ "d/b" root.object.path := by
  obtain ⟨entry, n, l, hinitiate, hn⟩ := exists_initiate_gap
  have hreached : Reached gapFiles gapConfig .arm (.zeroed 0x100000) l :=
    after_initiate hinitiate ▸ Reached.initiate "a" .new
  have hopened := opened_gap hn
  obtain ⟨-, -, -, -, ⟨root, hroot⟩, hdiffer, -⟩ := opened_of_reached hreached hn.initiated.phase_eq
  refine ⟨l, root, hreached, hn.initiated.phase_eq, hopened, hroot, hdiffer root ?_ "d/b" ?_⟩
  · rw [ObjectGraph.toList]
    exact Array.mem_toList_iff.2 (Array.mem_of_getElem? hroot)
  · rw [hopened]
    exact List.mem_singleton_self _

end Loader

end ElfLoader
