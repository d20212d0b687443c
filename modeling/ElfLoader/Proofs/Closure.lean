import ElfLoader.Proofs.Calls
import ElfLoader.Proofs.Succeeding

/-!
# What is loaded in the end

Once the libraries are loaded, the graph is closed: an object has everything that it needs
(`ElfLoader.ObjectGraph.Meets`), and the graph says so. While requests are served, an object
has what it needs unless a request for it is still to come
(`ElfLoader.ObjectGraph.CoveredAt`).

This takes for granted that requests are served to the last. When the second phase fails, the
requests that are left are forgotten, but not the objects that have been placed. If the phase
is called once more, those objects are found by their names, and nobody asks for what *they*
need. So an object may be left behind for good
(`ElfLoader.Loader.Call.Abandons`), and the loader goes on without what it needs
(`ElfLoader.Loader.meets_of_calls`).
-/

namespace ElfLoader

namespace ObjectGraph

variable {g g' : ObjectGraph} {n : Node} {name : String} {r : Request}
  {more rest todo : List Request} {dep : Key} {i : Nat}

/-- **An object has what it needs**: every name that it asks for leads to an object, and the
graph has an edge to it. -/
def Meets (g : ObjectGraph) (n : Node) : Prop :=
  ∀ name ∈ n.object.needed, ∃ key dep, g.find? name = some key ∧ g.get? key = some dep ∧
    key ∈ n.deps

/-- The object at a position has what it needs. There need not be one. -/
def MeetsAt (i : Nat) (g : ObjectGraph) : Prop := ∀ n, g.nodes[i]? = some n → g.Meets n

/-- **An object has what it needs, or there is still a request for it.** -/
def CoveredAt (i : Nat) (g : ObjectGraph) (todo : List Request) : Prop :=
  ∀ n, g.nodes[i]? = some n → ∀ name ∈ n.object.needed,
    (∃ key ∈ n.deps, g.find? name = some key) ∨ ⟨n.key, name⟩ ∈ todo

/-- Without any requests left, an object has what it needs. -/
theorem coveredAt_nil_iff (hg : g.Numbered) :
    CoveredAt i g [] ↔ MeetsAt i g := by
  refine forall_congr' fun n => forall_congr' fun hn => forall_congr' fun name =>
    forall_congr' fun hname => ?_
  simp only [List.not_mem_nil, or_false]
  constructor
  · rintro ⟨key, hkey, hfind⟩
    obtain ⟨dep, hdep⟩ : ∃ dep, g.get? key = some dep :=
      ⟨_, Array.getElem?_eq_getElem (hg.known name key hfind)⟩
    exact ⟨key, dep, hfind, hdep, hkey⟩
  · rintro ⟨key, dep, hfind, -, hkey⟩
    exact ⟨key, hkey, hfind⟩

/-- All that an object needs is asked for by its requests. -/
theorem coveredAt_requestsOf (hg : g.Numbered) (hi : i ≤ KeyTable.capacity) :
    CoveredAt i g (g.requestsOf (Key.ofNat i)) := by
  intro n hn name hname
  have hkey := hg.key_eq i n hn
  rw [requestsOf, get?, Key.toNat_ofNat hi, hn]
  exact .inr (List.mem_map.2 ⟨name, hname, by rw [hkey]⟩)

theorem subset_withDep (deps : List Key) (dep : Key) : deps ⊆ withDep deps dep := by
  unfold withDep
  split
  · exact List.Subset.refl deps
  · exact List.subset_append_left deps [dep]

theorem mem_withDep (deps : List Key) (dep : Key) : dep ∈ withDep deps dep := by
  unfold withDep
  split
  · assumption
  · simp

/-- **An edge takes the place of a request.** -/
theorem CoveredAt.addEdge (h : CoveredAt i g (r :: todo)) (hg : g.Numbered)
    (hdep : g.find? r.name = some dep) : CoveredAt i (g.addEdge r.asker dep) todo := by
  intro n hn name hname
  rw [getElem?_addEdge] at hn
  obtain ⟨m, hm, rfl⟩ := Option.map_eq_some_iff.1 hn
  have hkey := hg.key_eq i m hm
  split at hname
  · next hasker =>
    rw [if_pos hasker]
    rcases h m hm name hname with ⟨key, hmem, hfind⟩ | hmem
    · exact .inl ⟨key, subset_withDep _ _ hmem, hfind⟩
    · rcases List.mem_cons.1 hmem with rfl | hmem
      · exact .inl ⟨dep, mem_withDep _ _, hdep⟩
      · exact .inr hmem
  · next hasker =>
    rw [if_neg hasker]
    rcases h m hm name hname with hmet | hmem
    · exact .inl hmet
    · rcases List.mem_cons.1 hmem with rfl | hmem
      · -- the request that is served is not one of this object
        have hle := (Array.getElem?_eq_some_iff.1 hm).1.le.trans hg.size_le
        rw [hkey, Key.toNat_ofNat hle] at hasker
        exact absurd rfl hasker
      · exact .inr hmem

/-- More names make no difference. -/
theorem CoveredAt.keeps (h : CoveredAt i g todo) (hkeeps : g.Keeps g')
    (hnode : g'.nodes[i]? = g.nodes[i]?) : CoveredAt i g' todo := by
  intro n hn name hname
  rcases h n (hnode ▸ hn) name hname with ⟨key, hmem, hfind⟩ | hmem
  · exact .inl ⟨key, hmem, hkeeps name key hfind⟩
  · exact .inr hmem

/-- An object that joins the graph comes with requests for all that it needs. -/
theorem CoveredAt.joined (h : CoveredAt i g (r :: rest)) (hj : g.Joined name n g') :
    CoveredAt i g' (r :: (n.requests n.key ++ rest)) := by
  intro m hm name' hname
  rw [hj.nodes_eq, Array.getElem?_push] at hm
  split at hm
  · cases hm
    refine .inr (List.mem_cons_of_mem r (List.mem_append_left rest ?_))
    exact List.mem_map_of_mem hname
  · rcases h m hm name' hname with ⟨key, hmem, hfind⟩ | hmem
    · exact .inl ⟨key, hmem, hj.keeps name' key hfind⟩
    · refine .inr ?_
      rcases List.mem_cons.1 hmem with rfl | hmem
      · exact List.mem_cons_self
      · exact List.mem_cons_of_mem r (List.mem_append_right _ hmem)

/-- **Whatever is served, no object is lost sight of.** -/
theorem Serving.coveredAt (hs : g.Serving r more g') (hg : g.Numbered)
    (h : CoveredAt i g (r :: rest)) : CoveredAt i g' (more ++ rest) := by
  cases hs with
  | known found => exact h.addEdge hg found
  | @aliased dep new loaded =>
    refine (h.keeps (g.keeps_insertAlias _ _) rfl).addEdge (hg.insertAlias _ loaded) ?_
    rw [find?_insertAlias, new, Option.none_or, if_pos rfl]
  | joined joined => exact (h.joined joined).addEdge joined.numbered joined.find?_eq

end ObjectGraph

namespace Loader

open ObjectGraph

variable {fs : FileSystem} {l l' : Loader} {c : Call} {i : Nat}

/-! ### One call -/

/-- **A call abandons an object**, the one at a position, if libraries should have been loaded,
this has failed, and the object is left without what it needs. The executable is never
abandoned, as its requests are the first to be made again. -/
def Call.Abandons (c : Call) (l : Loader) (i : Nat) : Prop :=
  0 < i ∧ (∃ fs, c = .loadLibraries fs) ∧ (∃ e, (c.work.run l).result = .error e) ∧
    ¬ MeetsAt i (l.after c).graph

/-- **The object at a position is cared for.** -/
structure Tended (i : Nat) (l : Loader) : Prop where
  /-- Keys are positions. -/
  numbered : l.graph.Numbered
  /-- At first there is no object. -/
  graph_eq : l.phase = .created → l.graph = .empty
  /-- Before the libraries are loaded, it has what it needs unless it is the executable. -/
  library : l.phase = .initiated → 0 < i → MeetsAt i l.graph
  /-- Later on it has what it needs. -/
  closed : l.phase ≠ .created → l.phase ≠ .initiated → MeetsAt i l.graph

theorem tended_new (i : Nat) (config : Config) (processor : Processor) (memory : Memory) :
    (new config processor memory).Tended i where
  numbered := numbered_empty
  graph_eq _ := rfl
  library := nofun
  closed h := absurd rfl h

theorem Tended.spares (h : l.Tended i) (hs : l.Spares l') : l'.Tended i := by
  obtain ⟨hnumbered, hempty, hlibrary, hclosed⟩ := h
  rw [← hs.graph_eq] at hnumbered hempty hlibrary hclosed
  rw [← hs.phase_eq] at hempty hlibrary hclosed
  exact ⟨hnumbered, hempty, hlibrary, hclosed⟩

/-- Once the libraries are loaded, all that counts is the graph. -/
theorem tended_of_meetsAt (hg : l.graph.Numbered) (hphase : l.phase ≠ .created)
    (h : MeetsAt i l.graph) : l.Tended i :=
  ⟨hg, fun hcreated => absurd hcreated hphase, fun _ _ => h, fun _ _ => h⟩

/-- Work on loaded libraries that leaves the graph alone. -/
theorem Tended.later {α : Type} {x : Work α} {phase phase' : Phase} (h : l.Tended i)
    (hx : x.Ensures l (fun _ l' => l.phase = phase ∧ l'.phase = phase' ∧ l'.graph = l.graph)
      l.Spares)
    (hphase : phase ≠ .created ∧ phase ≠ .initiated) (hphase' : phase' ≠ .created) :
    (((do let _ ← x) : Work Unit).run l).state.Tended i := by
  refine (Stage.ensures_bind (E := Tended i) (hx.mono (fun _ _ h => h) fun _ => h.spares)
    ?_).state
  rintro a l' ⟨rfl, rfl, hgraph⟩
  have hmet := h.closed hphase.1 hphase.2
  exact Stage.ensures_pure (tended_of_meetsAt (hgraph ▸ h.numbered) hphase' (hgraph ▸ hmet))

/-- **An object stays cared for** unless a call abandons it. -/
theorem Tended.of_call (h : l.Tended i) (hc : ¬ c.Abandons l i) : (l.after c).Tended i := by
  cases c with
  | initiate fs path =>
    refine (Stage.ensures_bind (E := Tended i) ((ensures_initiate h.graph_eq).mono
      (fun _ _ h => h) fun _ => h.spares) ?_).state
    rintro entry l' ⟨hphase, hnumbered, n, hnodes⟩
    refine Stage.ensures_pure ⟨hnumbered, ?_, ?_, ?_⟩
    · rw [hphase]
      exact nofun
    · -- the executable is the only object
      intro _ hi m hm
      rw [hnodes] at hm
      obtain ⟨hlt, -⟩ := Array.getElem?_eq_some_iff.1 hm
      exact absurd hi hlt.not_ge
    · exact fun _ hne => absurd hphase hne
  | loadLibraries fs =>
    have hensures := ensures_loadLibraries fs (P := CoveredAt i)
      (fun hg hs hcovered => hs.coveredAt hg hcovered) h.numbered (by
        intro hphase
        rcases i.eq_zero_or_pos with rfl | hi
        · exact coveredAt_requestsOf h.numbered (Nat.zero_le _)
        · have hmet := (coveredAt_nil_iff h.numbered).2 (h.library hphase hi)
          intro n hn name hname
          exact .inl ((hmet n hn name hname).resolve_right List.not_mem_nil))
    cases hresult : ((loadLibraries fs).run l).result with
    | ok u =>
      obtain ⟨hphase, hnumbered, hcovered⟩ := hensures.ok u _ ⟨hresult, rfl⟩
      exact tended_of_meetsAt hnumbered (hphase ▸ nofun) ((coveredAt_nil_iff hnumbered).1 hcovered)
    | error e =>
      rcases hensures.error e hresult with hspares | ⟨-, hphase, hnumbered⟩
      · exact h.spares hspares
      · refine ⟨hnumbered, ?_, ?_, fun _ hne => absurd hphase hne⟩
        · exact fun hcreated => nomatch hphase.symm.trans hcreated
        · intro _ hi
          by_contra hmet
          exact hc ⟨hi, ⟨fs, rfl⟩, ⟨e, hresult⟩, hmet⟩
  | link => exact h.later (ensures_link l) (by decide) (by decide)
  | finalize => exact h.later (ensures_finalize l) (by decide) (by decide)

/-! ### Calls one after the other -/

/-- **An object that has never been abandoned stays cared for.** -/
theorem Tended.of_calls {calls : List Call} (h : l.Tended i)
    (hcalls : ∀ before c rest, calls = before ++ c :: rest → ¬ c.Abandons (l.afterAll before) i) :
    (l.afterAll calls).Tended i := by
  induction calls generalizing l with
  | nil => exact h
  | cons c calls ih =>
    refine ih (h.of_call (hcalls [] c calls rfl)) ?_
    intro before c' rest hsplit
    exact hcalls (c :: before) c' rest (by rw [hsplit]; rfl)

/-- **What is loaded after any calls**, also calls that fail and are made again. When the
libraries have been loaded, an object has all that it needs, unless a failed call has
abandoned it. -/
theorem meets_of_calls (config : Config) (processor : Processor) (memory : Memory)
    (calls : List Call) {l : Loader} (hl : (new config processor memory).afterAll calls = l)
    (hcreated : l.phase ≠ .created) (hinitiated : l.phase ≠ .initiated) (i : Nat) (n : Node)
    (hn : l.graph.toList[i]? = some n)
    (hcalls : ∀ before c rest, calls = before ++ c :: rest →
      ¬ c.Abandons ((new config processor memory).afterAll before) i) :
    l.graph.Meets n := by
  have htended := (tended_new i config processor memory).of_calls hcalls
  rw [hl] at htended
  rw [getElem?_toList] at hn
  exact htended.closed hcreated hinitiated n hn

end Loader

/-! ### An object that is abandoned -/

/-- The file `ElfLoader.selfNeeding` with another letter for what it needs. -/
def needing (letter : UInt8) : ByteArray := ⟨selfNeeding.data.set! 149 letter⟩

/-- A file system in which the executable `a` needs a library `b`, which is in the directory
`d`, and `b` needs a library `c`, which is missing. -/
def gapFiles : FileSystem :=
  ⟨[(["a"], .file (needing 0x62)), (["d"], .directory), (["d", "b"], .file (needing 0x63))], [],
    []⟩

/-- The standard settings with a directory for libraries. -/
def gapConfig : Config := { Config.standard with libraryPath := ⟨["d"]⟩ }

/-- The executable. -/
def gapExecutable : Object :=
  (Object.open gapFiles "a" 4096).result.toOption.get (by decide +kernel)

/-- The library that is there. -/
def gapLibrary : Object :=
  (Object.open gapFiles "d/b" 4096).result.toOption.get (by decide +kernel)

/-- The owners of addresses before the executable is placed. -/
def gapMap : AddressMap := ⟨0x100000, [⟨0, 0x1000, .guard⟩, ⟨0xf0000, 0x100000, .stack⟩]⟩

namespace Loader

/-- The loader for these files. -/
def gapLoader : Loader := new gapConfig .arm (.zeroed 0x100000)

theorem open_gapExecutable : (Object.open gapFiles "a" 4096).result = .ok gapExecutable :=
  eq_ok_get _

theorem open_gapLibrary : (Object.open gapFiles "d/b" 4096).result = .ok gapLibrary :=
  eq_ok_get _

/-- What is in the executable. -/
theorem gapExecutable_facts : (gapExecutable.isShared = true ∧
      gapExecutable.extent = ⟨0, 0x1000⟩ ∧ gapExecutable.soname = none ∧
      gapFiles.canonical gapExecutable.path = "/a") ∧ gapExecutable.file.order = .little ∧
      gapExecutable.needed = ["b"] ∧ gapExecutable.versions.needs.toList = [] := by
  decide +kernel

/-- What is in the library. -/
theorem gapLibrary_facts : (gapLibrary.isShared = true ∧ gapLibrary.extent = ⟨0, 0x1000⟩ ∧
      gapLibrary.soname = none ∧ gapFiles.canonical gapLibrary.path = "/d/b") ∧
      (gapLibrary.header.machine = Machine.arm ∧ gapLibrary.file.order = .little) ∧
      gapLibrary.needed = ["c"] ∧ gapLibrary.versions.needs.toList = [] := by
  decide +kernel

/-- The owners of addresses once the executable has been placed. -/
def gapMap' : AddressMap := ⟨0x100000, [⟨0, 0x1000, .guard⟩,
  ⟨0x1000, 0x2000, .object (.ofNat 0)⟩, ⟨0xf0000, 0x100000, .stack⟩]⟩

/-- A loader that has placed the executable `n`. No name but its own is known. -/
structure GapInitiated (n : Node) (l : Loader) : Prop where
  initiated : Initiated gapFiles gapConfig (.zeroed 0x100000) "a" n l
  object_eq : n.object = gapExecutable
  processor_eq : l.processor = .arm
  map_eq : l.map = gapMap'
  find?_eq : ∀ other, other ≠ "a" → other ≠ "/a" → l.graph.find? other = none

/-- A loader that has placed the library `m` behind the executable `n`, and nothing else. -/
structure GapHalted (n m : Node) (l : Loader) : Prop where
  phase_eq : l.phase = .initiated
  config_eq : l.config = gapConfig
  object_eq : m.object = gapLibrary
  settled_eq : l.graph.settled = [n.settled, m]
  find?_b : l.graph.find? "b" = some m.key
  find?_c : l.graph.find? "c" = none

/-- The executable is placed behind the guard page. -/
theorem exists_initiate_gap : ∃ entry n l, (initiate gapFiles "a").Yields gapLoader entry l ∧
    GapInitiated n l := by
  obtain ⟨⟨hshared, hextent, hsoname, hpath⟩, -⟩ := gapExecutable_facts
  have hguard : reserveGuard gapExecutable gapConfig.pageSize
      ⟨0x100000, [⟨0xf0000, 0x100000, .stack⟩]⟩ = .ok gapMap := by
    unfold reserveGuard
    rw [if_pos (by rw [hshared]; rfl)]
    decide +kernel
  have hreserve : { gapLoader with map := gapMap }.reserveFor (Key.ofNat 0) gapExecutable =
      .ok (0x1000, gapMap') := by
    unfold reserveFor
    rw [if_pos hshared, hextent]
    decide +kernel
  obtain ⟨entry, l, hinitiate, h⟩ := exists_begun gapConfig .arm (.zeroed 0x100000) rfl
    open_gapExecutable (by decide +kernel) (by decide +kernel) hguard
    (eq_ok_get (by decide +kernel)) hreserve
  refine ⟨entry, _, l, hinitiate, h.initiated, rfl, h.processor_eq, h.map_eq, ?_⟩
  intro other hother hother'
  exact h.find?_eq_none other hother (hpath ▸ hother')
    (hsoname.trans_ne (Option.some_ne_none other).symm)

namespace GapInitiated

variable {n : Node} {l : Loader}

theorem size_eq (h : GapInitiated n l) : l.graph.size = 1 := by
  rw [ObjectGraph.size, h.initiated.nodes_eq]
  rfl

theorem requestsOf_eq (h : GapInitiated n l) :
    l.graph.requestsOf (Key.ofNat 0) = [⟨.ofNat 0, "b"⟩] := by
  obtain ⟨-, -, hneeded, -⟩ := gapExecutable_facts
  have hkey := h.initiated.orderly.numbered.key_eq 0 n (by rw [h.initiated.nodes_eq]; rfl)
  rw [h.initiated.requestsOf_eq, Node.requests, h.object_eq, hneeded, hkey]
  rfl

/-- The library is for the same processor and in the same byte order. -/
theorem admissible_gapLibrary (h : GapInitiated n l) : l.admissible gapLibrary = .ok () := by
  obtain ⟨-, horder, -⟩ := gapExecutable_facts
  obtain ⟨-, ⟨hmachine, horder'⟩, -⟩ := gapLibrary_facts
  have hroot : l.graph.root? = some n := by
    rw [ObjectGraph.root?, h.initiated.nodes_eq]
    rfl
  unfold admissible
  rw [h.processor_eq, hroot]
  dsimp only
  rw [h.object_eq]
  exact bind_eq_ok_iff.2 ⟨(), (ensure_eq_ok_iff ..).2 hmachine,
    (ensure_eq_ok_iff ..).2 (horder'.trans horder.symm)⟩

/-- There is room for the library. -/
theorem exists_reserveFor (h : GapInitiated n l) :
    ∃ reserved, l.reserveFor l.graph.nextKey gapLibrary = .ok reserved := by
  obtain ⟨⟨hshared, hextent, -⟩, -⟩ := gapLibrary_facts
  unfold reserveFor
  rw [if_pos hshared, hextent, h.map_eq, h.initiated.config_eq, ObjectGraph.nextKey, h.size_eq]
  exact ⟨_, eq_ok_get (by decide +kernel)⟩

end GapInitiated

/-- The library is placed behind the executable, and then asks for what is missing. -/
theorem exists_serve_gap {n : Node} {l : Loader} (h : GapInitiated n l) :
    ∃ m l' ns, (serve gapFiles ⟨.ofNat 0, "b"⟩).run l = ⟨.ok [⟨.ofNat 1, "c"⟩], l', ns⟩ ∧
      GapHalted n m l' := by
  obtain ⟨⟨-, -, hsoname, hpath⟩, -, hneeded, -⟩ := gapLibrary_facts
  have hconfig : l.config = gapConfig := h.initiated.config_eq
  have horderly := h.initiated.orderly
  have hnew : l.graph.find? "b" = none := h.find?_eq "b" (by decide) (by decide)
  have hlocated : l.config.libraryPath.find? gapFiles "b" = some "d/b" := by
    rw [hconfig]
    decide +kernel
  have hunknown : l.graph.find? (gapFiles.canonical "d/b") = none := by
    have hcanonical : gapFiles.canonical "d/b" = "/d/b" := by decide +kernel
    rw [hcanonical]
    exact h.find?_eq "/d/b" (by decide) (by decide)
  have hopened : (Object.open gapFiles "d/b" l.config.pageSize.toNat).result =
      .ok gapLibrary := by
    rw [hconfig]
    exact open_gapLibrary
  have hroom : l.graph.names.size < KeyTable.capacity := by
    rw [horderly.numbered.size_names, h.size_eq]
    decide
  obtain ⟨reserved, hr⟩ := h.exists_reserveFor
  obtain ⟨m, l₁, ns, hserve, hplaced, hplace⟩ := exists_serve_of_new (r := ⟨.ofNat 0, "b"⟩)
    horderly.consistent horderly.numbered (Object.sound_of_open (by decide) open_gapLibrary) hnew
    hlocated hunknown hopened h.admissible_gapLibrary hroom hr
  have hm : m.object = gapLibrary := Orderly.object_placed hplaced
  have hkey : m.key = Key.ofNat 1 := by
    rw [hplaced.node_eq, ← h.size_eq]
    rfl
  have hrequests : m.requests m.key = [⟨.ofNat 1, "c"⟩] := by
    rw [Node.requests, hm, hneeded, hkey]
    rfl
  have hstate := hplaced.state_eq
  refine ⟨m, l₁.answer ⟨.ofNat 0, "b"⟩ m.key, ns, hrequests ▸ hserve, ?_, ?_, hm, ?_,
    hplaced.find?_eq, ?_⟩
  · change l₁.phase = _
    rw [hstate]
    exact h.initiated.phase_eq
  · change l₁.config = _
    rw [hstate]
    exact hconfig
  · rw [answer, ObjectGraph.settled_addEdge, Orderly.settled_placed hplaced,
      ObjectGraph.settled, ObjectGraph.toList, h.initiated.nodes_eq]
    rfl
  · have hc : l₁.graph.find? "c" = l.graph.find? "c" :=
      find?_of_place hnew hplace (by decide) (by rw [hpath]; decide)
        (hsoname.trans_ne (Option.some_ne_none "c").symm)
    exact hc.trans (h.find?_eq "c" (by decide) (by decide))

/-- The second phase fails, as `c` is missing. What has been placed stays. -/
theorem after_loadLibraries_gap {n m : Node} {l l₁ : Loader} {ns : List Notice}
    (h : GapInitiated n l) (h₁ : GapHalted n m l₁)
    (hserve : (serve gapFiles ⟨.ofNat 0, "b"⟩).run l = ⟨.ok [⟨.ofNat 1, "c"⟩], l₁, ns⟩) :
    l.after (.loadLibraries gapFiles) = l₁ := by
  have hmissing : l₁.config.libraryPath.find? gapFiles "c" = none := by
    rw [h₁.config_eq]
    decide +kernel
  obtain ⟨e, hlast⟩ : ∃ e, Stage.run (serveAll gapFiles ([⟨.ofNat 1, "c"⟩] ++ [])) l₁ =
      ⟨.error e, l₁, []⟩ :=
    ⟨_, run_serveAll_of_error (run_serve_of_missing h₁.find?_c hmissing) []⟩
  have hall : Stage.run (serveAll gapFiles (l.graph.requestsOf (Key.ofNat 0))) l =
      ⟨.error e, l₁, ns ++ []⟩ := by
    rw [h.requestsOf_eq, serveAll_cons]
    exact (Stage.run_bind_of_ok hserve).trans (by rw [hlast])
  exact (state_loadLibraries_of_error h.initiated.phase_eq (congrArg Outcome.result hall)).trans
    (congrArg Outcome.state hall)

/-- The second phase succeeds when it is called once more, as `b` is known now. -/
theorem exists_retry_gap {n m : Node} {l : Loader} (hn : n.object = gapExecutable)
    (h : GapHalted n m l) : ∃ l', l.after (.loadLibraries gapFiles) = l' ∧ l'.phase = .loaded ∧
      l'.graph.settled = [n.settled, m] ∧ l'.graph.find? "c" = none := by
  obtain ⟨-, -, hexecutable, hversions⟩ := gapExecutable_facts
  obtain ⟨-, -, -, hversions'⟩ := gapLibrary_facts
  have hrequests : l.graph.requestsOf (Key.ofNat 0) = [⟨.ofNat 0, "b"⟩] := by
    have hroot : l.graph.settled[0]? = some n.settled := by
      rw [h.settled_eq]
      rfl
    rw [ObjectGraph.requestsOf_of_settled (Nat.zero_le _) hroot, Node.requests]
    change n.object.needed.map _ = _
    rw [hn, hexecutable]
    rfl
  have hknown : ∀ r ∈ l.graph.requestsOf (Key.ofNat 0), ∃ key, l.graph.find? r.name = some key := by
    rw [hrequests]
    intro r hr
    obtain rfl := List.mem_singleton.1 hr
    exact ⟨m.key, h.find?_b⟩
  have hneeds : ∀ x ∈ l.graph.settled, x.object.versions.needs.toList = [] := by
    rw [h.settled_eq]
    intro x hx
    rcases List.mem_cons.1 hx with rfl | hx
    · exact hn ▸ hversions
    · obtain rfl := List.mem_singleton.1 hx
      exact h.object_eq ▸ hversions'
  obtain ⟨l', hload, hphase, -, hsettled, hnames⟩ :=
    exists_loadLibraries_of_known gapFiles h.phase_eq hknown hneeds
  refine ⟨l', hload.2, hphase, hsettled.trans h.settled_eq, ?_⟩
  rw [ObjectGraph.find?, hnames]
  exact h.find?_c

/-- The first phase, a second phase that fails, and one that succeeds. -/
def gapCalls : List Call :=
  [.initiate gapFiles "a", .loadLibraries gapFiles, .loadLibraries gapFiles]

/-- The library stays, and nobody asks for what it needs. -/
theorem afterAll_gapCalls : ∃ l n m, gapLoader.afterAll gapCalls = l ∧ l.phase = .loaded ∧
    l.graph.toList[0]? = some n ∧ n.object.needed = ["b"] ∧
    l.graph.toList[1]? = some m ∧ m.object.needed = ["c"] ∧ l.graph.find? "c" = none := by
  obtain ⟨entry, n, l, hinitiate, hn⟩ := exists_initiate_gap
  obtain ⟨m, l₁, ns, hserve, hm⟩ := exists_serve_gap hn
  obtain ⟨l₂, hthird, hphase, hsettled, hc⟩ := exists_retry_gap hn.object_eq hm
  have hfirst : gapLoader.after (.initiate gapFiles "a") = l := after_initiate hinitiate
  have hsecond : l.after (.loadLibraries gapFiles) = l₁ := after_loadLibraries_gap hn hm hserve
  have hcalls : gapLoader.afterAll gapCalls = l₂ := by
    rw [afterAll, gapCalls, List.foldl_cons, List.foldl_cons, List.foldl_cons, List.foldl_nil,
      hfirst, hsecond, hthird]
  obtain ⟨-, -, hexecutable, -⟩ := gapExecutable_facts
  obtain ⟨-, -, hlibrary, -⟩ := gapLibrary_facts
  obtain ⟨x, hx, hxn⟩ := ObjectGraph.exists_of_getElem?_settled (g := l₂.graph) (i := 0)
    (by rw [hsettled]; rfl)
  obtain ⟨y, hy, hym⟩ := ObjectGraph.exists_of_getElem?_settled (g := l₂.graph) (i := 1)
    (by rw [hsettled]; rfl)
  have hxo : x.object = gapExecutable := (congrArg Node.object hxn).trans hn.object_eq
  have hyo : y.object = gapLibrary := (congrArg Node.object hym).trans hm.object_eq
  exact ⟨l₂, x, y, hcalls, hphase, hx, hxo ▸ hexecutable, hy, hyo ▸ hlibrary, hc⟩

/-- The executable is not abandoned: in the end it has what it needs. -/
theorem meets_of_gapCalls : ∃ l n, gapLoader.afterAll gapCalls = l ∧ l.phase = .loaded ∧
    l.graph.toList[0]? = some n ∧ n.object.needed = ["b"] ∧ l.graph.Meets n := by
  obtain ⟨l, n, m, hl, hphase, hn, hneeded, -⟩ := afterAll_gapCalls
  refine ⟨l, n, hl, hphase, hn, hneeded, ?_⟩
  refine meets_of_calls gapConfig .arm (.zeroed 0x100000) gapCalls hl ?_ ?_ 0 n hn ?_
  · rw [hphase]
    exact nofun
  · rw [hphase]
    exact nofun
  · exact fun before c rest _ habandons => Nat.lt_irrefl 0 habandons.1

/-- **The library is abandoned**: all libraries are said to be loaded, but the one that it
needs is not. -/
theorem not_meets_of_gapCalls : ∃ l n, gapLoader.afterAll gapCalls = l ∧ l.phase = .loaded ∧
    n ∈ l.graph.toList ∧ "c" ∈ n.object.needed ∧ l.graph.find? "c" = none ∧
    ¬ l.graph.Meets n := by
  obtain ⟨l, -, n, hl, hphase, -, -, hn, hneeded, hfind⟩ := afterAll_gapCalls
  have hc : "c" ∈ n.object.needed := by
    rw [hneeded]
    exact List.mem_cons_self
  refine ⟨l, n, hl, hphase, List.mem_of_getElem? hn, hc, hfind, ?_⟩
  intro hmeets
  obtain ⟨key, -, hkey, -⟩ := hmeets "c" hc
  rw [hfind] at hkey
  cases hkey

end Loader

end ElfLoader
