import ElfLoader.Proofs.Serving

/-!
# When the first two phases succeed

The first phase succeeds if each of its checks does: nothing that comes after the addresses
of the executable have been reserved can fail (`ElfLoader.Loader.exists_initiate`). The
second phase succeeds at once if all needed names are known already
(`ElfLoader.Loader.exists_loadLibraries_of_known`).

An executable that needs itself, `ElfLoader.selfNeeding`, is an example for both.
-/

namespace ElfLoader

/-- There is room for an object under a new name unless all keys are used up. -/
theorem ObjectGraph.exists_insert {g : ObjectGraph} {n : Node} (new : g.find? n.name = none)
    (hroom : g.names.size < KeyTable.capacity) : ∃ key g', g.insert n = .ok (key, g') := by
  have hfind : g.names.find? n.name = none := new
  unfold insert KeyTable.insert
  rw [hfind]
  dsimp only
  rw [if_pos hroom]
  exact ⟨_, _, rfl⟩

namespace Loader

variable {fs : FileSystem} {path : String} {config : Config} {processor : Processor}
  {memory : Memory} {l : Loader} {name : String} {o : Object}

/-! ### The first phase -/

/-- Enrolling an object under a new name succeeds if there is a key left. -/
theorem exists_enroll (fs : FileSystem) {n : Node} (new : l.graph.find? n.name = none)
    (hroom : l.graph.names.size < KeyTable.capacity) :
    ∃ key l', (enroll fs n).Yields l key l' := by
  obtain ⟨key, graph, hinsert⟩ := ObjectGraph.exists_insert new hroom
  let graph' := withNames graph key (fs.canonical n.object.path) n.object.soname
  refine ⟨key, { l with graph := graph' }, ?_⟩
  unfold enroll Stage.Yields Stage.run
  simp only [hinsert, graph', and_self]

/-- **Placing an object** under a new name succeeds once its addresses are reserved. -/
theorem exists_place (fs : FileSystem) {reserved : UInt32 × AddressMap} (hl : l.Consistent)
    (ho : o.Sound) (new : l.graph.find? name = none)
    (hroom : l.graph.names.size < KeyTable.capacity)
    (hr : l.reserveFor l.graph.nextKey o = .ok reserved) :
    ∃ key l', (place fs name o).Yields l key l' := by
  obtain ⟨memory, ns, hrun, -⟩ := run_settle name hl ho hr
  obtain ⟨key, l', henroll⟩ := exists_enroll fs (n := l.nodeAt name o reserved.1)
    (l := { l with map := reserved.2, memory }) new hroom
  exact ⟨key, l', Stage.yields_bind_iff.2 ⟨_, _, Stage.yields_of_run hrun, henroll⟩⟩

/-- Noting a C library succeeds if it can be told whether there is one. -/
theorem exists_noteLibrary (l : Loader) (name : String) {found : Option (Option SymbolTable)}
    (h : (builtIn o).result = .ok found) : ∃ l', (noteLibrary name o).Yields l () l' := by
  cases found with
  | none =>
    exact ⟨l, Stage.yields_bind_iff.2
      ⟨none, l, Stage.yields_ofReport_iff.2 ⟨h, rfl⟩, Stage.yields_pure_iff.2 ⟨rfl, rfl⟩⟩⟩
  | some symbols =>
    exact ⟨_, Stage.yields_bind_iff.2 ⟨some symbols, l, Stage.yields_ofReport_iff.2 ⟨h, rfl⟩,
      Stage.yields_bind_iff.2 ⟨(), l, yields_report_iff.2 rfl, Stage.yields_update_iff.2 rfl⟩⟩⟩

/-- **The first phase succeeds** if all of its checks do. -/
theorem exists_initiate {map map' : AddressMap} {found : Option (Option SymbolTable)}
    {reserved : UInt32 × AddressMap} (hcheck : config.check = .ok ())
    (hopen : (Object.open fs path config.pageSize.toNat).result = .ok o)
    (hadmissible : (new config processor memory).admissible o = .ok ())
    (hstack : reserveStack config.stackSize (.free (min memory.size addressSpace)) = .ok map)
    (hguard : reserveGuard o config.pageSize map = .ok map')
    (hfound : (builtIn o).result = .ok found)
    (hr : { new config processor memory with map := map' }.reserveFor (Key.ofNat 0) o =
      .ok reserved) :
    ∃ entry l, (initiate fs path).Yields (new config processor memory) entry l := by
  -- the loader that the executable is placed in differs from this one in notes only
  let k : Loader := { new config processor memory with map := map', order := o.file.order }
  obtain ⟨k', hlibrary⟩ := exists_noteLibrary k (executableName path) hfound
  obtain ⟨program, ownSymbols, rfl⟩ := exists_of_noteLibrary hlibrary
  have hk : Prepared fs config processor memory path o { k with program, ownSymbols } :=
    ⟨hcheck, hopen, ⟨map, hstack, hguard⟩, rfl⟩
  obtain ⟨key, l₁, hplace⟩ := exists_place fs hk.orderly.consistent hk.sound
    (ObjectGraph.find?_empty _) (show 0 < KeyTable.capacity by decide) hr
  let program' : ProgramInfo := { l₁.program with entry := entryOf l₁.graph key }
  refine ⟨program'.entry, { l₁ with program := program', phase := .initiated }, ?_⟩
  simp only [initiate, Stage.yields_bind_iff, yields_enter_iff, Stage.yields_state_iff,
    Stage.yields_ofExcept_iff, Stage.yields_ofReport_iff, Stage.yields_update_iff,
    yields_claim_iff, yields_noteInterpreter_iff, Stage.yields_pure_iff]
  exact ⟨(), _, ⟨rfl, rfl⟩, _, _, ⟨rfl, rfl⟩, (), _, ⟨hcheck, rfl⟩, o, _, ⟨hopen, rfl⟩, (), _,
    ⟨hadmissible, rfl⟩, (), _, rfl, (), _, ⟨map, hstack, rfl⟩, (), _, ⟨map', hguard, rfl⟩, (), _,
    hlibrary, (), _, rfl, key, l₁, hplace, (), _, rfl, _, _, ⟨rfl, rfl⟩, rfl, rfl⟩

/-- An executable as it is placed at an address. -/
def rootAt (path : String) (o : Object) (address : UInt32) : Node :=
  ⟨Key.ofNat 0, executableName path, o, address - o.extent.start, []⟩

/-- **A loader has begun with an executable**: it has placed the executable at an address, and no
name is known but those of the executable. -/
structure Begun (fs : FileSystem) (config : Config) (processor : Processor) (memory : Memory)
    (path : String) (o : Object) (address : UInt32) (map : AddressMap) (l : Loader) : Prop where
  /-- The first phase is over. -/
  initiated : Initiated fs config memory path (rootAt path o address) l
  /-- Relocations mean what they meant. -/
  processor_eq : l.processor = processor
  /-- The byte order is that of the executable. -/
  order_eq : l.order = o.file.order
  /-- The owners of addresses. -/
  map_eq : l.map = map
  /-- Other names are not known. -/
  find?_eq_none : ∀ other, other ≠ executableName path → other ≠ fs.canonical o.path →
    o.soname ≠ some other → l.graph.find? other = none

/-- **A new loader begins with an executable** if each check of the first phase succeeds. -/
theorem exists_begun (config : Config) (processor : Processor) (memory : Memory)
    {map map' map'' : AddressMap} {address : UInt32} {found : Option (Option SymbolTable)}
    (hcheck : config.check = .ok ())
    (hopen : (Object.open fs path config.pageSize.toNat).result = .ok o)
    (hadmissible : (new config processor memory).admissible o = .ok ())
    (hstack : reserveStack config.stackSize (.free (min memory.size addressSpace)) = .ok map)
    (hguard : reserveGuard o config.pageSize map = .ok map')
    (hfound : (builtIn o).result = .ok found)
    (hr : { new config processor memory with map := map' }.reserveFor (Key.ofNat 0) o =
      .ok (address, map'')) :
    ∃ entry l, (initiate fs path).Yields (new config processor memory) entry l ∧
      Begun fs config processor memory path o address map'' l := by
  obtain ⟨entry, l, hinitiate⟩ :=
    exists_initiate hcheck hopen hadmissible hstack hguard hfound hr
  obtain ⟨n, hn⟩ := initiated_of_initiate hinitiate
  obtain ⟨o', k, key, l₁, hk, hplace, hl⟩ := prepared_of_initiate hinitiate
  obtain rfl : o' = o := Except.ok.inj (hk.opened.symm.trans hopen)
  have hempty : k.graph.find? (executableName path) = none :=
    hk.graph_eq ▸ ObjectGraph.find?_empty _
  obtain ⟨m, -, hplaced⟩ := placed_of_place hk.orderly.consistent hk.orderly.numbered hk.sound
    hempty hplace
  have hreserve : k.reserveFor k.graph.nextKey o' = .ok (address, map'') := by
    unfold reserveFor at hr ⊢
    rw [hk.map_eq hstack hguard, hk.config_eq, hk.graph_eq]
    exact hr
  have hm : m = rootAt path o' address := by
    have hnode := hplaced.node_eq
    rw [(Prod.mk.inj (Except.ok.inj (hplaced.reserveFor_eq.symm.trans hreserve))).1, nodeAt,
      hk.graph_eq] at hnode
    exact hnode
  have hnodes : l.graph.nodes = #[m] := by
    rw [hl]
    exact hplaced.nodes_eq.trans (by rw [hk.graph_eq]; rfl)
  obtain rfl : n = m := by
    rw [hn.nodes_eq] at hnodes
    exact (List.cons.inj (congrArg Array.toList hnodes)).1
  have hstate : l = { k with
      map := l.map, memory := l.memory, graph := l.graph, program := l.program,
      phase := .initiated } := by
    rw [hl, hplaced.state_eq]
  refine ⟨entry, l, hinitiate, hm ▸ hn, ?_, ?_, ?_, ?_⟩
  · rw [hstate, hk.state_eq]
    rfl
  · rw [hstate, hk.state_eq]
  · rw [hl]
    exact hplaced.map_eq hreserve
  · intro other hname hpath hsoname
    have hfind := find?_of_place hempty hplace hname hpath hsoname
    rw [hk.graph_eq, ObjectGraph.find?_empty] at hfind
    rw [hl]
    exact hfind

/-! ### The second phase -/

/-- Requests are served if the first one is and then the others. -/
theorem yields_serveAll_cons {r : Request} {more rest : List Request} {l₁ l' : Loader}
    {ns : List Notice} (h : (serve fs r).run l = ⟨.ok more, l₁, ns⟩)
    (hrest : Stage.Yields (serveAll fs (more ++ rest)) l₁ () l') :
    Stage.Yields (serveAll fs (r :: rest)) l () l' := by
  rw [serveAll_cons]
  exact Stage.yields_bind_iff.2 ⟨more, l₁, Stage.yields_of_run h, hrest⟩

/-- **A request for a file that is not known** is served once the file has been opened and the
addresses of its object can be reserved. -/
theorem exists_serve_of_new {r : Request} {path : String} {reserved : UInt32 × AddressMap}
    (hl : l.Consistent) (hg : l.graph.Numbered) (ho : o.Sound)
    (new : l.graph.find? r.name = none)
    (located : l.config.libraryPath.find? fs r.name = some path)
    (unknown : l.graph.find? (fs.canonical path) = none)
    (opened : (Object.open fs path l.config.pageSize.toNat).result = .ok o)
    (admitted : l.admissible o = .ok ()) (hroom : l.graph.names.size < KeyTable.capacity)
    (hr : l.reserveFor l.graph.nextKey o = .ok reserved) :
    ∃ n l₁ ns, (serve fs r).run l = ⟨.ok (n.requests n.key), l₁.answer r n.key, ns⟩ ∧
      l.Placed r.name o n l₁ ∧ (place fs r.name o).Yields l n.key l₁ := by
  obtain ⟨key, l₁, hplace⟩ := exists_place fs hl ho new hroom hr
  obtain ⟨n, rfl, hplaced⟩ := placed_of_place hl hg ho new hplace
  have hbring : (bring fs r.name path).Yields l n.key l₁ := by
    simp only [bring, Stage.yields_bind_iff, Stage.yields_state_iff, Stage.yields_ofReport_iff,
      Stage.yields_ofExcept_iff]
    exact ⟨l, l, ⟨rfl, rfl⟩, o, l, ⟨opened, rfl⟩, (), l, ⟨admitted, rfl⟩, hplace⟩
  have hrun := run_serve_of_bring new located unknown hbring.1
  rw [hbring.2, hplaced.joined.requestsOf_eq] at hrun
  exact ⟨n, l₁, _, hrun, hplaced, hplace⟩

/-- **Requests for names that are known** are served, and neither an object nor a name is
added. -/
theorem exists_serveAll_of_known (fs : FileSystem) {todo : List Request}
    (h : ∀ r ∈ todo, ∃ key, l.graph.find? r.name = some key) :
    ∃ l', Stage.Yields (serveAll fs todo) l () l' ∧ l'.map = l.map ∧
      l'.graph.settled = l.graph.settled ∧ l'.graph.names = l.graph.names := by
  induction todo generalizing l with
  | nil => exact ⟨l, serveAll_nil fs ▸ Stage.yields_pure_iff.2 ⟨rfl, rfl⟩, rfl, rfl, rfl⟩
  | cons r rest ih =>
    obtain ⟨key, hkey⟩ := h r List.mem_cons_self
    obtain ⟨l', hrest, hmap, hsettled, hnames⟩ := ih (l := l.answer r key)
      fun r' hr' => h r' (List.mem_cons_of_mem r hr')
    exact ⟨l', yields_serveAll_cons (run_serve_of_known hkey) hrest, hmap,
      hsettled.trans (l.graph.settled_addEdge r.asker key), hnames⟩

/-- No needs are always met. -/
theorem checkNeeds_of_needs_eq_nil {g : ObjectGraph}
    (h : ∀ n ∈ g.settled, n.object.versions.needs.toList = []) :
    g.checkNeeds.result = .ok () := by
  have hneeds : g.needs = [] := by
    rw [ObjectGraph.needs, List.flatMap_eq_nil_iff]
    intro n hn
    have hn' := h n.settled (List.mem_map_of_mem hn)
    change n.object.versions.needs.toList = [] at hn'
    rw [hn', List.map_nil]
  rw [ObjectGraph.checkNeeds, hneeds]
  rfl

/-- **The second phase succeeds** if all requests of the executable are served and all needs met
in the end. -/
theorem yields_loadLibraries {l₁ : Loader} (hphase : l.phase = .initiated)
    (hserve : Stage.Yields (serveAll fs (l.graph.requestsOf (Key.ofNat 0))) l () l₁)
    (hneeds : l₁.graph.checkNeeds.result = .ok ()) :
    (loadLibraries fs).Yields l () { l₁ with
      program := { l₁.program with heapStart := heapStart l₁.map }, phase := .loaded } := by
  refine Stage.yields_bind_iff.2 ⟨(), l, yields_enter_iff.2 ⟨hphase, rfl⟩, ?_⟩
  refine Stage.yields_bind_iff.2 ⟨l, l, Stage.yields_state_iff.2 ⟨rfl, rfl⟩, ?_⟩
  refine Stage.yields_bind_iff.2 ⟨(), l₁, hserve, ?_⟩
  refine Stage.yields_bind_iff.2 ⟨l₁, l₁, Stage.yields_state_iff.2 ⟨rfl, rfl⟩, ?_⟩
  refine Stage.yields_bind_iff.2 ⟨(), l₁, Stage.yields_ofReport_iff.2 ⟨hneeds, rfl⟩, ?_⟩
  exact Stage.yields_update_iff.2 rfl

/-- The second phase succeeds if all names that the executable asks for are known, and no
object asks for versions. It does not matter what the other objects ask for. -/
theorem exists_loadLibraries_of_known (fs : FileSystem) (hphase : l.phase = .initiated)
    (hknown : ∀ r ∈ l.graph.requestsOf (Key.ofNat 0), ∃ key, l.graph.find? r.name = some key)
    (hversions : ∀ n ∈ l.graph.settled, n.object.versions.needs.toList = []) :
    ∃ l', (loadLibraries fs).Yields l () l' ∧ l'.phase = .loaded ∧ l'.map = l.map ∧
      l'.graph.settled = l.graph.settled ∧ l'.graph.names = l.graph.names := by
  obtain ⟨l₁, hserve, hmap, hsettled, hnames⟩ := exists_serveAll_of_known fs hknown
  have hneeds : l₁.graph.checkNeeds.result = .ok () :=
    checkNeeds_of_needs_eq_nil (hsettled ▸ hversions)
  exact ⟨_, yields_loadLibraries hphase hserve hneeds, rfl, hmap, hsettled, hnames⟩

/-! ### Executables that need no other object -/

/-- **Both phases succeed for an executable that needs nothing but itself**, if each check of the
first phase does. Nobody but the executable, the stack and the guard page gets any addresses. -/
theorem exists_phases_of_alone (config : Config) (processor : Processor) (memory : Memory)
    {map map' map'' : AddressMap} {address : UInt32} {found : Option (Option SymbolTable)}
    (hcheck : config.check = .ok ())
    (hopen : (Object.open fs path config.pageSize.toNat).result = .ok o)
    (hadmissible : (new config processor memory).admissible o = .ok ())
    (hstack : reserveStack config.stackSize (.free (min memory.size addressSpace)) = .ok map)
    (hguard : reserveGuard o config.pageSize map = .ok map')
    (hfound : (builtIn o).result = .ok found)
    (hr : { new config processor memory with map := map' }.reserveFor (Key.ofNat 0) o =
      .ok (address, map''))
    (hneeded : ∀ name ∈ o.needed, name = executableName path)
    (hversions : o.versions.needs.toList = []) :
    ∃ entry l l', (initiate fs path).Yields (new config processor memory) entry l ∧
      (loadLibraries fs).Yields l () l' ∧ l'.map = map'' := by
  obtain ⟨entry, l, hinitiate, hbegun⟩ := exists_begun config processor memory hcheck hopen
    hadmissible hstack hguard hfound hr
  have hn := hbegun.initiated
  obtain ⟨l', hload, -, hmap, -⟩ := exists_loadLibraries_of_known fs hn.phase_eq
    (by
      rw [hn.requestsOf_eq]
      intro r hr
      obtain ⟨name, hname, rfl⟩ := List.mem_map.1 hr
      obtain rfl := hneeded name hname
      exact ⟨_, hn.find?_eq⟩)
    (by
      intro m hm
      rw [ObjectGraph.settled, ObjectGraph.toList, hn.nodes_eq] at hm
      obtain rfl := List.mem_singleton.1 hm
      exact hversions)
  exact ⟨entry, l, l', hinitiate, hload, hmap.trans hbegun.map_eq⟩

end Loader

/-! ### An executable that needs itself -/

/-- A shared object of one segment that needs a library `a` and nothing else. The file has
a header, two program headers, four tags and their strings. -/
def selfNeeding : ByteArray := ⟨#[
  0x7f, 0x45, 0x4c, 0x46, 1, 1, 1, 0, 0, 0, 0, 0, 0, 0, 0, 0,
  3, 0, 40, 0, 1, 0, 0, 0, 0, 0, 0, 0, 52, 0, 0, 0, 0, 0, 0, 0, 0, 0, 0, 0,
  52, 0, 32, 0, 2, 0, 40, 0, 0, 0, 0, 0,
  1, 0, 0, 0, 0, 0, 0, 0, 0, 0, 0, 0, 0, 0, 0, 0,
  151, 0, 0, 0, 160, 0, 0, 0, 7, 0, 0, 0, 0, 16, 0, 0,
  2, 0, 0, 0, 116, 0, 0, 0, 116, 0, 0, 0, 0, 0, 0, 0,
  32, 0, 0, 0, 32, 0, 0, 0, 6, 0, 0, 0, 4, 0, 0, 0,
  1, 0, 0, 0, 1, 0, 0, 0, 5, 0, 0, 0, 148, 0, 0, 0,
  10, 0, 0, 0, 3, 0, 0, 0, 0, 0, 0, 0, 0, 0, 0, 0,
  0, 0x61, 0]⟩

/-- A file system in which the file `a` is an executable that needs itself. -/
def selfNeedingFiles : FileSystem := ⟨[(["a"], .file selfNeeding)], [], []⟩

/-- The object in the file. -/
def selfNeedingObject : Object :=
  (Object.open selfNeedingFiles "a" 4096).result.toOption.get (by decide +kernel)

namespace Loader

theorem open_selfNeeding :
    (Object.open selfNeedingFiles "a" 4096).result = .ok selfNeedingObject :=
  eq_ok_get _

/-- The executable needs nothing but itself, and no versions. -/
theorem selfNeedingObject_facts : (∀ name ∈ selfNeedingObject.needed, name = executableName "a") ∧
    selfNeedingObject.versions.needs.toList = [] := by
  decide +kernel

end Loader

end ElfLoader
