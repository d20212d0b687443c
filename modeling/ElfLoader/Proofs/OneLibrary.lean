import ElfLoader.Proofs.Succeeding

/-!
# Executables with one library

An executable that needs just one library, which needs nothing, is loaded if the checks of the
first phase succeed and the library can be placed as well
(`ElfLoader.Loader.Begun.exists_loadLibraries`). The program then consists of these two objects,
in this order. With the standard settings, objects of one page always find their places
(`ElfLoader.Loader.exists_phases_of_onePage`). So does the program of an executable that copies a
variable of its library (`ElfLoader.Loader.exists_phases_copy`).
-/

namespace ElfLoader

/-- **A library is all that an executable needs**: the file at a path is what the executable asks
for under a name, and no further names or versions come of it. -/
structure SoleLibrary (fs : FileSystem) (path : String) (o : Object) (name path' : String)
    (o' : Object) : Prop where
  /-- The executable needs the library. -/
  needed_eq : o.needed = [name]
  /-- The library needs nothing. -/
  needed_eq_nil : o'.needed = []
  /-- Nobody asks for versions. -/
  needs_eq_nil : ∀ object ∈ [o, o'], object.versions.needs.toList = []
  /-- The executable goes neither by the name of the library nor by the path of its file. -/
  other : ∀ other ∈ [name, fs.canonical path'], other ≠ Loader.executableName path ∧
    other ≠ fs.canonical o.path ∧ o.soname ≠ some other
  /-- The byte order of the library is that of the executable. -/
  order_eq : o'.file.order = o.file.order

namespace Loader

variable {fs : FileSystem} {path name path' : String} {config : Config} {processor : Processor}
  {memory : Memory} {o o' : Object} {address address' : UInt32} {map map' : AddressMap}
  {l : Loader}

/-- A library as it is placed behind the executable. -/
def libraryAt (name : String) (o : Object) (address : UInt32) : Node :=
  ⟨Key.ofNat 1, name, o, address - o.extent.start, []⟩

namespace Begun

variable (h : Begun fs config processor memory path o address map l)

include h

theorem size_eq : l.graph.size = 1 := by
  rw [ObjectGraph.size, h.initiated.nodes_eq]
  rfl

/-- A library for the same processor and in the same byte order is let in. -/
theorem admissible_of_sole (hsole : SoleLibrary fs path o name path' o')
    (hmachine : o'.header.machine = processor.machine) : l.admissible o' = .ok () := by
  have hroot : l.graph.root? = some (rootAt path o address) := by
    rw [ObjectGraph.root?, h.initiated.nodes_eq]
    rfl
  unfold admissible
  rw [h.processor_eq, hroot]
  exact bind_eq_ok_iff.2 ⟨(), (ensure_eq_ok_iff ..).2 hmachine,
    (ensure_eq_ok_iff ..).2 hsole.order_eq⟩

/-- **The library is placed** behind the executable when the executable asks for it. -/
theorem exists_serve (hsole : SoleLibrary fs path o name path' o')
    (hlocated : config.libraryPath.find? fs name = some path')
    (hopen : (Object.open fs path' config.pageSize.toNat).result = .ok o')
    (hmachine : o'.header.machine = processor.machine)
    (hr : l.reserveFor l.graph.nextKey o' = .ok (address', map')) :
    ∃ l₁ ns, (serve fs ⟨.ofNat 0, name⟩).run l = ⟨.ok [], l₁, ns⟩ ∧
      l₁.processor = processor ∧ l₁.order = o.file.order ∧ l₁.map = map' ∧
      l₁.graph.toList = [{ rootAt path o address with deps := [Key.ofNat 1] },
        libraryAt name o' address'] := by
  have horderly := h.initiated.orderly
  have hconfig := h.initiated.config_eq
  have hsize := h.size_eq
  obtain ⟨hname, hpath⟩ := List.forall_mem_cons.1 hsole.other
  obtain ⟨hpath, -⟩ := List.forall_mem_cons.1 hpath
  have hnew : l.graph.find? name = none := h.find?_eq_none name hname.1 hname.2.1 hname.2.2
  have hunknown : l.graph.find? (fs.canonical path') = none :=
    h.find?_eq_none _ hpath.1 hpath.2.1 hpath.2.2
  have hroom : l.graph.names.size < KeyTable.capacity := by
    rw [horderly.numbered.size_names, hsize]
    decide
  obtain ⟨m, l₁, ns, hserve, hplaced, -⟩ := exists_serve_of_new (r := ⟨.ofNat 0, name⟩)
    horderly.consistent horderly.numbered
    (Object.sound_of_open (pos_of_isPowerOfTwo h.initiated.pageSize) hopen) hnew
    (hconfig ▸ hlocated) hunknown (hconfig ▸ hopen) (h.admissible_of_sole hsole hmachine) hroom
    hr
  have hm : m = libraryAt name o' address' := by
    have hnode := hplaced.node_eq
    rw [(Prod.mk.inj (Except.ok.inj (hplaced.reserveFor_eq.symm.trans hr))).1, nodeAt,
      ObjectGraph.nextKey, hsize] at hnode
    exact hnode
  have hrequests : m.requests m.key = [] := by
    rw [hm, Node.requests]
    change o'.needed.map _ = []
    rw [hsole.needed_eq_nil, List.map_nil]
  have hstate := hplaced.state_eq
  refine ⟨l₁.answer ⟨.ofNat 0, name⟩ m.key, ns, hrequests ▸ hserve, ?_, ?_,
    hplaced.map_eq hr, ?_⟩
  · change l₁.processor = _
    rw [hstate]
    exact h.processor_eq
  · change l₁.order = _
    rw [hstate]
    exact h.order_eq
  · rw [answer, ObjectGraph.toList, ObjectGraph.addEdge, hplaced.nodes_eq, h.initiated.nodes_eq, hm]
    rfl

/-- **The executable is loaded with its library** if the library can be placed. -/
theorem exists_loadLibraries (hsole : SoleLibrary fs path o name path' o')
    (hlocated : config.libraryPath.find? fs name = some path')
    (hopen : (Object.open fs path' config.pageSize.toNat).result = .ok o')
    (hmachine : o'.header.machine = processor.machine)
    (hr : l.reserveFor l.graph.nextKey o' = .ok (address', map')) :
    ∃ l', (loadLibraries fs).Yields l () l' ∧ l'.phase = .loaded ∧ l'.processor = processor ∧
      l'.order = o.file.order ∧ l'.map = map' ∧
      l'.graph.toList = [{ rootAt path o address with deps := [Key.ofNat 1] },
        libraryAt name o' address'] := by
  obtain ⟨l₁, ns, hserve, hprocessor, horder, hmap, hlist⟩ :=
    h.exists_serve hsole hlocated hopen hmachine hr
  have hrequests : l.graph.requestsOf (Key.ofNat 0) = [⟨.ofNat 0, name⟩] := by
    rw [h.initiated.requestsOf_eq, Node.requests]
    change o.needed.map _ = _
    rw [hsole.needed_eq]
    rfl
  have hall : Stage.Yields (serveAll fs (l.graph.requestsOf (Key.ofNat 0))) l () l₁ := by
    rw [hrequests]
    exact yields_serveAll_cons hserve (serveAll_nil fs ▸ Stage.yields_pure_iff.2 ⟨rfl, rfl⟩)
  have hneeds : l₁.graph.checkNeeds.result = .ok () := by
    refine checkNeeds_of_needs_eq_nil fun n hn => ?_
    rw [ObjectGraph.settled, hlist] at hn
    refine hsole.needs_eq_nil n.object ?_
    rcases List.mem_cons.1 hn with rfl | hn
    · exact List.mem_cons_self
    · obtain rfl := List.mem_singleton.1 hn
      exact List.mem_cons_of_mem o List.mem_cons_self
  exact ⟨_, yields_loadLibraries h.initiated.phase_eq hall hneeds, rfl, hprocessor, horder, hmap,
    hlist⟩

end Begun

/-! ### Objects of one page -/

/-- **An object takes one page** and can be placed anywhere. -/
structure OnePage (o : Object) : Prop where
  /-- It can be placed anywhere. -/
  isShared : o.isShared = true
  /-- Its page is the first one. -/
  extent_eq : o.extent = ⟨0, 0x1000⟩

/-- Such an object goes to the first page that is free. -/
theorem OnePage.reserveFor_eq (h : OnePage o) (l : Loader) (key : Key) :
    l.reserveFor key o = l.map.reserveAnywhere 0x1000 l.config.pageSize (.object key) := by
  unfold reserveFor
  rw [if_pos h.isShared, h.extent_eq]

/-- The owners of addresses once an executable of one page has been placed. -/
def onePageMap : AddressMap := ⟨0x100000,
  [⟨0, 0x1000, .guard⟩, ⟨0x1000, 0x2000, .object (.ofNat 0)⟩, ⟨0xf0000, 0x100000, .stack⟩]⟩

/-- The owners of addresses once a library of one page has been placed, too. -/
def twoPageMap : AddressMap := ⟨0x100000,
  [⟨0, 0x1000, .guard⟩, ⟨0x1000, 0x2000, .object (.ofNat 0)⟩,
    ⟨0x2000, 0x3000, .object (.ofNat 1)⟩, ⟨0xf0000, 0x100000, .stack⟩]⟩

/-- **An executable of one page is placed** behind the guard page. -/
theorem exists_begun_of_onePage (processor : Processor) (memory : Memory)
    {found : Option (Option SymbolTable)} (hmemory : memory.size = 0x100000)
    (hopen : (Object.open fs path 4096).result = .ok o) (hpage : OnePage o)
    (hmachine : o.header.machine = processor.machine)
    (hfound : (builtIn o).result = .ok found) :
    ∃ entry l, (initiate fs path).Yields (new .standard processor memory) entry l ∧
      Begun fs .standard processor memory path o 0x1000 onePageMap l := by
  have hadmissible : (new .standard processor memory).admissible o = .ok () :=
    bind_eq_ok_iff.2 ⟨(), (ensure_eq_ok_iff ..).2 hmachine, rfl⟩
  have hstack : reserveStack Config.standard.stackSize (.free (min memory.size addressSpace)) =
      .ok ⟨0x100000, [⟨0xf0000, 0x100000, .stack⟩]⟩ := by
    rw [hmemory]
    decide +kernel
  have hguard : reserveGuard o Config.standard.pageSize
      ⟨0x100000, [⟨0xf0000, 0x100000, .stack⟩]⟩ =
        .ok ⟨0x100000, [⟨0, 0x1000, .guard⟩, ⟨0xf0000, 0x100000, .stack⟩]⟩ := by
    unfold reserveGuard
    rw [if_pos (by rw [hpage.isShared]; rfl)]
    decide +kernel
  refine exists_begun .standard processor memory rfl hopen hadmissible hstack hguard hfound ?_
  rw [hpage.reserveFor_eq]
  dsimp only [new]
  decide +kernel

/-- A library of one page has its place behind the executable. -/
theorem Begun.reserveFor_of_onePage
    (h : Begun fs .standard processor memory path o 0x1000 onePageMap l) (hpage : OnePage o') :
    l.reserveFor l.graph.nextKey o' = .ok (0x2000, twoPageMap) := by
  rw [hpage.reserveFor_eq, h.map_eq, h.initiated.config_eq, ObjectGraph.nextKey, h.size_eq]
  decide +kernel

/-- **A program of two pages is loaded**: the library is placed at the page behind the
executable. -/
theorem exists_phases_of_onePage (processor : Processor) (memory : Memory)
    (hmemory : memory.size = 0x100000)
    (hopen : (Object.open fs path 4096).result = .ok o)
    (hopen' : (Object.open fs path' 4096).result = .ok o') (hpage : OnePage o) (hpage' : OnePage o')
    (hmachine : o.header.machine = processor.machine)
    (hmachine' : o'.header.machine = processor.machine)
    (hsole : SoleLibrary fs path o name path' o')
    (hlocated : Config.standard.libraryPath.find? fs name = some path') :
    ∃ entry l l', (initiate fs path).Yields (new .standard processor memory) entry l ∧
      Begun fs .standard processor memory path o 0x1000 onePageMap l ∧
      (loadLibraries fs).Yields l () l' ∧ l'.phase = .loaded ∧ l'.processor = processor ∧
      l'.order = o.file.order ∧ l'.map = twoPageMap ∧
      l'.graph.toList = [{ rootAt path o 0x1000 with deps := [Key.ofNat 1] },
        libraryAt name o' 0x2000] := by
  have hfound : (builtIn o).result = .ok none := by
    unfold builtIn
    rw [hsole.needed_eq]
    rfl
  obtain ⟨entry, l, hinitiate, hbegun⟩ :=
    exists_begun_of_onePage processor memory hmemory hopen hpage hmachine hfound
  obtain ⟨l', hload, hloaded⟩ := hbegun.exists_loadLibraries hsole hlocated hopen' hmachine'
    (hbegun.reserveFor_of_onePage hpage')
  exact ⟨entry, l, l', hinitiate, hbegun, hload, hloaded⟩

end Loader

/-! ### A program of two objects -/

/-- An executable that needs a library `d/b` and copies the variable `v` of the library. It has set
aside 4 bytes for the variable, and has 4 bytes with all bits set behind them. The file has a
header, two program headers, eight tags and their strings, two symbols, a hash table, a relocation
and these bytes. -/
def copyingFile : ByteArray := ⟨#[
  0x7f, 0x45, 0x4c, 0x46, 1, 1, 1, 0, 0, 0, 0, 0, 0, 0, 0, 0,
  3, 0, 40, 0, 1, 0, 0, 0, 0, 0, 0, 0, 52, 0, 0, 0, 0, 0, 0, 0, 0, 0, 0, 0,
  52, 0, 32, 0, 2, 0, 40, 0, 0, 0, 0, 0,
  1, 0, 0, 0, 0, 0, 0, 0, 0, 0, 0, 0, 0, 0, 0, 0,
  248, 0, 0, 0, 248, 0, 0, 0, 7, 0, 0, 0, 0, 16, 0, 0,
  2, 0, 0, 0, 116, 0, 0, 0, 116, 0, 0, 0, 0, 0, 0, 0,
  64, 0, 0, 0, 64, 0, 0, 0, 6, 0, 0, 0, 4, 0, 0, 0,
  1, 0, 0, 0, 1, 0, 0, 0, 5, 0, 0, 0, 180, 0, 0, 0,
  10, 0, 0, 0, 7, 0, 0, 0, 6, 0, 0, 0, 188, 0, 0, 0,
  4, 0, 0, 0, 220, 0, 0, 0, 7, 0, 0, 0, 228, 0, 0, 0,
  8, 0, 0, 0, 12, 0, 0, 0, 0, 0, 0, 0, 0, 0, 0, 0,
  0, 0x64, 0x2f, 0x62, 0, 0x76, 0, 0,
  0, 0, 0, 0, 0, 0, 0, 0, 0, 0, 0, 0, 0, 0, 0, 0,
  5, 0, 0, 0, 240, 0, 0, 0, 4, 0, 0, 0, 17, 0, 1, 0,
  1, 0, 0, 0, 2, 0, 0, 0,
  240, 0, 0, 0, 20, 1, 0, 0, 0, 0, 0, 0,
  0, 0, 0, 0, 0xff, 0xff, 0xff, 0xff]⟩

/-- A library with a variable `v` of 8 bytes: an address that is relocated, and four letters. The
file has a header, two program headers, seven tags and their strings, two symbols, a hash table, a
relocation and the variable. -/
def copiedFile : ByteArray := ⟨#[
  0x7f, 0x45, 0x4c, 0x46, 1, 1, 1, 0, 0, 0, 0, 0, 0, 0, 0, 0,
  3, 0, 40, 0, 1, 0, 0, 0, 0, 0, 0, 0, 52, 0, 0, 0, 0, 0, 0, 0, 0, 0, 0, 0,
  52, 0, 32, 0, 2, 0, 40, 0, 0, 0, 0, 0,
  1, 0, 0, 0, 0, 0, 0, 0, 0, 0, 0, 0, 0, 0, 0, 0,
  236, 0, 0, 0, 236, 0, 0, 0, 7, 0, 0, 0, 0, 16, 0, 0,
  2, 0, 0, 0, 116, 0, 0, 0, 116, 0, 0, 0, 0, 0, 0, 0,
  56, 0, 0, 0, 56, 0, 0, 0, 6, 0, 0, 0, 4, 0, 0, 0,
  5, 0, 0, 0, 172, 0, 0, 0, 10, 0, 0, 0, 3, 0, 0, 0,
  6, 0, 0, 0, 176, 0, 0, 0, 4, 0, 0, 0, 208, 0, 0, 0,
  7, 0, 0, 0, 216, 0, 0, 0, 8, 0, 0, 0, 12, 0, 0, 0,
  0, 0, 0, 0, 0, 0, 0, 0,
  0, 0x76, 0, 0,
  0, 0, 0, 0, 0, 0, 0, 0, 0, 0, 0, 0, 0, 0, 0, 0,
  1, 0, 0, 0, 228, 0, 0, 0, 8, 0, 0, 0, 17, 0, 1, 0,
  1, 0, 0, 0, 2, 0, 0, 0,
  228, 0, 0, 0, 23, 0, 0, 0, 232, 0, 0, 0,
  0, 0, 0, 0, 0x63, 0x6f, 0x70, 0x79]⟩

/-- A file system with both files. -/
def copyFiles : FileSystem :=
  ⟨[(["a"], .file copyingFile), (["d"], .directory), (["d", "b"], .file copiedFile)], [], []⟩

/-- The executable. -/
def copyExecutable : Object :=
  (Object.open copyFiles "a" 4096).result.toOption.get (by decide +kernel)

/-- The library. -/
def copyLibrary : Object :=
  (Object.open copyFiles "d/b" 4096).result.toOption.get (by decide +kernel)

/-- The executable at the first page behind the guard page. -/
def copyRoot : Node := { Loader.rootAt "a" copyExecutable 0x1000 with deps := [Key.ofNat 1] }

/-- The library at the page behind that. -/
def copyNode : Node := Loader.libraryAt "d/b" copyLibrary 0x2000

theorem open_copyExecutable : (Object.open copyFiles "a" 4096).result = .ok copyExecutable :=
  eq_ok_get _

theorem open_copyLibrary : (Object.open copyFiles "d/b" 4096).result = .ok copyLibrary :=
  eq_ok_get _

theorem copyExecutable_facts : (copyExecutable.isShared = true ∧
      copyExecutable.extent = ⟨0, 0x1000⟩ ∧ copyExecutable.header.machine = Machine.arm ∧
      copyExecutable.file.order = .little) ∧
    (copyExecutable.needed = ["d/b"] ∧ copyExecutable.versions.needs.toList = [] ∧
      copyFiles.canonical copyExecutable.path = "/a" ∧ copyExecutable.soname = none) := by
  decide +kernel

theorem copyLibrary_facts : (copyLibrary.isShared = true ∧ copyLibrary.extent = ⟨0, 0x1000⟩ ∧
      copyLibrary.header.machine = Machine.arm ∧ copyLibrary.file.order = .little) ∧
    (copyLibrary.needed = [] ∧ copyLibrary.versions.needs.toList = []) := by
  decide +kernel

/-- The executable needs nothing but the library. -/
theorem soleLibrary_copy :
    SoleLibrary copyFiles "a" copyExecutable "d/b" "d/b" copyLibrary := by
  obtain ⟨⟨-, -, -, horder⟩, hneeded, hversions, hpath, hsoname⟩ := copyExecutable_facts
  obtain ⟨⟨-, -, -, horder'⟩, hneeded', hversions'⟩ := copyLibrary_facts
  refine ⟨hneeded, hneeded', ?_, ?_, horder'.trans horder.symm⟩
  · rw [List.forall_mem_cons, List.forall_mem_singleton]
    exact ⟨hversions, hversions'⟩
  · rw [hpath, hsoname]
    decide +kernel

theorem onePage_copyLibrary : Loader.OnePage copyLibrary := by
  obtain ⟨⟨hshared, hextent, -⟩, -⟩ := copyLibrary_facts
  exact ⟨hshared, hextent⟩

/-- Where the objects lie. -/
theorem ranges_copy : copyRoot.range = ⟨0x1000, 0x1000⟩ ∧ copyNode.range = ⟨0x2000, 0x1000⟩ := by
  decide +kernel

/-- A memory of which two bytes are in use: the last one of the library's page, and the one behind
it. -/
def litteredMemory : Memory := ((Memory.zeroed 0x100000).set 0x2fff 7).set 0x3000 9

theorem size_litteredMemory : litteredMemory.size = 0x100000 := by
  rw [litteredMemory, Memory.size_set, Memory.size_set]
  rfl

theorem byteAt_litteredMemory :
    litteredMemory.byteAt 0x2fff = 7 ∧ litteredMemory.byteAt 0x3000 = 9 := by
  simp [litteredMemory, Memory.byteAt_set]

/-- **The program is loaded** for every processor that is an ARM, whatever its relocations mean,
and whatever memory holds at first. -/
theorem Loader.exists_phases_copy (processor : Processor) (memory : Memory)
    (hprocessor : processor.machine = Machine.arm) (hmemory : memory.size = 0x100000) :
    ∃ entry l l', (initiate copyFiles "a").Yields (new .standard processor memory) entry l ∧
      Begun copyFiles .standard processor memory "a" copyExecutable 0x1000 onePageMap l ∧
      (loadLibraries copyFiles).Yields l () l' ∧ l'.phase = .loaded ∧ l'.processor = processor ∧
      l'.order = .little ∧ l'.map = twoPageMap ∧ l'.graph.toList = [copyRoot, copyNode] := by
  obtain ⟨⟨hshared, hextent, hmachine, horder⟩, -⟩ := copyExecutable_facts
  obtain ⟨⟨-, -, hmachine', -⟩, -⟩ := copyLibrary_facts
  rw [← horder]
  exact exists_phases_of_onePage processor memory hmemory open_copyExecutable open_copyLibrary
    ⟨hshared, hextent⟩ onePage_copyLibrary (hmachine.trans hprocessor.symm)
    (hmachine'.trans hprocessor.symm) soleLibrary_copy (by decide +kernel)

end ElfLoader
