import ElfLoader.Proofs.Closure
import ElfLoader.Proofs.LinkSteps

/-!
# One object for every file

Names, the names that objects give themselves and the paths of files share one table, in which
the first meaning of a name wins. All the same objects and files correspond one to one, whatever
phases of a loader are called and whichever of them fail
(`ElfLoader.Loader.register_of_reached`): every object is found by its name and by its file
(`ElfLoader.ObjectGraph.Records`), so no file is loaded twice.

What makes it so is that an object joins the graph only at points where neither its name nor its
file is known (`ElfLoader.Loader.Joins`). There are two of them, one in each of the first two
phases (`ElfLoader.Loader.Enrolls`).
-/

namespace ElfLoader

/-! ### Graphs as registers -/

namespace ObjectGraph

variable {fs : FileSystem} {machine : UInt16} {order : ByteOrder} {g g' : ObjectGraph}
  {n : Node} {key : Key}

/-- **An object is on record**: its name and its file lead to it, it needs none but objects of the
graph, and it is for the given machine. -/
structure Records (fs : FileSystem) (machine : UInt16) (order : ByteOrder) (g : ObjectGraph)
    (n : Node) : Prop where
  /-- Its name leads to it. -/
  named : g.find? n.name = some n.key
  /-- So does the path of its file. -/
  filed : g.find? (fs.canonical n.object.path) = some n.key
  /-- It needs objects of the graph. -/
  linked : ∀ dep ∈ n.deps, dep.toNat < g.size
  /-- It is for the machine. -/
  machine_eq : n.object.header.machine = machine
  /-- It has the byte order. -/
  order_eq : n.object.file.order = order

/-- An object stays on record while the graph grows. -/
theorem Records.mono (h : g.Records fs machine order n) (hkeeps : g.Keeps g')
    (hsize : g.size ≤ g'.size) : g'.Records fs machine order n where
  named := hkeeps _ _ h.named
  filed := hkeeps _ _ h.filed
  linked dep hdep := (h.linked dep hdep).trans_le hsize
  machine_eq := h.machine_eq
  order_eq := h.order_eq

/-- **A graph is a register**: it is numbered, and all of its objects are on record. -/
structure Registers (fs : FileSystem) (machine : UInt16) (order : ByteOrder) (g : ObjectGraph) :
    Prop where
  /-- Keys are positions. -/
  numbered : g.Numbered
  /-- All objects are on record. -/
  records : ∀ (i : Nat) (n : Node), g.nodes[i]? = some n → g.Records fs machine order n

theorem registers_empty (fs : FileSystem) (machine : UInt16) (order : ByteOrder) :
    empty.Registers fs machine order where
  numbered := numbered_empty
  records i n h := by simp [empty] at h

theorem Registers.insertAlias (h : g.Registers fs machine order) (name : String)
    (hkey : key.toNat < g.size) : (g.insertAlias name key).2.Registers fs machine order where
  numbered := h.numbered.insertAlias name hkey
  records i n hn := (h.records i n hn).mono (g.keeps_insertAlias name key) le_rfl

theorem mem_withDep_iff {deps : List Key} {dep other : Key} :
    other ∈ withDep deps dep ↔ other ∈ deps ∨ other = dep := by
  unfold withDep
  split
  · next hdep =>
    constructor
    · exact .inl
    · rintro (h | rfl)
      · exact h
      · exact hdep
  · rw [List.mem_append, List.mem_singleton]

theorem Registers.addEdge (h : g.Registers fs machine order) (user : Key) {dep : Key}
    (hdep : dep.toNat < g.size) : (g.addEdge user dep).Registers fs machine order where
  numbered := h.numbered.addEdge user dep
  records i n hn := by
    rw [getElem?_addEdge] at hn
    obtain ⟨n₀, hn₀, rfl⟩ := Option.map_eq_some_iff.1 hn
    have hrecords := h.records i n₀ hn₀
    split
    · refine ⟨hrecords.named, hrecords.filed, ?_, hrecords.machine_eq, hrecords.order_eq⟩
      intro other hother
      rw [size_addEdge]
      rcases mem_withDep_iff.1 hother with hother | rfl
      · exact hrecords.linked other hother
      · exact hdep
    · exact hrecords.mono (fun _ _ => id) (g.size_addEdge user dep).ge

/-- The path that an object gets as a name leads to it, unless it leads elsewhere already. -/
theorem find?_withNames_path (g : ObjectGraph) (key : Key) (path : String)
    (soname : Option String) :
    (Loader.withNames g key path soname).find? path = some ((g.find? path).getD key) := by
  have hpath : (g.insertAlias path key).2.find? path = some ((g.find? path).getD key) := by
    rw [find?_insertAlias, if_pos rfl]
    cases g.find? path <;> rfl
  cases soname with
  | none => exact hpath
  | some name => exact keeps_insertAlias _ name key _ _ hpath

/-- **A register stays a register** when an object joins it whose name and file are not known. -/
theorem Registers.join (h : g.Registers fs machine order) (hkey : n.key = g.nextKey)
    (new : g.find? n.name = none) (unknown : g.find? (fs.canonical n.object.path) = none)
    (hdeps : n.deps = []) (hmachine : n.object.header.machine = machine)
    (horder : n.object.file.order = order) (hinsert : g.insert n = .ok (key, g')) :
    key = n.key ∧ key.toNat < g'.size ∧
      (Loader.withNames g' key (fs.canonical n.object.path) n.object.soname).Registers
        fs machine order := by
  obtain ⟨hk, hnumbered⟩ := h.numbered.insert new hkey hinsert
  obtain ⟨-, -, -, hnodes, hfind⟩ := insert_eq_ok new hinsert
  have hk' : key = n.key := hk.trans hkey.symm
  have hname : g'.find? n.name = some key := by rw [hfind, if_pos rfl]
  have hlt : key.toNat < g'.size := hnumbered.known _ _ hname
  have hkeeps := g'.keeps_withNames key (fs.canonical n.object.path) n.object.soname
  have hsize : g.size ≤ g'.size := by
    rw [size, size, hnodes, Array.size_push]
    exact Nat.le_succ _
  refine ⟨hk', hlt, hnumbered.withNames _ _ hlt, ?_⟩
  intro i m hm
  rw [nodes_withNames, hnodes, Array.getElem?_push] at hm
  split at hm
  · obtain rfl := Option.some.inj hm
    refine ⟨hk' ▸ hkeeps _ _ hname, ?_,
      fun dep hdep => absurd (hdeps ▸ hdep) List.not_mem_nil, hmachine, horder⟩
    -- the path was not known, so it leads to the object as a name or as an alias
    rw [find?_withNames_path, hfind]
    split
    · rw [Option.getD_some, hk']
    · rw [unknown, Option.getD_none, hk']
  · refine (h.records i m hm).mono ((keeps_insert new hinsert).trans hkeeps) ?_
    exact hsize.trans (congrArg Array.size (nodes_withNames g' _ _ _)).ge

/-- The key of an object of a register is its position. -/
theorem Numbered.toNat_key (h : g.Numbered) {i : Nat} (hn : g.nodes[i]? = some n) :
    n.key.toNat = i := by
  obtain ⟨hi, -⟩ := Array.getElem?_eq_some_iff.1 hn
  rw [h.key_eq i n hn]
  exact Key.toNat_ofNat (hi.trans_le h.size_le).le

/-- **Objects of one file are one object.** -/
theorem Registers.eq_of_canonical (h : g.Registers fs machine order) {i j : Nat} {m : Node}
    (hm : g.nodes[i]? = some m) (hn : g.nodes[j]? = some n)
    (heq : fs.canonical m.object.path = fs.canonical n.object.path) : i = j := by
  have hfiled := (h.records i m hm).filed
  rw [heq, (h.records j n hn).filed] at hfiled
  rw [← h.numbered.toNat_key hm, ← h.numbered.toNat_key hn, Option.some.inj hfiled]

end ObjectGraph

/-! ### What is known of an object that has been opened -/

theorem ObjectFile.path_of_identify {path : String} {bytes : ByteArray} {f : ObjectFile}
    (h : identify path bytes = .ok f) : f.path = path := by
  unfold identify at h
  obtain ⟨_, -, h⟩ := bind_eq_ok_iff.1 h
  obtain ⟨_, -, h⟩ := bind_eq_ok_iff.1 h
  obtain ⟨_, -, h⟩ := bind_eq_ok_iff.1 h
  dsimp only at h
  split at h
  · cases h
  · obtain ⟨_, -, h⟩ := bind_eq_ok_iff.1 h
    obtain ⟨_, -, h⟩ := bind_eq_ok_iff.1 h
    obtain ⟨_, -, h⟩ := bind_eq_ok_iff.1 h
    obtain ⟨_, -, h⟩ := bind_eq_ok_iff.1 h
    cases h
    rfl

theorem Object.path_of_open {fs : FileSystem} {path : String} {pageSize : Nat} {o : Object}
    (h : (Object.open fs path pageSize).result = .ok o) : o.path = path := by
  obtain ⟨f, hf, h⟩ := Report.result_bind_eq_ok_iff.1 h
  obtain ⟨rfl, -⟩ := loadsOf_of_ofFile h
  change ObjectFile.open fs path = .ok o.file at hf
  unfold ObjectFile.open at hf
  split at hf
  · exact ObjectFile.path_of_identify hf
  · cases hf
  · cases hf

namespace Loader

variable {fs : FileSystem} {path name : String} {config : Config} {processor : Processor}
  {memory : Memory} {l l' k : Loader} {n : Node} {o : Object} {r : Request}
  {todo rest : List Request}

/-- An object that is let in is for the processor, and of the byte order of the executable if
there is one. -/
theorem admissible_eq_ok_iff : l.admissible o = .ok () ↔
    o.header.machine = l.processor.machine ∧
      ∀ root, l.graph.root? = some root → o.file.order = root.object.file.order := by
  unfold admissible
  cases l.graph.root? with
  | none => simp [bind_eq_ok_iff, pure, Except.pure]
  | some root => simp [bind_eq_ok_iff]

/-! ### Loaders -/

/-- **A loader keeps its register**: its graph is a register for its processor and its byte
order, which is empty until the executable joins it. -/
structure Registered (fs : FileSystem) (l : Loader) : Prop where
  /-- The graph is a register. -/
  registers : l.graph.Registers fs l.processor.machine l.order
  /-- Nothing is loaded before the first phase is over. -/
  fresh : l.phase = .created → l.graph = .empty
  /-- Then the executable is there. -/
  started : l.phase ≠ .created → 0 < l.graph.size

theorem registered_new (fs : FileSystem) (config : Config) (processor : Processor)
    (memory : Memory) : Registered fs (new config processor memory) where
  registers := ObjectGraph.registers_empty fs _ _
  fresh _ := rfl
  started h := absurd rfl h

/-- Memory, owners and the information that starts a program do not matter. -/
theorem Registered.congr (h : Registered fs l) (hgraph : l'.graph = l.graph)
    (hprocessor : l'.processor = l.processor) (horder : l'.order = l.order)
    (hphase : l'.phase = .created ↔ l.phase = .created) : Registered fs l' where
  registers := by rw [hgraph, hprocessor, horder]; exact h.registers
  fresh h' := hgraph.trans (h.fresh (hphase.1 h'))
  started h' := by rw [hgraph]; exact h.started (mt hphase.2 h')

/-- All objects are of the byte order of the executable. -/
theorem Registered.order_of_admissible (h : Registered fs l) (hphase : l.phase ≠ .created)
    (ho : l.admissible o = .ok ()) : o.file.order = l.order := by
  have hsize := h.started hphase
  have hroot : l.graph.root? = some l.graph.nodes[0] := Array.getElem?_eq_getElem hsize
  rw [(admissible_eq_ok_iff.1 ho).2 _ hroot]
  exact (h.registers.records 0 _ hroot).order_eq

/-! ### Steps that keep the register -/

/-- **Work sustains a loader**: the graph stays, and so does all that its objects have to suit. -/
structure Sustains (l l' : Loader) : Prop extends l.Spares l' where
  /-- The processor stays. -/
  processor_eq : l'.processor = l.processor
  /-- The byte order stays. -/
  order_eq : l'.order = l.order

theorem Sustains.refl (l : Loader) : l.Sustains l := ⟨.refl l, rfl, rfl⟩

theorem Sustains.registered (h : l.Sustains l') (hl : Registered fs l) : Registered fs l' :=
  hl.congr h.graph_eq h.processor_eq h.order_eq (by rw [h.phase_eq])

theorem preserves_sustains_claim (f : AddressMap → Except LoadError AddressMap) :
    (claim f).Preserves l.Sustains := by
  refine Stage.preserves_attempt ?_
  intro k k' hk h
  obtain ⟨map, -, h⟩ := bind_eq_ok_iff.1 h
  cases h
  exact ⟨⟨hk.graph_eq, hk.phase_eq⟩, hk.processor_eq, hk.order_eq⟩

theorem preserves_sustains_noteLibrary (name : String) (o : Object) :
    (noteLibrary name o).Preserves l.Sustains := by
  refine (Stage.preserves_ofReport _).bind ?_
  rintro (_ | symbols)
  · exact Stage.preserves_pure ()
  · refine (preserves_report _).bind ?_
    rintro _ k hk
    exact Stage.ensures_update ⟨⟨hk.graph_eq, hk.phase_eq⟩, hk.processor_eq, hk.order_eq⟩

theorem ensures_sustains_settle (l : Loader) (name : String) (o : Object) :
    (settle name o).Ensures l (fun n l' => (∃ address, n = l.nodeAt name o address) ∧
      l.Sustains l') l.Sustains where
  ok n l' h := by
    obtain ⟨address, map, memory, -, rfl, rfl⟩ := of_settle h
    exact ⟨⟨address, rfl⟩, ⟨rfl, rfl⟩, rfl, rfl⟩
  error e _ := by
    unfold settle Stage.run
    dsimp only
    split
    · exact .refl l
    · split <;> exact ⟨⟨rfl, rfl⟩, rfl, rfl⟩

/-! ### Objects that join -/

/-- **An object is about to join** the graph of a loader: neither its name nor its file is known
there, and it suits the loader. -/
structure Joins (fs : FileSystem) (n : Node) (l : Loader) : Prop where
  /-- The loader keeps its register. -/
  registered : Registered fs l
  /-- The name of the object is new. -/
  new : l.graph.find? n.name = none
  /-- So is its file. -/
  unknown : l.graph.find? (fs.canonical n.object.path) = none
  /-- The object is the next one. -/
  key_eq : n.key = l.graph.nextKey
  /-- It is not known yet what it needs. -/
  deps_eq : n.deps = []
  /-- It is for the processor. -/
  machine_eq : n.object.header.machine = l.processor.machine
  /-- It has the byte order. -/
  order_eq : n.object.file.order = l.order

/-- **Joining goes as expected**: the name is new, and the key that the object gets is the one
that it has. -/
theorem Joins.asserted (h : Joins fs n l) : l.graph.find? n.name = none ∧
    ∀ key g, l.graph.insert n = .ok (key, g) → n.key = key := by
  refine ⟨h.new, ?_⟩
  intro key g hinsert
  rw [(h.registered.registers.numbered.insert h.new h.key_eq hinsert).1]
  exact h.key_eq

/-- **An object joins the register.** If there is no key left for it, nothing happens. -/
theorem ensures_enroll_of_joins (h : Joins fs n l) : (enroll fs n).Ensures l
    (fun key l' => l'.phase = l.phase ∧ key.toNat < l'.graph.size ∧
      l'.graph.Registers fs l'.processor.machine l'.order) (· = l) where
  ok key l' henroll := by
    obtain ⟨g, hinsert, rfl⟩ := yields_enroll_iff.1 henroll
    obtain ⟨-, hlt, hregisters⟩ := h.registered.registers.join h.key_eq h.new h.unknown
      h.deps_eq h.machine_eq h.order_eq hinsert
    have hsize : g.size = (withNames g key (fs.canonical n.object.path) n.object.soname).size :=
      congrArg Array.size (ObjectGraph.nodes_withNames ..).symm
    exact ⟨rfl, hlt.trans_eq hsize, hregisters⟩
  error e he := by
    unfold enroll Stage.run at he ⊢
    dsimp only at he ⊢
    split
    · rfl
    · next hinsert => simp [hinsert] at he

/-- An object that is settled can join, if nothing is known of it and it suits the loader. -/
theorem ensures_settle_joins (h : Registered fs l) (new : l.graph.find? name = none)
    (unknown : l.graph.find? (fs.canonical o.path) = none)
    (hmachine : o.header.machine = l.processor.machine) (horder : o.file.order = l.order) :
    (settle name o).Ensures l (fun n l' => n.name = name ∧ l'.phase = l.phase ∧ Joins fs n l')
      (fun l' => l'.phase = l.phase ∧ Registered fs l') := by
  refine (ensures_sustains_settle l name o).mono ?_ fun l' hl' => ⟨hl'.phase_eq, hl'.registered h⟩
  rintro _ l' ⟨⟨address, rfl⟩, hl'⟩
  refine ⟨rfl, hl'.phase_eq, hl'.registered h, ?_, ?_, ?_, rfl, ?_, ?_⟩
  · rw [hl'.graph_eq]
    exact new
  · rw [hl'.graph_eq]
    exact unknown
  · rw [hl'.graph_eq]
    rfl
  · rw [hl'.processor_eq]
    exact hmachine
  · rw [hl'.order_eq]
    exact horder

/-! ### Where objects join -/

/-- What the first phase does until the executable joins the graph. -/
def prepare (fs : FileSystem) (path : String) : Work Node := do
  enter .created "initiate"
  let l ← Stage.state
  Stage.ofExcept l.config.check
  let name := executableName path
  let o ← Stage.ofReport (Object.open fs path l.config.pageSize.toNat)
  Stage.ofExcept (l.admissible o)
  Stage.update fun l => { l with order := o.file.order }
  claim (reserveStack l.config.stackSize)
  claim (reserveGuard o l.config.pageSize)
  noteLibrary name o
  noteInterpreter o
  settle name o

/-- What bringing a file does until its object joins the graph. -/
def fetch (fs : FileSystem) (name path : String) : Work Node := do
  let l ← Stage.state
  let o ← Stage.ofReport (Object.open fs path l.config.pageSize.toNat)
  Stage.ofExcept (l.admissible o)
  settle name o

/-- The executable joins the graph in the first phase. -/
theorem initiate_eq (fs : FileSystem) (path : String) : initiate fs path = do
    let key ← enroll fs (← prepare fs path)
    Stage.update fun l =>
      { l with program := { l.program with entry := entryOf l.graph key }, phase := .initiated }
    return (← Stage.state).program.entry := by
  simp only [initiate, prepare, place, Stage.bind_assoc]

/-- A library joins the graph when its file is brought. -/
theorem bring_eq (fs : FileSystem) (name path : String) :
    bring fs name path = fetch fs name path >>= enroll fs := by
  simp only [bring, fetch, place, Stage.bind_assoc]

/-- **The first phase goes on until the executable can join**, or the register is kept. -/
theorem ensures_prepare (h : Registered fs l) (path : String) : (prepare fs path).Ensures l
    (fun n l' => l'.phase = .created ∧ Joins fs n l') (Registered fs) := by
  refine Stage.ensures_bind (ensures_enter h _ _) ?_
  rintro _ l ⟨rfl, hphase⟩
  refine Stage.ensures_bind (Stage.ensures_state (Q := fun k l' => l = k ∧ l = l') ⟨rfl, rfl⟩) ?_
  rintro _ _ ⟨rfl, rfl⟩
  refine Stage.ensures_bind (Stage.ensures_ofExcept (Q := fun _ => (l = ·)) (fun _ _ => rfl) h) ?_
  rintro _ _ rfl
  refine Stage.ensures_bind (Stage.ensures_ofReport
    (Q := fun o l' => (Object.open fs path l.config.pageSize.toNat).result = .ok o ∧ l = l')
    (fun _ ho => ⟨ho, rfl⟩) h) ?_
  rintro o _ ⟨hopen, rfl⟩
  refine Stage.ensures_bind (Stage.ensures_ofExcept
    (Q := fun _ l' => l.admissible o = .ok () ∧ l = l') (fun _ ho => ⟨ho, rfl⟩) h) ?_
  rintro _ _ ⟨hadmissible, rfl⟩
  obtain ⟨hmachine, -⟩ := admissible_eq_ok_iff.1 hadmissible
  have hempty := h.fresh hphase
  -- there is no object yet that the byte order would have to suit
  have h₁ : Registered fs { l with order := o.file.order } :=
    ⟨hempty ▸ ObjectGraph.registers_empty fs _ _, h.fresh, h.started⟩
  refine Stage.ensures_bind (R := fun _ => ({ l with order := o.file.order } : Loader).Sustains)
    (Stage.ensures_update (.refl _)) ?_
  intro _ l₁ hl₁
  have herror : ∀ l', ({ l with order := o.file.order } : Loader).Sustains l' →
    Registered fs l' := fun _ hl' => hl'.registered h₁
  refine Stage.ensures_bind ((preserves_sustains_claim _ l₁ hl₁).mono (fun _ _ => id) herror) ?_
  intro _ l₂ hl₂
  refine Stage.ensures_bind ((preserves_sustains_claim _ l₂ hl₂).mono (fun _ _ => id) herror) ?_
  intro _ l₃ hl₃
  refine Stage.ensures_bind
    ((preserves_sustains_noteLibrary _ o l₃ hl₃).mono (fun _ _ => id) herror) ?_
  intro _ l₄ hl₄
  refine Stage.ensures_bind ((preserves_noteInterpreter o l₄ hl₄).mono (fun _ _ => id) herror) ?_
  intro _ l₅ hl₅
  have hgraph : l₅.graph = .empty := hl₅.graph_eq.trans hempty
  refine (ensures_settle_joins (hl₅.registered h₁) ?_ ?_ ?_ hl₅.order_eq.symm).mono
    ?_ fun _ => And.right
  · rw [hgraph, ObjectGraph.find?_empty]
  · rw [hgraph, ObjectGraph.find?_empty]
  · rw [hl₅.processor_eq]
    exact hmachine
  · rintro n l' ⟨-, hphase', hjoins⟩
    exact ⟨hphase'.trans (hl₅.phase_eq.trans hphase), hjoins⟩

/-- **A file is fetched until its object can join**, if neither its name nor its path is known. -/
theorem ensures_fetch (h : Registered fs l) (hphase : l.phase ≠ .created)
    (new : l.graph.find? name = none) (unknown : l.graph.find? (fs.canonical path) = none) :
    (fetch fs name path).Ensures l
      (fun n l' => n.name = name ∧ l'.phase = l.phase ∧ Joins fs n l')
      (fun l' => l'.phase = l.phase ∧ Registered fs l') := by
  refine Stage.ensures_bind (Stage.ensures_state (Q := fun k l' => l = k ∧ l = l') ⟨rfl, rfl⟩) ?_
  rintro _ _ ⟨rfl, rfl⟩
  refine Stage.ensures_bind (Stage.ensures_ofReport
    (Q := fun o l' => (Object.open fs path l.config.pageSize.toNat).result = .ok o ∧ l = l')
    (fun _ ho => ⟨ho, rfl⟩) ⟨rfl, h⟩) ?_
  rintro o _ ⟨hopen, rfl⟩
  refine Stage.ensures_bind (Stage.ensures_ofExcept
    (Q := fun _ l' => l.admissible o = .ok () ∧ l = l') (fun _ ho => ⟨ho, rfl⟩) ⟨rfl, h⟩) ?_
  rintro _ _ ⟨hadmissible, rfl⟩
  refine ensures_settle_joins h new ?_ (admissible_eq_ok_iff.1 hadmissible).1
    (h.order_of_admissible hphase hadmissible)
  rw [Object.path_of_open hopen]
  exact unknown

/-! ### Phases -/

/-- The first phase keeps the register. -/
theorem preserves_initiate (fs : FileSystem) (path : String) :
    (initiate fs path).Preserves (Registered fs) := by
  intro l h
  rw [initiate_eq]
  refine Stage.ensures_bind (ensures_prepare h path) ?_
  rintro n l₁ ⟨hphase, hjoins⟩
  refine Stage.ensures_bind ((ensures_enroll_of_joins hjoins).mono (fun _ _ => id) ?_) ?_
  · rintro _ rfl
    exact hjoins.registered
  rintro key l₂ ⟨-, hlt, hregisters⟩
  -- the phase is over, and the executable is there
  refine Stage.ensures_bind (R := fun _ => Registered fs) (Stage.ensures_update
    ⟨hregisters, nofun, fun _ => (Nat.zero_le _).trans_lt hlt⟩) ?_
  intro _ l₃ h₃
  exact (Stage.preserves_state.bind fun _ => Stage.preserves_pure _) l₃ h₃

/-- A library that is brought under a new name is registered. -/
theorem ensures_registered_bring (h : Registered fs l) (hphase : l.phase ≠ .created)
    (new : l.graph.find? name = none) (unknown : l.graph.find? (fs.canonical path) = none) :
    (bring fs name path).Ensures l
      (fun key l' => key.toNat < l'.graph.size ∧ l'.phase = l.phase ∧ Registered fs l')
      (fun l' => l'.phase = l.phase ∧ Registered fs l') := by
  rw [bring_eq]
  refine Stage.ensures_bind (ensures_fetch h hphase new unknown) ?_
  rintro n l₁ ⟨-, hphase₁, hjoins⟩
  refine (ensures_enroll_of_joins hjoins).mono ?_ ?_
  · rintro key l' ⟨hphase', hlt, hregisters⟩
    have hphase' : l'.phase = l.phase := hphase'.trans hphase₁
    exact ⟨hlt, hphase', hregisters, fun hcreated => absurd (hphase' ▸ hcreated) hphase,
      fun _ => (Nat.zero_le _).trans_lt hlt⟩
  · rintro _ rfl
    exact ⟨hphase₁, hjoins.registered⟩

/-- An object that is there may be needed. -/
theorem Registered.answer (h : Registered fs l) (r : Request) {dep : Key}
    (hdep : dep.toNat < l.graph.size) : Registered fs (l.answer r dep) where
  registers := h.registers.addEdge r.asker hdep
  fresh hphase := by
    rw [h.fresh hphase] at hdep
    cases hdep
  started hphase := (h.started hphase).trans_eq (ObjectGraph.size_addEdge ..).symm

/-- Serving a request keeps the register. -/
theorem preserves_serve (fs : FileSystem) (r : Request) : (serve fs r).Preserves
    fun l => l.phase = .initiated ∧ Registered fs l := by
  rintro l ⟨hphase, h⟩
  refine ensures_serve_cases ?_ ?_ ?_ ?_
  · exact fun dep hfind => ⟨hphase, h.answer r (h.registers.numbered.known _ _ hfind)⟩
  · exact fun _ _ => ⟨hphase, h⟩
  · intro path dep _ _ hfile
    have hdep := h.registers.numbered.known _ _ hfile
    have halias : Registered fs { l with graph := (l.graph.insertAlias r.name dep).2 } :=
      ⟨h.registers.insertAlias r.name hdep, fun hcreated => by simp [hphase] at hcreated, h.started⟩
    exact ⟨hphase, halias.answer r hdep⟩
  · intro path hfind _ hfile
    have hbring := ensures_registered_bring h (by simp [hphase]) hfind hfile
    rw [hphase] at hbring
    refine hbring.mono ?_ fun _ => id
    rintro key l' ⟨hlt, hphase', h'⟩
    exact ⟨hphase', h'.answer r hlt⟩

/-- What serving any request preserves, serving all requests preserves. -/
theorem preserves_serveAll {P : Loader → Prop} (hP : ∀ r, (serve fs r).Preserves P)
    (todo : List Request) : Stage.Preserves (serveAll fs todo) P := by
  intro l h
  induction todo, l using serveAll.induct fs with
  | case1 l =>
    rw [serveAll_nil]
    exact Stage.ensures_pure h
  | case2 l r rest e l₁ ns served =>
    have hl₁ := (hP r l h).error e (congrArg Outcome.result served)
    rw [show ((serve fs r).run l).state = l₁ from congrArg Outcome.state served] at hl₁
    exact Stage.ensures_of_error (run_serveAll_of_error served rest) hl₁
  | case3 l r rest more l₁ ns served ih =>
    rw [serveAll_cons]
    refine Stage.ensures_bind (R := fun more' l' => more' = more ∧ l' = l₁)
      (Stage.ensures_of_ok served ⟨rfl, rfl⟩) ?_
    rintro _ _ ⟨rfl, rfl⟩
    exact ih ((hP r l h).ok _ _ (Stage.yields_of_run served))

/-- The second phase keeps the register. -/
theorem preserves_loadLibraries (fs : FileSystem) :
    (loadLibraries fs).Preserves (Registered fs) := by
  intro l h
  refine Stage.ensures_bind (ensures_enter h _ _) ?_
  rintro _ l ⟨rfl, hphase⟩
  refine Stage.ensures_bind (R := fun _ l' => l'.phase = .initiated ∧ Registered fs l')
    (Stage.ensures_state ⟨hphase, h⟩) ?_
  intro _ l₁ h₁
  refine Stage.ensures_bind
    ((preserves_serveAll (preserves_serve fs) _ l₁ h₁).mono (fun _ _ => id) fun _ => And.right) ?_
  intro _ l₂ h₂
  refine Stage.ensures_bind (R := fun _ l' => l'.phase = .initiated ∧ Registered fs l')
    (Stage.ensures_state h₂) ?_
  intro _ l₃ h₃
  refine Stage.ensures_bind (R := fun _ l' => l'.phase = .initiated ∧ Registered fs l')
    (Stage.ensures_ofReport (fun _ _ => h₃) h₃.2) ?_
  rintro _ l₄ ⟨hphase₄, h₄⟩
  exact Stage.ensures_update (h₄.congr rfl rfl rfl (by simp [hphase₄]))

/-- Linking keeps the register. -/
theorem preserves_link (fs : FileSystem) : link.Preserves (Registered fs) := by
  intro l h
  refine Stage.ensures_bind (ensures_enter h _ _) ?_
  rintro _ l ⟨rfl, hphase⟩
  refine Stage.ensures_bind (R := fun _ => (l = ·)) (Stage.ensures_state rfl) ?_
  rintro _ _ rfl
  refine Stage.ensures_bind (R := fun _ => l.Sustains)
    (Stage.ensures_within (R := fun _ _ => True) (F := fun _ => True)
      ⟨fun _ _ _ => trivial, fun _ _ => trivial⟩ (fun _ _ _ => ⟨⟨rfl, rfl⟩, rfl, rfl⟩)
      fun _ _ => h.congr rfl rfl rfl Iff.rfl) ?_
  intro count l₁ hl₁
  have hphase₁ : l₁.phase = .loaded := hl₁.phase_eq.trans hphase
  refine Stage.ensures_bind (R := fun _ => Registered fs)
    (Stage.ensures_update ((hl₁.registered h).congr rfl rfl rfl (by simp [hphase₁]))) ?_
  intro _ l₂ h₂
  exact Stage.ensures_pure h₂

/-- Finishing keeps the register. -/
theorem preserves_finalize (fs : FileSystem) : finalize.Preserves (Registered fs) := by
  intro l h
  refine Stage.ensures_bind (ensures_enter h _ _) ?_
  rintro _ l ⟨rfl, hphase⟩
  refine Stage.ensures_bind (R := fun _ => Registered fs)
    (Stage.ensures_update (h.congr rfl rfl rfl (by simp [hphase]))) ?_
  intro _ l₁ h₁
  exact (Stage.preserves_state.bind fun _ => Stage.preserves_pure _) l₁ h₁

/-- All phases in a row keep the register. -/
theorem preserves_loadAndLink (fs : FileSystem) (path : String) :
    (loadAndLink fs path).Preserves (Registered fs) := by
  refine (preserves_initiate fs path).bind fun _ => ?_
  refine (preserves_loadLibraries fs).bind fun _ => ?_
  refine (preserves_link fs).bind fun _ => ?_
  refine Stage.preserves_state.bind fun _ => ?_
  exact (preserves_report _).bind fun _ => preserves_finalize fs

/-! ### All calls -/

/-- **A loader that calls lead to**, whether they succeed or fail. Any phase may be called at any
time, and so may all of them in a row; the files stay as they are. -/
inductive Reached (fs : FileSystem) (config : Config) (processor : Processor) (memory : Memory) :
    Loader → Prop
  /-- Nothing has been called. -/
  | new : Reached fs config processor memory (new config processor memory)
  /-- The first phase is called. -/
  | initiate {l : Loader} (path : String) (h : Reached fs config processor memory l) :
    Reached fs config processor memory (l.after (.initiate fs path))
  /-- The second phase is called. -/
  | loadLibraries {l : Loader} (h : Reached fs config processor memory l) :
    Reached fs config processor memory (l.after (.loadLibraries fs))
  /-- The third phase is called. -/
  | link {l : Loader} (h : Reached fs config processor memory l) :
    Reached fs config processor memory (l.after .link)
  /-- The last phase is called. -/
  | finalize {l : Loader} (h : Reached fs config processor memory l) :
    Reached fs config processor memory (l.after .finalize)
  /-- All phases are called in a row. -/
  | loadAndLink {l : Loader} (path : String) (h : Reached fs config processor memory l) :
    Reached fs config processor memory ((loadAndLink fs path).run l).state

/-- **Every loader that calls lead to keeps its register.** -/
theorem Reached.registered (h : Reached fs config processor memory l) : Registered fs l := by
  induction h with
  | new => exact registered_new fs config processor memory
  | initiate path _ ih =>
    exact (((preserves_initiate fs path).bind fun _ => Stage.preserves_pure ()) _ ih).state
  | loadLibraries _ ih => exact (preserves_loadLibraries fs _ ih).state
  | link _ ih => exact (((preserves_link fs).bind fun _ => Stage.preserves_pure ()) _ ih).state
  | finalize _ ih =>
    exact (((preserves_finalize fs).bind fun _ => Stage.preserves_pure ()) _ ih).state
  | loadAndLink path _ ih => exact (preserves_loadAndLink fs path _ ih).state

/-- **Requests are served up to a point** of the second phase: there are those that are left, and
the loader that serves them. -/
inductive ServedTo (fs : FileSystem) (l : Loader) : List Request → Loader → Prop
  /-- The phase starts. -/
  | start (hphase : l.phase = .initiated) :
    ServedTo fs l (l.graph.requestsOf (Key.ofNat 0)) l
  /-- A request is served, and those that come of it go first. -/
  | serve {r : Request} {more rest : List Request} {k k' : Loader}
    (h : ServedTo fs l (r :: rest) k) (served : (Loader.serve fs r).Yields k more k') :
    ServedTo fs l (more ++ rest) k'

/-- **A phase gets to the point where an object is to join** the graph of the loader `k`. -/
inductive Enrolls (fs : FileSystem) (l : Loader) (n : Node) (k : Loader) : Prop
  /-- The first phase gets there (`ElfLoader.Loader.initiate_eq`). -/
  | executable {path : String} (prepared : (prepare fs path).Yields l n k)
  /-- The second phase gets there (`ElfLoader.Loader.bring_eq`). -/
  | library {r : Request} {rest : List Request} {k₀ : Loader} {path : String}
    (served : ServedTo fs l (r :: rest) k₀) (new : k₀.graph.find? r.name = none)
    (located : k₀.config.libraryPath.find? fs r.name = some path)
    (unknown : k₀.graph.find? (fs.canonical path) = none)
    (fetched : (fetch fs r.name path).Yields k₀ n k)

theorem ServedTo.registered (h : ServedTo fs l todo k) (hl : Registered fs l) :
    k.phase = .initiated ∧ Registered fs k := by
  induction h with
  | start hphase => exact ⟨hphase, hl⟩
  | serve _ served ih => exact (preserves_serve fs _ _ ih).ok _ _ served

/-- Wherever an object is to join, it can. -/
theorem Enrolls.joins (h : Enrolls fs l n k) (hl : Registered fs l) : Joins fs n k := by
  cases h with
  | executable prepared => exact ((ensures_prepare hl _).ok n k prepared).2
  | library served new _ unknown fetched =>
    obtain ⟨hphase, hk₀⟩ := served.registered hl
    exact ((ensures_fetch hk₀ (by simp [hphase]) new unknown).ok n k fetched).2.2

/-- **The register of a loader**, after any calls. The key of an object is its position, its name
and the path of its file lead to it, it needs objects that are there, and it is for the processor
and of the byte order of the loader. Every name leads to an object. No two objects are of one
file. Wherever an object joins, its name is new and its key is the one that it gets. -/
theorem register_of_reached (h : Reached fs config processor memory l) :
    (∀ (i : Nat) (n : Node), l.graph.nodes[i]? = some n → n.key.toNat = i ∧
      l.graph.find? n.name = some n.key ∧
      l.graph.find? (fs.canonical n.object.path) = some n.key ∧
      (∀ dep ∈ n.deps, ∃ m, l.graph.get? dep = some m) ∧
      n.object.header.machine = l.processor.machine ∧ n.object.file.order = l.order) ∧
    (∀ name key, l.graph.find? name = some key → ∃ m, l.graph.get? key = some m) ∧
    (∀ (i j : Nat) (m n : Node), l.graph.nodes[i]? = some m → l.graph.nodes[j]? = some n →
      fs.canonical m.object.path = fs.canonical n.object.path → i = j) ∧
    (∀ (i j : Nat) (m n : Node) (place : Location), l.graph.nodes[i]? = some m →
      l.graph.nodes[j]? = some n → fs.locate m.object.path = .ok place →
      fs.locate n.object.path = .ok place → i = j) ∧
    ∀ n k, Enrolls fs l n k → k.graph.find? n.name = none ∧
      ∀ key g, k.graph.insert n = .ok (key, g) → n.key = key := by
  have hl := h.registered
  have hget : ∀ key : Key, key.toNat < l.graph.size → ∃ m, l.graph.get? key = some m :=
    fun key hkey => ⟨_, Array.getElem?_eq_getElem hkey⟩
  refine ⟨?_, ?_, ?_, ?_, ?_⟩
  · intro i n hn
    have hrecords := hl.registers.records i n hn
    exact ⟨hl.registers.numbered.toNat_key hn, hrecords.named, hrecords.filed,
      fun dep hdep => hget dep (hrecords.linked dep hdep), hrecords.machine_eq, hrecords.order_eq⟩
  · intro name key hname
    exact hget key (hl.registers.numbered.known name key hname)
  · intro i j m n hm hn heq
    exact hl.registers.eq_of_canonical hm hn heq
  · intro i j m n place hm hn hmplace hnplace
    refine hl.registers.eq_of_canonical hm hn ?_
    rw [FileSystem.canonical, FileSystem.canonical, FileSystem.canonical?, FileSystem.canonical?,
      hmplace, hnplace]
    rfl
  · intro n k hn
    exact (hn.joins hl).asserted

/-- An executable and a library, loaded by a second phase that fails and one that succeeds, have
the keys 0 and 1 and are of different files. -/
theorem register_of_gapCalls : ∃ l m n,
    Reached gapFiles gapConfig .arm (.zeroed 0x100000) l ∧ l.phase = .loaded ∧
      l.graph.nodes[0]? = some m ∧ l.graph.nodes[1]? = some n ∧
      m.key.toNat = 0 ∧ n.key.toNat = 1 ∧
      gapFiles.canonical m.object.path ≠ gapFiles.canonical n.object.path := by
  obtain ⟨l, m, n, hl, hphase, hm, -, hn, -⟩ := afterAll_gapCalls
  have hreached : Reached gapFiles gapConfig .arm (.zeroed 0x100000) l := by
    rw [afterAll, gapCalls, List.foldl_cons, List.foldl_cons, List.foldl_cons, List.foldl_nil,
      gapLoader] at hl
    rw [← hl]
    exact .loadLibraries (.loadLibraries (.initiate "a" .new))
  rw [ObjectGraph.getElem?_toList] at hm hn
  obtain ⟨hrecords, -, hfiles, -⟩ := register_of_reached hreached
  refine ⟨l, m, n, hreached, hphase, hm, hn, (hrecords 0 m hm).1, (hrecords 1 n hn).1, ?_⟩
  intro heq
  exact absurd (hfiles 0 1 m n hm hn heq) Nat.zero_ne_one

end Loader

end ElfLoader
