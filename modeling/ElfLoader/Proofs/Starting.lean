import ElfLoader.Program.Run
import ElfLoader.Proofs.Extent
import ElfLoader.Proofs.Occupancy

/-!
# The first phase

The first phase turns a new loader into one that knows its executable and nothing else
(`ElfLoader.Loader.Initiated`), and that is orderly: the stack and the guard page get
their addresses before the executable gets its own.
-/

namespace ElfLoader.Loader

variable {fs : FileSystem} {path : String} {l l' : Loader}

/-! ### Small steps -/

@[simp] theorem yields_enter_iff {expected : Phase} {activity : String} {u : Unit} :
    (enter expected activity).Yields l u l' ↔ l.phase = expected ∧ l = l' := by
  change (Stage.ofExcept (ensure (l.phase = expected) (.phaseOrder activity l.phase.text))).Yields
    l u l' ↔ _
  rw [Stage.yields_ofExcept_iff, ensure_eq_ok_iff]

theorem run_enter_of_phase {expected : Phase} (h : l.phase = expected) (activity : String) :
    (enter expected activity).run l = ⟨.ok (), l, []⟩ := by
  rw [Stage.run, enter, ensure, if_pos h]
  rfl

theorem run_enter_of_phase_ne {expected : Phase} (h : l.phase ≠ expected) (activity : String) :
    (enter expected activity).run l = ⟨.error (.phaseOrder activity l.phase.text), l, []⟩ := by
  rw [Stage.run, enter, ensure, if_neg h]
  rfl

@[simp] theorem yields_report_iff {notices : List Notice} {u : Unit} :
    (report notices).Yields l u l' ↔ l = l' := by
  rw [report, Stage.yields_bind_iff]
  constructor
  · rintro ⟨_, _, hstate, h⟩
    obtain ⟨rfl, rfl⟩ := Stage.yields_state_iff.1 hstate
    split at h
    · exact Stage.yields_notes_iff.1 h
    · exact (Stage.yields_pure_iff.1 h).2
  · rintro rfl
    refine ⟨l, l, Stage.yields_state_iff.2 ⟨rfl, rfl⟩, ?_⟩
    split
    · exact Stage.yields_notes_iff.2 rfl
    · exact Stage.yields_pure_iff.2 ⟨rfl, rfl⟩

theorem yields_claim_iff {f : AddressMap → Except LoadError AddressMap} {u : Unit} :
    (claim f).Yields l u l' ↔ ∃ map, f l.map = .ok map ∧ { l with map } = l' := by
  rw [claim, Stage.yields_attempt_iff, bind_eq_ok_iff]
  simp [pure, Except.pure]

/-- What is noted about a C library does not matter to the rest of the phase. -/
theorem exists_of_noteLibrary {name : String} {o : Object} {u : Unit}
    (h : (noteLibrary name o).Yields l u l') :
    ∃ program ownSymbols, l' = { l with program, ownSymbols } := by
  obtain ⟨found, _, hfound, hnote⟩ := Stage.yields_bind_iff.1 h
  obtain ⟨-, rfl⟩ := Stage.yields_ofReport_iff.1 hfound
  cases found with
  | none => exact ⟨l.program, l.ownSymbols, (Stage.yields_pure_iff.1 hnote).2.symm⟩
  | some symbols =>
    obtain ⟨_, _, hreport, hupdate⟩ := Stage.yields_bind_iff.1 hnote
    rw [← yields_report_iff.1 hreport] at hupdate
    exact ⟨_, _, (Stage.yields_update_iff.1 hupdate).symm⟩

@[simp] theorem yields_noteInterpreter_iff {o : Object} {u : Unit} :
    (noteInterpreter o).Yields l u l' ↔ l = l' := by
  unfold noteInterpreter
  split
  · exact Stage.yields_pure_iff.trans (and_iff_right rfl)
  · exact yields_report_iff

/-! ### The stack and the guard page -/

section Reserve

variable {m m' : AddressMap} {size pageSize : UInt32} {o : Object}

/-- **Reserving the stack** takes the addresses at the top. -/
theorem reserveStack_eq_ok (hm : m.WellOrdered) (hsize : m.size ≤ 4294967296)
    (h : reserveStack size m = .ok m') :
    m'.WellOrdered ∧ m'.size = m.size ∧ ∀ a, m'.ownerOf? a =
      if m.size - size.toNat ≤ a ∧ a < m.size then some .stack else m.ownerOf? a := by
  unfold reserveStack at h
  split at h
  · next hzero =>
    cases h
    subst hzero
    refine ⟨hm, rfl, ?_⟩
    intro a
    rw [if_neg]
    rw [UInt32.toNat_zero]
    omega
  · next hne =>
    obtain ⟨_, hle, h⟩ := bind_eq_ok_iff.1 h
    rw [ensure_eq_ok_iff] at hle
    have hpos : size.toNat ≠ 0 := by
      intro h0
      exact hne (UInt32.toNat_inj.1 h0)
    have hroom : AddressMap.room size = size.toNat := by
      rw [AddressMap.room]
      omega
    have hstart : (UInt32.ofNat (m.size - size.toNat)).toNat = m.size - size.toNat := by
      rw [UInt32.toNat_ofNat']
      exact Nat.mod_eq_of_lt (by omega)
    have hr := AddressMap.reserve_eq_ok hm h
    rw [hroom, hstart] at hr
    refine ⟨hr.wellOrdered, hr.size_eq, ?_⟩
    intro a
    rw [hr.ownerOf?_eq, Nat.sub_add_cancel hle]

/-- **Reserving the guard page** takes the first page if it is to be reserved. -/
theorem reserveGuard_eq_ok (hm : m.WellOrdered) (hpage : 0 < pageSize.toNat)
    (h : reserveGuard o pageSize m = .ok m') :
    m'.WellOrdered ∧ m'.size = m.size ∧ ∀ a, if (o.isShared || pageSize ≤ o.extent.start) = true ∧
        a < pageSize.toNat then m.ownerOf? a = none ∧ m'.ownerOf? a = some .guard
      else m'.ownerOf? a = m.ownerOf? a := by
  unfold reserveGuard at h
  split at h
  · next hguard =>
    have hroom : AddressMap.room pageSize = pageSize.toNat := by
      rw [AddressMap.room]
      omega
    have hr := AddressMap.reserve_eq_ok hm h
    rw [hroom, UInt32.toNat_zero] at hr
    refine ⟨hr.wellOrdered, hr.size_eq, ?_⟩
    intro a
    rw [hr.ownerOf?_eq]
    split
    · next ha => exact ⟨hr.free a (Nat.zero_le a) (by omega), if_pos ⟨Nat.zero_le a, by omega⟩⟩
    · next ha => exact if_neg fun hin => ha ⟨hguard, by omega⟩
  · next hguard =>
    cases h
    refine ⟨hm, rfl, ?_⟩
    intro a
    rw [if_neg fun hin => hguard hin.1]

end Reserve

/-- **A loader is orderly** once the stack and the guard page have their addresses. -/
theorem orderly_of_reserved {memory : Memory} {o : Object} {map map' : AddressMap}
    (hl : l.Consistent) (hmemory : l.memory = memory) (hempty : l.graph = .empty)
    (hfree : ∀ a, l.map.ownerOf? a = none) (hpage : 0 < l.config.pageSize.toNat)
    (hstack : reserveStack l.config.stackSize l.map = .ok map)
    (hguard : reserveGuard o l.config.pageSize map = .ok map') :
    { l with map := map' }.Orderly memory o := by
  have hnone : ∀ n, n ∉ l.graph.settled := by
    rw [hempty]
    exact fun n hn => by cases hn
  have hsize : l.map.size ≤ 4294967296 := hl.size_map ▸ Nat.min_le_right _ _
  obtain ⟨hordered, hsize', hstack⟩ := reserveStack_eq_ok hl.wellOrdered hsize hstack
  obtain ⟨hordered', hsize'', hguard⟩ := reserveGuard_eq_ok hordered hpage hguard
  refine ⟨⟨hordered', by rw [hsize'', hsize', hl.size_map]⟩, congrArg Memory.size hmemory,
    hempty ▸ ObjectGraph.numbered_empty, fun n hn => absurd hn (hnone n), ?_,
    fun i n hn => absurd (List.mem_of_getElem? hn) (hnone n), fun n hn => absurd hn (hnone n),
    fun a _ => by rw [← hmemory]⟩
  intro a owner
  -- at first nobody owns anything, so the two reservations tell who owns an address; they
  -- do not meet, as the guard page was free after the stack had been reserved
  have howner : map'.ownerOf? a = some owner ↔
      ((o.isShared || l.config.pageSize ≤ o.extent.start) = true ∧
        a < l.config.pageSize.toNat) ∧ owner = .guard ∨
      (l.map.size - l.config.stackSize.toNat ≤ a ∧ a < l.map.size) ∧ owner = .stack := by
    have hg := hguard a
    have hs := hstack a
    rw [hfree] at hs
    split at hg
    · next ha =>
      rw [hg.1, eq_comm, ite_eq_right_iff] at hs
      have hno : ¬ (l.map.size - l.config.stackSize.toNat ≤ a ∧ a < l.map.size) :=
        fun hin => by simp at hs; omega
      rw [hg.2, Option.some.injEq]
      simp only [ha, hno, and_self, true_and, false_and, or_false]
      exact eq_comm
    · next ha =>
      rw [hg, hs]
      simp only [ha, false_and, false_or, Option.ite_none_right_eq_some, Option.some.injEq]
      exact and_congr_right fun _ => eq_comm
  change map'.ownerOf? a = some owner ↔ _
  rw [howner]
  cases owner with
  | object key =>
    simp only [Owns, reduceCtorEq, and_false, or_self, false_iff]
    rintro ⟨n, hn, -⟩
    exact hnone n hn
  | stack => simp only [Owns, hsize'', hsize', reduceCtorEq, and_false, false_or, and_true]
  | guard => simp only [Owns, reduceCtorEq, and_false, or_false, and_true]

/-! ### The phase -/

section Phase

variable {config : Config} {processor : Processor} {memory : Memory} {o : Object}

/-- **A new loader is prepared for an executable**: the executable has been opened, and the
stack and the guard page have their addresses. -/
structure Prepared (fs : FileSystem) (config : Config) (processor : Processor)
    (memory : Memory) (path : String) (o : Object) (l : Loader) : Prop where
  /-- The settings make sense. -/
  checked : config.check = .ok ()
  /-- The executable has been opened. -/
  opened : (Object.open fs path config.pageSize.toNat).result = .ok o
  /-- The stack has its addresses, and then the guard page. -/
  reserved : ∃ map, reserveStack config.stackSize (new config processor memory).map = .ok map ∧
    reserveGuard o config.pageSize map = .ok l.map
  /-- All that matters is as in a new loader. -/
  state_eq : l = { new config processor memory with
    map := l.map, order := o.file.order, program := l.program, ownSymbols := l.ownSymbols }

/-- The first phase prepares the loader and then places the executable. -/
theorem prepared_of_initiate {entry : UInt32}
    (h : (initiate fs path).Yields (new config processor memory) entry l) :
    ∃ o k key l₁, Prepared fs config processor memory path o k ∧
      (place fs (executableName path) o).Yields k key l₁ ∧
      l = { l₁ with program := l.program, phase := .initiated } := by
  simp only [initiate, Stage.yields_bind_iff, yields_enter_iff, Stage.yields_state_iff,
    Stage.yields_ofExcept_iff, Stage.yields_ofReport_iff, Stage.yields_update_iff] at h
  obtain ⟨_, _, ⟨-, rfl⟩, _, _, ⟨rfl, rfl⟩, _, _, ⟨hcheck, rfl⟩, o, _, ⟨hopen, rfl⟩,
    _, _, ⟨-, rfl⟩, _, _, rfl, _, l₁, hclaim₁, _, l₂, hclaim₂, _, l₃, hlibrary, _, l₄, hinterpreter,
    key, l₅, hplace, _, _, rfl, _, _, ⟨rfl, rfl⟩, hlast⟩ := h
  obtain ⟨-, rfl⟩ := Stage.yields_pure_iff.1 hlast
  obtain ⟨map, hstack, rfl⟩ := yields_claim_iff.1 hclaim₁
  obtain ⟨map', hguard, rfl⟩ := yields_claim_iff.1 hclaim₂
  obtain ⟨program, ownSymbols, rfl⟩ := exists_of_noteLibrary hlibrary
  obtain rfl := yields_noteInterpreter_iff.1 hinterpreter
  refine ⟨o, _, key, l₅, ?_, hplace, rfl⟩
  exact ⟨hcheck, hopen, ⟨map, hstack, hguard⟩, rfl⟩

namespace Prepared

variable (h : Prepared fs config processor memory path o l)

include h

theorem pageSize : isPowerOfTwo config.pageSize.toNat := (ensure_eq_ok_iff ..).1 h.checked

theorem sound : o.Sound := Object.sound_of_open (pos_of_isPowerOfTwo h.pageSize) h.opened

theorem config_eq : l.config = config := by
  rw [h.state_eq]
  rfl

theorem graph_eq : l.graph = .empty := by
  rw [h.state_eq]
  rfl

/-- The owners before the executable is placed, computed from the settings. -/
theorem map_eq {map map' : AddressMap}
    (hstack : reserveStack config.stackSize (new config processor memory).map = .ok map)
    (hguard : reserveGuard o config.pageSize map = .ok map') : l.map = map' := by
  obtain ⟨map₁, hstack₁, hguard₁⟩ := h.reserved
  obtain rfl : map₁ = map := Except.ok.inj (hstack₁.symm.trans hstack)
  exact Except.ok.inj (hguard₁.symm.trans hguard)

/-- **A loader that is prepared is orderly.** -/
theorem orderly : l.Orderly memory o := by
  obtain ⟨map, hstack, hguard⟩ := h.reserved
  have hreserved := orderly_of_reserved (consistent_new config processor memory) rfl rfl
    (fun _ => rfl) (pos_of_isPowerOfTwo h.pageSize) hstack hguard
  rw [h.state_eq]
  exact hreserved.congr rfl rfl rfl rfl ObjectGraph.numbered_empty

end Prepared

/-- **A loader has been initiated** and knows its executable `n`. -/
structure Initiated (fs : FileSystem) (config : Config) (memory : Memory) (path : String)
    (n : Node) (l : Loader) : Prop where
  /-- The settings stay. -/
  config_eq : l.config = config
  /-- Pages are a power of two. -/
  pageSize : isPowerOfTwo config.pageSize.toNat
  /-- The executable has been opened. -/
  opened : (Object.open fs path config.pageSize.toNat).result = .ok n.object
  /-- The loader is orderly. -/
  orderly : l.Orderly memory n.object
  /-- The executable is the only object. -/
  nodes_eq : l.graph.nodes = #[n]
  /-- It goes by the name of its file. -/
  find?_eq : l.graph.find? (executableName path) = some n.key
  /-- It is not known yet what it needs. -/
  deps_eq : n.deps = []
  /-- The first phase is over. -/
  phase_eq : l.phase = .initiated

/-- **The first phase**, if it succeeds. -/
theorem initiated_of_initiate {entry : UInt32}
    (h : (initiate fs path).Yields (new config processor memory) entry l) :
    ∃ n, Initiated fs config memory path n l := by
  obtain ⟨o, k, key, l₁, hk, hplace, hl⟩ := prepared_of_initiate h
  have hpage : isPowerOfTwo k.config.pageSize.toNat := hk.config_eq ▸ hk.pageSize
  obtain ⟨n, -, hplaced⟩ := placed_of_place hk.orderly.consistent hk.orderly.numbered hk.sound
    (hk.graph_eq ▸ ObjectGraph.find?_empty _) hplace
  have horderly := hk.orderly.placed hplaced hpage hk.sound
  have hobject := Orderly.object_placed hplaced
  have hnodes := hplaced.nodes_eq
  have hconfig : l₁.config = k.config := by rw [hplaced.state_eq]
  rw [hk.graph_eq] at hnodes
  rw [hl]
  refine ⟨n, hconfig.trans hk.config_eq, hk.pageSize, hobject ▸ hk.opened, ?_, hnodes,
    hplaced.find?_eq, by rw [hplaced.node_eq]; rfl, rfl⟩
  rw [hobject]
  exact horderly.congr rfl rfl rfl rfl horderly.numbered

end Phase

end ElfLoader.Loader
