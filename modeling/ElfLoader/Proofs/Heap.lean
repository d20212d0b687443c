import ElfLoader.Proofs.Layout

/-!
# Where the heap can start

The second phase tells the program where memory that it asks for can start. The address is
meant to be the first aligned one that is free behind all objects, and so it is as long as
there is one (`ElfLoader.Loader.heapStart_of_phases`).

There need not be one: objects may reach up to the stack, or to the end of the address space.
The loader does not refuse such a program. It rounds the end of the objects up, and stops at
the last address that a word can hold, whoever owns the address that comes out: in
`ElfLoader.Loader.heapStart_crampedLoader` this is once the stack and once an object.
-/

namespace ElfLoader

namespace AddressMap

variable {m : AddressMap} {a b : Nat}

/-- **The objects and the guard page lie before an address**: from there on, only the stack may
own any. -/
def ClearFrom (m : AddressMap) (a : Nat) : Prop :=
  ∀ b owner, a ≤ b → m.ownerOf? b = some owner → owner = .stack

theorem ClearFrom.mono (h : m.ClearFrom a) (hab : a ≤ b) : m.ClearFrom b :=
  fun c owner hbc => h c owner (hab.trans hbc)

theorem Coherent.ownerOf?_lt (h : m.Coherent) {owner : Owner} (ha : m.ownerOf? a = some owner) :
    a < m.size :=
  (Ordered.bounds h.wellOrdered ha).2

end AddressMap

namespace Loader

variable {m : AddressMap} {a : Nat}

theorem blocksHeap_iff (r : Region) :
    blocksHeap r = true ↔ ∃ owner, r.owner = some owner ∧ owner ≠ .stack := by
  rcases r with ⟨start, stop, _ | (key | _ | _)⟩ <;> simp [blocksHeap]

/-- The end of the last region of an object or of the guard page. -/
def objectsEnd (m : AddressMap) : Nat :=
  (((m.regions.filter blocksHeap).map (·.stop)).max?).getD 0

theorem stop_le_objectsEnd {r : Region} (hr : r ∈ m.regions) (hblocks : blocksHeap r) :
    r.stop ≤ objectsEnd m :=
  List.le_max?_getD_of_mem (List.mem_map.2 ⟨r, List.mem_filter.2 ⟨hr, hblocks⟩, rfl⟩)

/-- The end of the objects is the end of one of them, unless there is none. -/
theorem objectsEnd_cases (m : AddressMap) :
    objectsEnd m = 0 ∨ ∃ r ∈ m.regions, blocksHeap r ∧ r.stop = objectsEnd m := by
  unfold objectsEnd
  cases hmax : ((m.regions.filter blocksHeap).map (·.stop)).max? with
  | none => exact .inl rfl
  | some stop =>
    obtain ⟨r, hr, rfl⟩ := List.mem_map.1 (List.max?_mem hmax)
    obtain ⟨hmem, hblocks⟩ := List.mem_filter.1 hr
    exact .inr ⟨r, hmem, hblocks, rfl⟩

/-- **The objects and the guard page lie before their end**, and before no other address that is
lower. -/
theorem clearFrom_iff (h : m.Coherent) : m.ClearFrom a ↔ objectsEnd m ≤ a := by
  constructor
  · intro hclear
    rcases objectsEnd_cases m with hzero | ⟨r, hr, hblocks, hstop⟩
    · exact hzero ▸ Nat.zero_le a
    · -- otherwise the last address of that region is one of those that should be clear
      obtain ⟨owner, howner, hne⟩ := (blocksHeap_iff r).1 hblocks
      have hlt := h.tiles.start_lt_stop hr
      by_contra hcon
      have hlast := h.ownerOf?_of_mem (a := r.stop - 1) hr (by omega) (by omega)
      exact hne (hclear _ owner (by omega) (hlast.trans howner))
  · intro hend b owner hab hb
    by_contra hne
    obtain ⟨r, hr, hlow, hhigh⟩ := h.tiles.exists_mem (Nat.zero_le b) (h.ownerOf?_lt hb)
    have howner := (h.ownerOf?_of_mem hr hlow hhigh).symm.trans hb
    have hstop := stop_le_objectsEnd hr ((blocksHeap_iff r).2 ⟨owner, howner, hne⟩)
    omega

/-- The aligned addresses that all objects and the guard page lie before. -/
def heapBounds (m : AddressMap) : Set Nat := {a | heapAlignment ∣ a ∧ m.ClearFrom a}

/-- The addresses where memory that the program asks for could start: those of `heapBounds` that
nobody owns. -/
def heapRoom (m : AddressMap) : Set Nat :=
  {a | a ∈ heapBounds m ∧ a < m.size ∧ m.ownerOf? a = none}

theorem isLeast_heapBounds (h : m.Coherent) :
    IsLeast (heapBounds m) (alignUp (objectsEnd m) heapAlignment) := by
  have heq : heapBounds m = {a | heapAlignment ∣ a ∧ objectsEnd m ≤ a} := by
    ext a
    exact and_congr_right fun _ => clearFrom_iff h
  rw [heq]
  exact isLeast_alignUp (by decide)

/-- The least bound, as far as a word can tell it. -/
theorem toNat_heapStart (m : AddressMap) :
    (heapStart m).toNat = min (alignUp (objectsEnd m) heapAlignment) 4294967295 := by
  change (UInt32.ofNat (min (alignUp (objectsEnd m) heapAlignment) 4294967295)).toNat = _
  rw [UInt32.toNat_ofNat']
  exact Nat.mod_eq_of_lt (by omega)

/-- **The least bound is free if any bound is**, provided that the addresses behind the stack are
the end of memory: before the stack, nobody but objects and the guard page owns anything. -/
theorem isLeast_heapRoom (h : m.Coherent) (hroom : (heapRoom m).Nonempty)
    (hstack : ∀ a b, m.ownerOf? a = some .stack → a ≤ b → b < m.size →
      m.ownerOf? b = some .stack) :
    IsLeast (heapRoom m) (alignUp (objectsEnd m) heapAlignment) := by
  obtain ⟨hbound, hleast⟩ := isLeast_heapBounds h
  obtain ⟨a, ha, hsize, hfree⟩ := hroom
  have hle := hleast ha
  refine ⟨⟨hbound, hle.trans_lt hsize, ?_⟩, fun b hb => hleast hb.1⟩
  by_contra howned
  obtain ⟨owner, howner⟩ := Option.ne_none_iff_exists'.1 howned
  obtain rfl := hbound.2 _ owner le_rfl howner
  -- the stack would go on to the address that is free
  rw [hstack _ a howner hle hsize] at hfree
  cases hfree

/-! ### The second phase -/

section Phases

variable {fs : FileSystem} {path : String} {config : Config} {processor : Processor}
  {memory : Memory} {l l' : Loader} {entry : UInt32} {u : Unit}

theorem heapStart_of_loadLibraries (h : (loadLibraries fs).Yields l u l') :
    l'.program.heapStart = heapStart l'.map := by
  simp only [loadLibraries, Stage.yields_bind_iff, Stage.yields_state_iff] at h
  obtain ⟨_, _, -, _, _, -, hrun⟩ := h
  obtain ⟨_, l₁, -, hlast⟩ := Stage.yields_bind_iff.1 hrun
  simp only [Stage.yields_bind_iff, Stage.yields_update_iff] at hlast
  obtain ⟨_, _, -, _, _, -, rfl⟩ := hlast
  rfl

/-- Objects have been placed when both phases are over. -/
theorem loading_of_phases
    (hinitiate : (initiate fs path).Yields (new config processor memory) entry l)
    (hload : (loadLibraries fs).Yields l u l') : ∃ o, l'.Loading memory o := by
  obtain ⟨o, hloading, -⟩ := loading_of_initiate hinitiate
  obtain ⟨l₁, hserves, hl'⟩ := serves_of_loadLibraries hloading.orderly hloading.pageSize hload
  have hloading₁ := hserves.loading hloading
  rw [hl']
  exact ⟨o, hloading₁.congr (hloading₁.orderly.congr rfl rfl rfl rfl hloading₁.orderly.numbered)
    rfl rfl rfl⟩

/-- The stack goes on to the end of memory. -/
theorem Loading.ownerOf?_stack {o : Object} (h : l.Loading memory o) {b : Nat}
    (ha : l.map.ownerOf? a = some .stack) (hab : a ≤ b) (hb : b < l.map.size) :
    l.map.ownerOf? b = some .stack := by
  rw [h.orderly.ownerOf?_eq_some_iff] at ha ⊢
  exact ⟨ha.1.trans hab, hb⟩

/-- **Where the heap starts.** It starts at the first aligned address that all objects and the
guard page lie before, or at the last address of all if a word cannot hold that one. So where
there is any aligned address behind them that is free, it starts at the first of these; then it
starts neither among the objects nor in the stack. -/
theorem heapStart_of_phases
    (hinitiate : (initiate fs path).Yields (new config processor memory) entry l)
    (hload : (loadLibraries fs).Yields l u l') :
    (∃ a, IsLeast (heapBounds l'.map) a ∧ l'.program.heapStart.toNat = min a 4294967295) ∧
    ((heapRoom l'.map).Nonempty →
      IsLeast (heapRoom l'.map) l'.program.heapStart.toNat ∧
      heapAlignment ∣ l'.program.heapStart.toNat ∧
      l'.map.ClearFrom l'.program.heapStart.toNat ∧
      l'.map.ownerOf? l'.program.heapStart.toNat ≠ some .stack) := by
  obtain ⟨o, hloading⟩ := loading_of_phases hinitiate hload
  have hstart := (congrArg UInt32.toNat (heapStart_of_loadLibraries hload)).trans
    (toNat_heapStart l'.map)
  refine ⟨⟨_, isLeast_heapBounds hloading.coherent, hstart⟩, ?_⟩
  intro hroom
  have hleast := isLeast_heapRoom hloading.coherent hroom
    fun a b ha hab hb => hloading.ownerOf?_stack ha hab hb
  obtain ⟨⟨hdvd, hclear⟩, hsize, hfree⟩ := hleast.1
  -- an address of the memory fits into a word
  have hspace : l'.map.size ≤ 4294967296 :=
    hloading.orderly.consistent.size_map ▸ Nat.min_le_right _ _
  have heq : l'.program.heapStart.toNat = alignUp (objectsEnd l'.map) heapAlignment := by
    rw [hstart]
    omega
  rw [heq]
  exact ⟨hleast, hdvd, hclear, hfree ▸ nofun⟩

/-- The heap of an executable that needs nothing but itself starts behind it. -/
theorem heapStart_of_phases_selfNeeding : ∃ entry l l',
    (initiate selfNeedingFiles "a").Yields (new .standard .arm (.zeroed 0x100000)) entry l ∧
      (loadLibraries selfNeedingFiles).Yields l () l' ∧
      IsLeast (heapRoom l'.map) l'.program.heapStart.toNat ∧
      l'.program.heapStart = 0x2000 := by
  obtain ⟨hneeded, hversions⟩ := selfNeedingObject_facts
  obtain ⟨entry, l, l', hinitiate, hload, hmap⟩ := exists_phases_of_alone .standard .arm
    (.zeroed 0x100000) rfl open_selfNeeding (by decide +kernel) (eq_ok_get (by decide +kernel))
    (eq_ok_get (by decide +kernel)) (eq_ok_get (by decide +kernel)) (eq_ok_get (by decide +kernel))
    hneeded hversions
  have hstart : l'.program.heapStart = 0x2000 := by
    rw [heapStart_of_loadLibraries hload, hmap]
    decide +kernel
  obtain ⟨⟨a, ⟨hbound, -⟩, ha⟩, hrest⟩ := heapStart_of_phases hinitiate hload
  obtain rfl : a = 0x2000 := by
    rw [hstart] at ha
    change 0x2000 = min a 4294967295 at ha
    omega
  have hroom : 0x2000 < l'.map.size ∧ l'.map.ownerOf? 0x2000 = none := by
    rw [hmap]
    decide +kernel
  exact ⟨entry, l, l', hinitiate, hload, (hrest ⟨0x2000, hbound, hroom⟩).1, hstart⟩

/-! ### Where there is no room -/

/-- The file `ElfLoader.selfNeeding` as an executable that is linked for the last page of all. -/
def topmost : ByteArray :=
  ⟨(((((((selfNeeding.data.set! 16 2).set! 61 0xf0).set! 62 0xff).set! 63 0xff).set! 129
    0xf0).set! 130 0xff).set! 131 0xff)⟩

/-- A file system in which the file `a` is that executable. -/
def topmostFiles : FileSystem := ⟨[(["a"], .file topmost)], [], []⟩

/-- The executable. -/
def topmostObject : Object :=
  (Object.open topmostFiles "a" 4096).result.toOption.get (by decide +kernel)

theorem open_topmost : (Object.open topmostFiles "a" 4096).result = .ok topmostObject :=
  eq_ok_get _

theorem topmostObject_facts : (∀ name ∈ topmostObject.needed, name = executableName "a") ∧
    topmostObject.versions.needs.toList = [] := by
  decide +kernel

/-- The standard settings with a stack of this size. -/
def stackConfig (size : UInt32) : Config := { Config.standard with stackSize := size }

/-- **There need not be room.** A stack of one page that the executable touches leaves none, and
the heap is said to start in the stack. An executable on the last page of all leaves none either,
and the heap is said to start at an address of the executable, which is not aligned. -/
theorem heapStart_crampedLoader :
    (∃ entry l l',
      (initiate selfNeedingFiles "a").Yields (new (stackConfig 0x1000) .arm (.zeroed 0x3000))
        entry l ∧
      (loadLibraries selfNeedingFiles).Yields l () l' ∧
      l'.program.heapStart = 0x2000 ∧ l'.map.ownerOf? 0x2000 = some .stack) ∧
    ∃ entry l l',
      (initiate topmostFiles "a").Yields (new (stackConfig 0) .arm (.zeroed 0x100000000)) entry l ∧
      (loadLibraries topmostFiles).Yields l () l' ∧
      l'.program.heapStart = 0xffffffff ∧ ¬ heapAlignment ∣ 0xffffffff ∧
      l'.map.ownerOf? 0xffffffff = some (.object (.ofNat 0)) := by
  constructor
  · obtain ⟨hneeded, hversions⟩ := selfNeedingObject_facts
    obtain ⟨entry, l, l', hinitiate, hload, hmap⟩ := exists_phases_of_alone (stackConfig 0x1000)
      .arm (.zeroed 0x3000) rfl open_selfNeeding (by decide +kernel)
      (eq_ok_get (by decide +kernel)) (eq_ok_get (by decide +kernel))
      (eq_ok_get (by decide +kernel)) (eq_ok_get (by decide +kernel)) hneeded hversions
    refine ⟨entry, l, l', hinitiate, hload, ?_, ?_⟩
    · rw [heapStart_of_loadLibraries hload, hmap]
      decide +kernel
    · rw [hmap]
      decide +kernel
  · obtain ⟨hneeded, hversions⟩ := topmostObject_facts
    obtain ⟨entry, l, l', hinitiate, hload, hmap⟩ := exists_phases_of_alone (stackConfig 0)
      .arm (.zeroed 0x100000000) rfl open_topmost (by decide +kernel)
      (eq_ok_get (by decide +kernel)) (eq_ok_get (by decide +kernel))
      (eq_ok_get (by decide +kernel)) (eq_ok_get (by decide +kernel)) hneeded hversions
    refine ⟨entry, l, l', hinitiate, hload, ?_, by decide, ?_⟩
    · rw [heapStart_of_loadLibraries hload, hmap]
      decide +kernel
    · rw [hmap]
      decide +kernel

end Phases

end Loader

end ElfLoader
