import ElfLoader.Proofs.Closure
import ElfLoader.Proofs.LoadOrder
import ElfLoader.Proofs.Patching
import ElfLoader.Proofs.Regions

/-!
# The layout of memory

From the moment the executable is placed, memory is laid out (`ElfLoader.Loader.LaidOut`):
every object, the stack and the guard page have one region each, nobody else has any, and the
libraries lie on whole pages behind the first one. This holds at every point until something
fails (`ElfLoader.Loader.laidOut_of_underway`), also between one library and the next.

A region is as long as it can be, so to know who owns which addresses is to know the regions,
as long as the map is coherent. That is why what is kept while objects are placed
(`ElfLoader.Loader.Loading`) is told by addresses, and turned into regions only at the end
(`ElfLoader.Loader.Loading.laidOut`).
-/

namespace ElfLoader

/-- The address behind an object. Even an object of no size takes one address. -/
def Node.stop (n : Node) : Nat := n.range.start.toNat + max n.range.size.toNat 1

theorem Node.start_lt_stop (n : Node) : n.range.start.toNat < n.stop := by
  unfold stop
  omega

namespace Loader

variable {fs : FileSystem} {config : Config} {processor : Processor} {memory : Memory}
  {l l' : Loader} {o : Object} {n root : Node} {r : Request} {more todo : List Request}

/-! ### The layout -/

/-- The regions of an owner. -/
def regionsOf (l : Loader) (owner : Owner) : List Region :=
  l.map.regions.filter fun r => r.owner == some owner

/-- **Memory is laid out** for a program with the executable `root`. -/
structure LaidOut (root : Node) (l : Loader) : Prop where
  /-- The executable is the first object. -/
  root?_eq : l.graph.root? = some root
  /-- Every object has one region. -/
  object : ∀ n ∈ l.graph.toList, l.regionsOf (.object n.key) =
    [⟨n.range.start.toNat, n.stop, some (.object n.key)⟩]
  /-- Objects do not overlap. -/
  apart : ∀ (i j : Nat) (m n : Node), l.graph.toList[i]? = some m →
    l.graph.toList[j]? = some n → i ≠ j →
      m.stop ≤ n.range.start.toNat ∨ n.stop ≤ m.range.start.toNat
  /-- There is room for the stack. -/
  stackSize_le : l.config.stackSize.toNat ≤ l.map.size
  /-- The stack is at the top of memory, unless it has no size. -/
  stack : l.regionsOf .stack = if l.config.stackSize = 0 then [] else
    [⟨l.map.size - l.config.stackSize.toNat, l.map.size, some .stack⟩]
  /-- The guard page is at zero, unless the executable was linked to lie there. -/
  guard : l.regionsOf .guard =
    if root.object.isShared || l.config.pageSize ≤ root.object.extent.start then
      [⟨0, l.config.pageSize.toNat, some .guard⟩] else []
  /-- Address zero belongs to one of these two. -/
  zero : l.map.ownerOf? 0 = some .guard ∨ l.map.ownerOf? 0 = some (.object root.key)
  /-- Nobody else owns anything. -/
  owner : ∀ a owner, l.map.ownerOf? a = some owner →
    owner = .stack ∨ owner = .guard ∨ ∃ n ∈ l.graph.toList, owner = .object n.key
  /-- A library lies on whole pages behind the first one. -/
  library : ∀ (i : Nat) (n : Node), l.graph.toList[i]? = some n → 0 < i →
    l.config.pageSize.toNat ∣ n.range.start.toNat ∧
      l.config.pageSize.toNat ≤ n.range.start.toNat

/-- Nothing but the settings, the owners and the objects matters. -/
theorem LaidOut.congr (h : l.LaidOut root) (hconfig : l'.config = l.config)
    (hmap : l'.map = l.map) (hgraph : l'.graph = l.graph) : l'.LaidOut root := by
  obtain ⟨hroot, hobject, hapart, hsize, hstack, hguard, hzero, howner, hlibrary⟩ := h
  have hregions : l'.regionsOf = l.regionsOf := by
    funext owner
    rw [regionsOf, hmap, regionsOf]
  rw [← hregions] at hobject hstack hguard
  rw [← hconfig] at hsize hstack hguard hlibrary
  rw [← hmap] at hsize hstack hzero howner
  rw [← hgraph] at hroot hobject hapart howner hlibrary
  exact ⟨hroot, hobject, hapart, hsize, hstack, hguard, hzero, howner, hlibrary⟩

/-! ### While objects are placed -/

/-- **Objects are being placed** for a program with the executable `o`. -/
structure Loading (memory : Memory) (o : Object) (l : Loader) : Prop where
  orderly : l.Orderly memory o
  coherent : l.map.Coherent
  pageSize : isPowerOfTwo l.config.pageSize.toNat
  stackSize_le : l.config.stackSize.toNat ≤ l.map.size
  /-- Objects lie on whole pages. -/
  paged : ∀ n ∈ l.graph.settled, l.config.pageSize.toNat ∣ n.range.start.toNat

/-- **The executable has been placed**, where it was linked for unless it is a shared object. -/
def Headed (o : Object) (l : Loader) : Prop :=
  ∃ n, l.graph.settled[0]? = some n ∧ n.object = o ∧
    (o.isShared = false → n.range.start = o.extent.start)

/-- Objects that come later make no difference. -/
theorem Headed.of_prefix (h : l.Headed o) (hbegins : l.graph.settled <+: l'.graph.settled) :
    l'.Headed o := by
  obtain ⟨n, hn, hobject⟩ := h
  obtain ⟨later, hlater⟩ := hbegins
  refine ⟨n, ?_, hobject⟩
  rw [← hlater, List.getElem?_append_left (List.getElem?_eq_some_iff.1 hn).1, hn]

namespace Loading

theorem congr (h : l.Loading memory o) (horderly : l'.Orderly memory o)
    (hconfig : l'.config = l.config) (hmap : l'.map = l.map)
    (hsettled : l'.graph.settled = l.graph.settled) : l'.Loading memory o := by
  obtain ⟨-, hcoherent, hpage, hsize, hpaged⟩ := h
  rw [← hmap] at hcoherent hsize
  rw [← hconfig] at hpage hsize hpaged
  rw [← hsettled] at hpaged
  exact ⟨horderly, hcoherent, hpage, hsize, hpaged⟩

/-- The addresses of an object are those that it owns. -/
theorem ownerOf?_object_iff (h : l.Loading memory o) {i : Nat}
    (hn : l.graph.settled[i]? = some n) (a : Nat) :
    l.map.ownerOf? a = some (.object n.key) ↔ n.range.start.toNat ≤ a ∧ a < n.stop := by
  rw [h.orderly.ownerOf?_eq_some_iff]
  constructor
  · rintro ⟨m, hm, hkey, ha⟩
    obtain ⟨j, hj⟩ := List.mem_iff_getElem?.1 hm
    obtain rfl := h.orderly.numbered.settled_inj hj hn hkey
    rw [hn] at hj
    cases hj
    exact ha
  · exact fun ha => ⟨n, List.mem_of_getElem? hn, rfl, ha⟩

/-- **Address zero** belongs to the guard page, or else to the executable. -/
theorem ownerOf?_zero (h : l.Loading memory o) (hn : l.graph.settled[0]? = some n)
    (hfixed : o.isShared = false → n.range.start = o.extent.start) :
    l.map.ownerOf? 0 = some .guard ∨ l.map.ownerOf? 0 = some (.object n.key) := by
  by_cases hguard : (o.isShared || l.config.pageSize ≤ o.extent.start) = true
  · exact .inl ((h.orderly.ownerOf?_eq_some_iff 0 .guard).2
      ⟨hguard, pos_of_isPowerOfTwo h.pageSize⟩)
  · -- the executable lies at a whole page before the second one, so at zero
    rw [Bool.or_eq_true, not_or, Bool.not_eq_true, decide_eq_true_eq, UInt32.not_le] at hguard
    have hstart := hfixed hguard.1
    have hpage := h.paged n (List.mem_of_getElem? hn)
    have hzero := Nat.eq_zero_of_dvd_of_lt hpage (hstart ▸ hguard.2)
    exact .inr ((h.ownerOf?_object_iff hn 0).2
      ⟨hzero.le, (Nat.zero_le _).trans_lt n.start_lt_stop⟩)

theorem regionsOf_object (h : l.Loading memory o) {i : Nat} (hn : l.graph.settled[i]? = some n) :
    l.regionsOf (.object n.key) =
      [⟨n.range.start.toNat, n.stop, some (.object n.key)⟩] :=
  h.coherent.filter_regions n.start_lt_stop (h.ownerOf?_object_iff hn)

/-- Two objects do not overlap: the first address of both would have two owners. -/
theorem apart (h : l.Loading memory o) {i j : Nat} {m : Node}
    (hm : l.graph.settled[i]? = some m) (hn : l.graph.settled[j]? = some n) (hne : i ≠ j) :
    m.stop ≤ n.range.start.toNat ∨ n.stop ≤ m.range.start.toNat := by
  have hstop := m.start_lt_stop
  have hstop' := n.start_lt_stop
  by_contra hmeet
  have hfirst := (h.ownerOf?_object_iff hm (max m.range.start.toNat n.range.start.toNat)).2
    ⟨le_max_left _ _, by omega⟩
  have hsecond := (h.ownerOf?_object_iff hn (max m.range.start.toNat n.range.start.toNat)).2
    ⟨le_max_right _ _, by omega⟩
  have hkey := Owner.object.inj (Option.some.inj (hfirst.symm.trans hsecond))
  exact hne (h.orderly.numbered.settled_inj hm hn hkey)

theorem regionsOf_stack (h : l.Loading memory o) :
    l.regionsOf .stack = if l.config.stackSize = 0 then [] else
      [⟨l.map.size - l.config.stackSize.toNat, l.map.size, some .stack⟩] := by
  have hle := h.stackSize_le
  have howner := fun a => h.orderly.ownerOf?_eq_some_iff a .stack
  split
  · next hnone =>
    refine h.coherent.filter_regions_eq_nil fun a ha => ?_
    obtain ⟨hlow, hhigh⟩ := (howner a).1 ha
    rw [hnone, UInt32.toNat_zero] at hlow
    omega
  · next hsome =>
    have hpos : l.config.stackSize.toNat ≠ 0 := fun h0 => hsome (UInt32.toNat_inj.1 h0)
    exact h.coherent.filter_regions (by omega) howner

theorem regionsOf_guard (h : l.Loading memory o) :
    l.regionsOf .guard = if o.isShared || l.config.pageSize ≤ o.extent.start then
      [⟨0, l.config.pageSize.toNat, some .guard⟩] else [] := by
  have howner := fun a => h.orderly.ownerOf?_eq_some_iff a .guard
  split
  · next hguard =>
    refine h.coherent.filter_regions (pos_of_isPowerOfTwo h.pageSize) fun a => ?_
    rw [howner]
    exact ⟨fun ha => ⟨Nat.zero_le a, ha.2⟩, fun ha => ⟨hguard, ha.2⟩⟩
  · next hno => exact h.coherent.filter_regions_eq_nil fun a ha => hno ((howner a).1 ha).1

/-- **A library does not start on the first page**: it starts on a whole page, and the first
address is taken. -/
theorem library (h : l.Loading memory o) {root : Node} {i : Nat}
    (hroot : l.graph.settled[0]? = some root)
    (hzero : l.map.ownerOf? 0 = some .guard ∨ l.map.ownerOf? 0 = some (.object root.key))
    (hn : l.graph.settled[i]? = some n) (hi : 0 < i) :
    l.config.pageSize.toNat ∣ n.range.start.toNat ∧
      l.config.pageSize.toNat ≤ n.range.start.toNat := by
  have hpage := h.paged n (List.mem_of_getElem? hn)
  refine ⟨hpage, Nat.le_of_dvd (Nat.pos_of_ne_zero fun h0 => ?_) hpage⟩
  have hown := (h.ownerOf?_object_iff hn 0).2 ⟨h0.le, (Nat.zero_le _).trans_lt n.start_lt_stop⟩
  rcases hzero with hguard | hroot'
  · cases hguard.symm.trans hown
  · have hkey := Owner.object.inj (Option.some.inj (hroot'.symm.trans hown))
    exact hi.ne (h.orderly.numbered.settled_inj hroot hn hkey)

/-- **Memory is laid out while objects are placed.** -/
theorem laidOut (h : l.Loading memory o) (hheaded : l.Headed o) : ∃ root, l.LaidOut root := by
  obtain ⟨_, he, hobject, hfixed⟩ := hheaded
  have hzero := h.ownerOf?_zero he hfixed
  obtain ⟨root, hroot, rfl⟩ := ObjectGraph.exists_of_getElem?_settled he
  change root.object = o at hobject
  -- an object has the same addresses whether it is settled or not
  have hsettled : ∀ {i : Nat} {n : Node}, l.graph.toList[i]? = some n →
      l.graph.settled[i]? = some n.settled := by
    intro i n hn
    rw [ObjectGraph.getElem?_settled, ← ObjectGraph.getElem?_toList, hn]
    rfl
  refine ⟨root, (l.graph.getElem?_toList 0).symm.trans hroot, ?_, ?_, h.stackSize_le,
    h.regionsOf_stack, hobject ▸ h.regionsOf_guard, hzero, ?_, ?_⟩
  · intro n hn
    obtain ⟨i, hi⟩ := List.mem_iff_getElem?.1 hn
    exact h.regionsOf_object (n := n.settled) (hsettled hi)
  · intro i j m n hm hn hne
    exact h.apart (m := m.settled) (n := n.settled) (hsettled hm) (hsettled hn) hne
  · intro a owner ha
    have howns := (h.orderly.ownerOf?_eq_some_iff a owner).1 ha
    cases owner with
    | stack => exact .inl rfl
    | guard => exact .inr (.inl rfl)
    | object key =>
      obtain ⟨n, hn, rfl, -⟩ := howns
      obtain ⟨m, hm, rfl⟩ := List.mem_map.1 hn
      exact .inr (.inr ⟨m, hm, rfl⟩)
  · intro i n hn hi
    exact h.library (n := n.settled) (hsettled hroot) hzero (hsettled hn) hi

end Loading

/-! ### Placing one more object -/

theorem coherent_of_reserveFor {key : Key} {address : UInt32} {map : AddressMap}
    (h : l.map.Coherent) (hr : l.reserveFor key o = .ok (address, map)) :
    map.Coherent ∧ map.size = l.map.size := by
  unfold reserveFor at hr
  split at hr
  · exact h.reserveAnywhere hr
  · obtain ⟨map', hmap, hr⟩ := bind_eq_ok_iff.1 hr
    cases hr
    exact h.reserve hmap

/-- An object that was linked for whole pages is placed on whole pages. -/
theorem dvd_start_of_placed {name : String} (hp : l.Placed name o n l')
    (hpage : isPowerOfTwo l.config.pageSize.toNat)
    (ho : l.config.pageSize.toNat ∣ o.extent.start.toNat) :
    l.config.pageSize.toNat ∣ n.range.start.toNat := by
  cases hshared : o.isShared with
  | true =>
    have haligned := (hp.least hshared).1.aligned
    rwa [AddressMap.grain_eq hpage] at haligned
  | false =>
    rw [hp.fixed hshared]
    exact ho

/-- **Placing an object that has been opened** goes on with placing objects. -/
theorem Loading.placed {o' : Object} {name path : String} (h : l.Loading memory o)
    (hp : l.Placed name o' n l')
    (ho : (Object.open fs path l.config.pageSize.toNat).result = .ok o') :
    l'.Loading memory o := by
  obtain ⟨hcoherent, hsize⟩ := coherent_of_reserveFor h.coherent hp.reserveFor_eq
  have hsound := Object.sound_of_open (pos_of_isPowerOfTwo h.pageSize) ho
  have hpage := dvd_start_of_placed hp h.pageSize (Object.dvd_start_of_open ho)
  have hconfig : l'.config = l.config := by rw [hp.state_eq]
  refine ⟨h.orderly.placed hp h.pageSize hsound, hcoherent, hconfig ▸ h.pageSize, ?_, ?_⟩
  · rw [hconfig, hsize]
    exact h.stackSize_le
  · intro m hm
    rw [hconfig]
    rw [Orderly.settled_placed hp, List.mem_append, List.mem_singleton] at hm
    rcases hm with hm | rfl
    · exact h.paged m hm
    · exact hpage

/-- **Serving a request** goes on with placing objects. -/
theorem Served.loading (h : Served fs r l more l') (hl : l.Loading memory o) :
    l'.Loading memory o := by
  have horderly := h.orderly hl.orderly hl.pageSize
  cases h with
  | known found => exact hl.congr horderly rfl rfl (l.graph.settled_addEdge _ _)
  | aliased new located found =>
    exact hl.congr horderly rfl rfl (ObjectGraph.settled_addEdge _ _ _)
  | brought new located unknown opened admitted placed =>
    exact (hl.placed placed opened).congr horderly rfl rfl (ObjectGraph.settled_addEdge _ _ _)

theorem Serves.loading (h : Serves fs todo l l') (hl : l.Loading memory o) :
    l'.Loading memory o := by
  induction h with
  | done l => exact hl
  | step served others ih => exact ih (served.loading hl)

/-! ### Placing the executable -/

section Reserve

variable {m m' : AddressMap}

theorem coherent_of_reserveStack {size : UInt32} (hm : m.Coherent)
    (h : reserveStack size m = .ok m') :
    m'.Coherent ∧ m'.size = m.size ∧ size.toNat ≤ m.size := by
  unfold reserveStack at h
  split at h
  · next hzero =>
    cases h
    exact ⟨hm, rfl, hzero ▸ Nat.zero_le _⟩
  · obtain ⟨_, hle, h⟩ := bind_eq_ok_iff.1 h
    obtain ⟨hcoherent, hsize⟩ := hm.reserve h
    exact ⟨hcoherent, hsize, (ensure_eq_ok_iff ..).1 hle⟩

theorem coherent_of_reserveGuard {pageSize : UInt32} (hm : m.Coherent)
    (h : reserveGuard o pageSize m = .ok m') : m'.Coherent ∧ m'.size = m.size := by
  unfold reserveGuard at h
  split at h
  · exact hm.reserve h
  · cases h
    exact ⟨hm, rfl⟩

end Reserve

/-- A loader that is prepared is ready to place objects. -/
theorem Prepared.loading {path : String} (h : Prepared fs config processor memory path o l) :
    l.Loading memory o := by
  obtain ⟨map, hstack, hguard⟩ := h.reserved
  obtain ⟨hcoherent, hsize, hle⟩ := coherent_of_reserveStack (AddressMap.coherent_free _) hstack
  obtain ⟨hcoherent', hsize'⟩ := coherent_of_reserveGuard hcoherent hguard
  refine ⟨h.orderly, hcoherent', h.config_eq ▸ h.pageSize, ?_, ?_⟩
  · rw [h.config_eq, hsize', hsize]
    exact hle
  · rw [h.graph_eq]
    exact fun n hn => nomatch hn

/-- **The first phase** places the executable. -/
theorem loading_of_initiate {path : String} {entry : UInt32}
    (h : (initiate fs path).Yields (new config processor memory) entry l) :
    ∃ o, l.Loading memory o ∧ l.Headed o := by
  obtain ⟨o, k, key, l₁, hk, hplace, hl⟩ := prepared_of_initiate h
  obtain ⟨n, -, hplaced⟩ := placed_of_place hk.orderly.consistent hk.orderly.numbered hk.sound
    (hk.graph_eq ▸ ObjectGraph.find?_empty _) hplace
  have hloading := hk.loading.placed hplaced (hk.config_eq ▸ hk.opened)
  refine ⟨o, ?_, n, ?_, Orderly.object_placed hplaced, hplaced.fixed⟩
  · rw [hl]
    exact hloading.congr (hloading.orderly.congr rfl rfl rfl rfl hloading.orderly.numbered)
      rfl rfl rfl
  · rw [hl]
    change l₁.graph.settled[0]? = some n
    rw [Orderly.settled_placed hplaced, hk.graph_eq]
    rfl

/-! ### Until something fails -/

/-- **A loader is underway**: the executable has been placed, and nothing has failed since.
What has been done since is to serve a request while the libraries are loaded, or to call a
phase. -/
inductive Underway (config : Config) (processor : Processor) (memory : Memory) : Loader → Prop
  /-- The executable has been placed. -/
  | initiated {fs : FileSystem} {path : String} {entry : UInt32} {l : Loader}
    (first : (initiate fs path).Yields (new config processor memory) entry l) :
    Underway config processor memory l
  /-- A request has been served. -/
  | served {fs : FileSystem} {r : Request} {more : List Request} {l l' : Loader}
    (before : Underway config processor memory l) (phase : l.phase = .initiated)
    (next : (serve fs r).Yields l more l') : Underway config processor memory l'
  /-- A phase has been called. -/
  | called {c : Call} {l l' : Loader} (before : Underway config processor memory l)
    (next : c.work.Yields l () l') : Underway config processor memory l'

/-- What is known of a loader that is underway: until the libraries are loaded, objects may still
be placed. -/
structure Sane (memory : Memory) (l : Loader) : Prop where
  phase_ne : l.phase ≠ .created
  loading : l.phase = .initiated → ∃ o, l.Loading memory o ∧ l.Headed o
  laidOut : ∃ root, l.LaidOut root

theorem sane_of_loading (hphase : l.phase ≠ .created) (h : l.Loading memory o)
    (hheaded : l.Headed o) : l.Sane memory :=
  ⟨hphase, fun _ => ⟨o, h, hheaded⟩, h.laidOut hheaded⟩

/-- Once no objects are placed any more, the layout is all that matters. -/
theorem sane_of_laidOut (phase : Phase) (hphase : l.phase = phase)
    (hlate : phase ≠ .created ∧ phase ≠ .initiated) (h : ∃ root, l.LaidOut root) :
    l.Sane memory := by
  refine ⟨hphase ▸ hlate.1, ?_, h⟩
  intro hinitiated
  exact absurd (hphase.symm.trans hinitiated) hlate.2

theorem Sane.served (h : l.Sane memory) (hphase : l.phase = .initiated)
    (hserve : (serve fs r).Yields l more l') : l'.Sane memory := by
  obtain ⟨o, hloading, hheaded⟩ := h.loading hphase
  have hrun : serve fs r l = ⟨.ok more, l', (serve fs r l).notices⟩ := by
    rw [← hserve.1, ← hserve.2]
    rfl
  have hserved := served_of_serve hloading.orderly hloading.pageSize hrun
  obtain ⟨hphase', -⟩ := (ensures_serve hloading.orderly.numbered fs r).ok more l' hserve
  refine sane_of_loading ?_ (hserved.loading hloading) (hheaded.of_prefix hserved.settled_prefix)
  rw [hphase', hphase]
  exact nofun

theorem Sane.called {c : Call} (h : l.Sane memory) (hcall : c.work.Yields l () l') :
    l'.Sane memory := by
  cases c with
  | initiate fs path =>
    obtain ⟨_, _, hfirst, -⟩ := Stage.yields_bind_iff.1 hcall
    obtain ⟨_, _, henter, -⟩ := Stage.yields_bind_iff.1 hfirst
    exact absurd (yields_enter_iff.1 henter).1 h.phase_ne
  | loadLibraries fs =>
    obtain ⟨_, _, henter, -⟩ := Stage.yields_bind_iff.1 hcall
    obtain ⟨o, hloading, hheaded⟩ := h.loading (yields_enter_iff.1 henter).1
    obtain ⟨l₁, hserves, hl'⟩ := serves_of_loadLibraries hloading.orderly hloading.pageSize hcall
    have hloading₁ := hserves.loading hloading
    obtain ⟨root, hroot⟩ := hloading₁.laidOut (hheaded.of_prefix hserves.settled_prefix)
    rw [hl']
    exact sane_of_laidOut .loaded rfl (by decide) ⟨root, hroot.congr rfl rfl rfl⟩
  | link =>
    obtain ⟨count, l₁, hlink, hlast⟩ := Stage.yields_bind_iff.1 hcall
    obtain ⟨-, rfl⟩ := Stage.yields_pure_iff.1 hlast
    obtain ⟨memory', -, rfl⟩ := links_of_link hlink
    obtain ⟨root, hroot⟩ := h.laidOut
    exact sane_of_laidOut .linked rfl (by decide) ⟨root, hroot.congr rfl rfl rfl⟩
  | finalize =>
    obtain ⟨program, l₁, hfinalize, hlast⟩ := Stage.yields_bind_iff.1 hcall
    obtain ⟨-, rfl⟩ := Stage.yields_pure_iff.1 hlast
    simp only [finalize, Stage.yields_bind_iff, yields_enter_iff, Stage.yields_update_iff,
      Stage.yields_state_iff, Stage.yields_pure_iff] at hfinalize
    obtain ⟨_, _, ⟨-, rfl⟩, _, _, rfl, _, _, ⟨rfl, rfl⟩, -, rfl⟩ := hfinalize
    obtain ⟨root, hroot⟩ := h.laidOut
    exact sane_of_laidOut .finalized rfl (by decide) ⟨root, hroot.congr rfl rfl rfl⟩

/-- **Memory is laid out at every point** from the first phase on, as long as nothing fails. -/
theorem laidOut_of_underway (h : Underway config processor memory l) : ∃ root, l.LaidOut root := by
  have hsane : l.Sane memory := by
    induction h with
    | initiated first =>
      obtain ⟨n, hn⟩ := initiated_of_initiate first
      obtain ⟨o, hloading, hheaded⟩ := loading_of_initiate first
      exact sane_of_loading (hn.phase_eq ▸ nofun) hloading hheaded
    | served before phase next ih => exact ih.served phase next
    | called before next ih => exact ih.called next
  exact hsane.laidOut

/-- The layout when an executable and one library have been placed, and the libraries of the
library are still to come. -/
theorem laidOut_of_underway_gap : ∃ l root n, Underway gapConfig .arm (.zeroed 0x100000) l ∧
    l.LaidOut root ∧ l.graph.toList[1]? = some n ∧ n.object = gapLibrary := by
  obtain ⟨entry, n, l, hinitiate, hn⟩ := exists_initiate_gap
  obtain ⟨m, l', ns, hserve, hm⟩ := exists_serve_gap hn
  have hunderway : Underway gapConfig .arm (.zeroed 0x100000) l' :=
    .served (.initiated hinitiate) hn.initiated.phase_eq (Stage.yields_of_run hserve)
  obtain ⟨root, hroot⟩ := laidOut_of_underway hunderway
  obtain ⟨x, hx, rfl⟩ := ObjectGraph.exists_of_getElem?_settled (g := l'.graph) (i := 1)
    (by rw [hm.settled_eq]; rfl)
  exact ⟨l', root, x, hunderway, hroot, hx, hm.object_eq⟩

/-- **All phases in one call** are underway as well. -/
theorem underway_of_loadAndLink {path : String} {program : ProgramInfo}
    (h : (loadAndLink fs path).Yields (new config processor memory) program l) :
    Underway config processor memory l := by
  simp only [loadAndLink, Stage.yields_bind_iff, Stage.yields_state_iff, yields_report_iff] at h
  obtain ⟨entry, l₁, hinitiate, _, l₂, hload, count, l₃, hlink, _, _, ⟨rfl, rfl⟩, _, _, rfl,
    hfinalize⟩ := h
  have hcalled : Underway config processor memory l₂ :=
    .called (c := .loadLibraries fs) (.initiated hinitiate) hload
  have hcalled' : Underway config processor memory l₃ :=
    .called (c := .link) hcalled (Stage.yields_bind_iff.2
      ⟨count, l₃, hlink, Stage.yields_pure_iff.2 ⟨rfl, rfl⟩⟩)
  exact .called (c := .finalize) hcalled' (Stage.yields_bind_iff.2
    ⟨program, l, hfinalize, Stage.yields_pure_iff.2 ⟨rfl, rfl⟩⟩)

end Loader

end ElfLoader
