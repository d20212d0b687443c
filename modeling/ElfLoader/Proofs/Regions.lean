import ElfLoader.Proofs.Ownership
import Mathlib.Data.List.Chain
import Mathlib.Data.List.Sort

/-!
# Regions

The regions of an address map, owned and free, lie side by side and fill the map
(`ElfLoader.AddressMap.Tiles`), and no two that touch have the same owner. So they are the
longest stretches of addresses of one owner, and the region of an address has the owner of
the address. All of this holds after any operations on a map that nobody used at first
(`ElfLoader.AddressMap.regions_of_operations`).

The regions are the reservations and the gaps between them, two lists that are put together and
sorted. If the reservations are in order, the same list comes from one walk along them, in which
each one follows the gap in front of it (`ElfLoader.AddressMap.regions_eq`). What is said of
regions is proved along that walk.

An operation may reserve addresses next to others of the same owner. What keeps the two from
being two regions is that a reservation joins its neighbours when it is added: reservations
stay merged (`ElfLoader.AddressMap.Merged`), just as they stay in order.
-/

namespace ElfLoader.AddressMap

/-! ### Neighbours -/

section Merged

variable {size start stop : Nat} {owner : Option Owner} {r s : Reservation}
  {rs rest : List Reservation}

/-- **Reservations are merged**, behind addresses of an owner that end at `stop`: none of them
touches the one before it, or the addresses before all of them, unless the owners differ. -/
def Merged (stop : Nat) (owner : Option Owner) : List Reservation → Prop
  | [] => True
  | r :: rest => (r.start = stop → some r.owner ≠ owner) ∧ Merged r.stop (some r.owner) rest

/-- What comes before makes no difference if it does not touch any reservation. -/
theorem Merged.of_lt (h : Merged stop owner rs) (hrs : Ordered size start rs) {stop' : Nat}
    (hlt : stop' < start) (owner' : Option Owner) : Merged stop' owner' rs := by
  cases rs with
  | nil => trivial
  | cons s rest =>
    refine ⟨fun htouch => ?_, h.2⟩
    have hstart := hrs.1
    omega

/-- Reservations stay merged when some are left out. -/
theorem Merged.filter (h : Merged stop owner rs) (hrs : Ordered size stop rs)
    (keep : Reservation → Bool) : Merged stop owner (rs.filter keep) := by
  induction rs generalizing stop owner with
  | nil => trivial
  | cons s rest ih =>
    obtain ⟨hstart, hs, hrest⟩ := hrs
    rw [List.filter_cons]
    split
    · exact ⟨h.1, ih h.2 hrest⟩
    · -- the reservation that is left out was between those before it and those behind it
      have hlt : stop < s.stop := hstart.trans_lt hs
      exact ih (h.2.of_lt hrest hlt owner) (hrest.of_le hlt.le)

/-- **Reservations stay merged when one is added**, as it joins those that it touches. -/
theorem Merged.insert (h : Merged stop owner rs) (hrs : Ordered size stop rs)
    (hr : r.start = stop → some r.owner ≠ owner) (hstart : stop ≤ r.start)
    (hne : r.start < r.stop) (hfree : FreeIn rs r.start r.stop) :
    Merged stop owner (insert r rs) := by
  fun_induction AddressMap.insert r rs generalizing stop owner with
  | case1 r => exact ⟨hr, trivial⟩
  | case2 r s rest hjoin ih =>
    -- the joined reservation starts where the first one did, and has its owner
    have hfree' := hfree.join hrs hjoin.1
    obtain ⟨hs, hsne, hrest⟩ := hrs
    have hlt : stop < s.stop := hs.trans_lt hsne
    exact ih (h.2.of_lt hrest hlt owner) (hrest.of_le hlt.le) (hjoin.2 ▸ h.1) hs
      (hsne.trans (hjoin.1 ▸ hne)) hfree'
  | case3 r s rest hno hjoin =>
    -- the joined reservation ends where the first one did, and has its owner
    exact ⟨hr, hjoin.2 ▸ h.2⟩
  | case4 r s rest hno hno' hbefore =>
    refine ⟨hr, ?_, h.2⟩
    intro htouch howner
    exact hno' ⟨htouch.symm, Option.some.inj howner⟩
  | case5 r s rest hno hno' hafter ih =>
    -- it is not in front of the first one, so it is behind it
    obtain ⟨hs, hsne, hrest⟩ := hrs
    have hside := (hfree.left_or_right hsne hne).resolve_left hafter
    refine ⟨h.1, ih h.2 hrest ?_ hside hne hfree.tail⟩
    intro htouch howner
    exact hno ⟨htouch.symm, (Option.some.inj howner).symm⟩

/-- Reservations stay in order when some are left out. -/
theorem Ordered.filter (h : Ordered size start rs) (keep : Reservation → Bool) :
    Ordered size start (rs.filter keep) := by
  induction rs generalizing start with
  | nil => exact h
  | cons s rest ih =>
    obtain ⟨hstart, hs, hrest⟩ := h
    rw [List.filter_cons]
    split
    · exact ⟨hstart, hs, ih hrest⟩
    · exact ih (hrest.of_le (hstart.trans hs.le))

/-- No reservation is empty. -/
theorem Ordered.start_lt_stop (h : Ordered size start rs) (hr : r ∈ rs) : r.start < r.stop := by
  induction rs generalizing start with
  | nil => cases hr
  | cons s rest ih =>
    rcases List.mem_cons.1 hr with rfl | hr
    · exact h.2.1
    · exact ih h.2.2 hr

/-- The addresses of a reservation belong to its owner. -/
theorem ownerIn_of_mem (h : Ordered size start rs) (hr : r ∈ rs) {a : Nat} (hlow : r.start ≤ a)
    (hhigh : a < r.stop) : ownerIn rs a = some r.owner := by
  induction rs generalizing start with
  | nil => cases hr
  | cons s rest ih =>
    obtain ⟨-, hs, hrest⟩ := h
    rcases List.mem_cons.1 hr with rfl | hr
    · rw [ownerIn_cons, if_pos ⟨hlow, hhigh⟩]
    · -- it is behind the first reservation, so the address is too
      have ha := ih hrest hr
      have hbound := (hrest.bounds ha).1
      rw [ownerIn_cons, if_neg (by omega), ha]

theorem filter_eq_nil {o : Owner} (h : Ordered size start rs)
    (howner : ∀ a, ownerIn rs a ≠ some o) : rs.filter (fun r => r.owner == o) = [] := by
  rw [List.filter_eq_nil_iff]
  intro r hr heq
  have hne := h.start_lt_stop hr
  exact howner r.start ((ownerIn_of_mem h hr le_rfl hne).trans (congrArg some (beq_iff_eq.1 heq)))

/-- Behind a reservation comes another owner, or nobody. -/
theorem ownerIn_ne {o : Owner} (h : Ordered size start rs) (hmerged : Merged start (some o) rs) :
    ownerIn rs start ≠ some o := by
  cases rs with
  | nil => nofun
  | cons t rest =>
    obtain ⟨ht, htne, hrest⟩ := h
    intro ha
    rw [ownerIn_cons] at ha
    split at ha
    · next hin => exact hmerged.1 (by omega) ha
    · have := (hrest.bounds ha).1
      omega

/-- **An owner whose addresses are one stretch has one reservation**, the stretch. -/
theorem filter_eq_singleton {low high : Nat} {o : Owner} (h : Ordered size start rs)
    (hmerged : Merged start owner rs) (hlt : low < high)
    (howner : ∀ a, ownerIn rs a = some o ↔ low ≤ a ∧ a < high) :
    rs.filter (fun r => r.owner == o) = [⟨low, high, o⟩] := by
  induction rs generalizing start owner with
  | nil => exact absurd ((howner low).2 ⟨le_rfl, hlt⟩) nofun
  | cons s rest ih =>
    obtain ⟨-, hs, hrest⟩ := h
    have hbehind : ∀ a, ownerIn rest a = some o → s.stop ≤ a := fun a ha => (hrest.bounds ha).1
    by_cases hso : s.owner = o
    · -- the first reservation is the owner's, so the stretch starts with it
      have hlow := (howner s.start).1 (by rw [ownerIn_cons, if_pos ⟨le_rfl, hs⟩, hso])
      have hhigh := (howner (s.stop - 1)).1 (by
        rw [ownerIn_cons, if_pos ⟨by omega, by omega⟩, hso])
      have hstart : s.start = low := by
        have ha := (howner low).2 ⟨le_rfl, hlt⟩
        rw [ownerIn_cons] at ha
        split at ha
        · next hin => omega
        · have := hbehind low ha
          omega
      have hstop : s.stop = high := by
        by_contra hne
        -- otherwise the stretch goes on with the next reservation, which is the owner's too
        have ha := (howner s.stop).2 ⟨by omega, by omega⟩
        rw [ownerIn_cons, if_neg (by omega)] at ha
        exact ownerIn_ne hrest (hso ▸ hmerged.2) ha
      have hnone : rest.filter (fun r => r.owner == o) = [] := by
        refine filter_eq_nil hrest fun a ha => ?_
        have hle := hbehind a ha
        have hin := (howner a).1 (by rw [ownerIn_cons, if_neg (by omega), ha])
        omega
      rw [List.filter_cons_of_pos (by simpa using hso), hnone, ← hstart, ← hstop, ← hso]
    · -- the first reservation is another one's, so the stretch is behind it
      rw [List.filter_cons_of_neg (by simpa using hso)]
      refine ih hrest hmerged.2 fun a => ?_
      rw [← howner a, ownerIn_cons]
      split
      · next hin =>
        refine ⟨fun ha => ?_, fun ha => absurd (Option.some.inj ha) hso⟩
        have := hbehind a ha
        omega
      · rfl

end Merged

/-! ### Regions side by side -/

/-- **Regions fill a stretch of addresses**: the first one starts where it does, each of the
others starts where the one before it ends, the last one ends where it does, and none is
empty. -/
def Tiles (start stop : Nat) : List Region → Prop
  | [] => start = stop
  | r :: rest => r.start = start ∧ r.start < r.stop ∧ Tiles r.stop stop rest

/-- **A walk along reservations**: each one comes behind the gap in front of it. -/
def regionsFrom (size start : Nat) : List Reservation → List Region
  | [] => if start < size then [.gap (start, size)] else []
  | s :: rest =>
    (if start < s.start then [.gap (start, s.start)] else []) ++
      .owned s :: regionsFrom size s.stop rest

section Regions

variable {size start stop : Nat} {rs : List Reservation} {regions : List Region}

/-- No region starts before the stretch does. -/
theorem Tiles.start_le (h : Tiles start stop regions) {r : Region} (hr : r ∈ regions) :
    start ≤ r.start := by
  induction regions generalizing start with
  | nil => cases hr
  | cons s rest ih =>
    obtain ⟨rfl, hne, hrest⟩ := h
    rcases List.mem_cons.1 hr with rfl | hr
    · exact le_rfl
    · exact hne.le.trans (ih hrest hr)

theorem Tiles.start_lt_stop (h : Tiles start stop regions) {r : Region} (hr : r ∈ regions) :
    r.start < r.stop := by
  induction regions generalizing start with
  | nil => cases hr
  | cons s rest ih =>
    rcases List.mem_cons.1 hr with rfl | hr
    · exact h.2.1
    · exact ih h.2.2 hr

/-- Every address of the stretch is in a region. -/
theorem Tiles.exists_mem (h : Tiles start stop regions) {a : Nat} (hlow : start ≤ a)
    (hhigh : a < stop) : ∃ r ∈ regions, r.start ≤ a ∧ a < r.stop := by
  induction regions generalizing start with
  | nil =>
    have heq : start = stop := h
    omega
  | cons r rest ih =>
    obtain ⟨rfl, -, hrest⟩ := h
    rcases Nat.lt_or_ge a r.stop with hlt | hge
    · exact ⟨r, List.mem_cons_self, hlow, hlt⟩
    · obtain ⟨s, hs, hin⟩ := ih hrest hge
      exact ⟨s, List.mem_cons_of_mem r hs, hin⟩

/-- A gap goes in front of regions if it is not empty. -/
theorem Tiles.gap {rest : List Region} {middle : Nat} (h : Tiles middle stop rest)
    (hle : start ≤ middle) :
    Tiles start stop ((if start < middle then [.gap (start, middle)] else []) ++ rest) := by
  split
  · next hlt => exact ⟨rfl, hlt, h⟩
  · next hge =>
    obtain rfl : start = middle := by omega
    exact h

/-- **The walk fills the map.** -/
theorem tiles_regionsFrom (h : Ordered size start rs) :
    Tiles start size (regionsFrom size start rs) := by
  induction rs generalizing start with
  | nil =>
    have hgap : Tiles start size ((if start < size then [.gap (start, size)] else []) ++ []) :=
      Tiles.gap rfl h
    rwa [List.append_nil] at hgap
  | cons s rest ih =>
    obtain ⟨hstart, hs, hrest⟩ := h
    exact Tiles.gap ⟨rfl, hs, ih hrest⟩ hstart

/-- Regions side by side start one after the other. -/
theorem Tiles.pairwise_lt (h : Tiles start stop regions) :
    regions.Pairwise fun r s => r.start < s.start := by
  induction regions generalizing start with
  | nil => exact .nil
  | cons r rest ih =>
    obtain ⟨-, hne, hrest⟩ := h
    exact List.pairwise_cons.2 ⟨fun s hs => hne.trans_le (hrest.start_le hs), ih hrest⟩

/-! ### Two lists put together -/

/-- The walk meets the reservations and the gaps, and nothing else. -/
theorem perm_regionsFrom (size start : Nat) (rs : List Reservation) :
    (rs.map Region.owned ++ (gaps size start rs).map Region.gap).Perm
      (regionsFrom size start rs) := by
  induction rs generalizing start with
  | nil =>
    rw [gaps, regionsFrom]
    split <;> exact .refl _
  | cons s rest ih =>
    rw [gaps, regionsFrom, List.map_append, apply_ite (List.map Region.gap)]
    -- the gap in front of the first reservation moves over all reservations
    refine (List.perm_append_comm_assoc _ _ _).trans ?_
    exact .append_left _ ((ih s.stop).cons _)

theorem sortByStart_eq (regions : List Region) :
    Region.sortByStart regions = regions.insertionSort fun r s => r.start ≤ s.start := by
  have hinsert : ∀ (r : Region) (rest : List Region),
      r.insertByStart rest = rest.orderedInsert (fun r s => r.start ≤ s.start) r := by
    intro r rest
    induction rest with
    | nil => rfl
    | cons s rest ih => rw [Region.insertByStart, List.orderedInsert_cons, ih]
  induction regions with
  | nil => rfl
  | cons r rest ih => rw [Region.sortByStart, List.insertionSort_cons, hinsert, ih]

/-- **Sorting is walking**: the reservations and the gaps, sorted by their starts, are the regions
that the walk meets. No two of them start at one address, so there is just one order. -/
theorem regions_eq {m : AddressMap} (h : m.WellOrdered) :
    m.regions = regionsFrom m.size 0 m.reservations := by
  have hwalk := (tiles_regionsFrom h).pairwise_lt
  have hperm : m.regions.Perm (regionsFrom m.size 0 m.reservations) := by
    rw [regions, sortByStart_eq]
    exact (List.perm_insertionSort _ _).trans (perm_regionsFrom _ _ _)
  have hsorted : m.regions.Pairwise fun r s => r.start ≤ s.start := by
    rw [regions, sortByStart_eq]
    exact List.pairwise_insertionSort _ _
  have hstarts : ((regionsFrom m.size 0 m.reservations).map (·.start)).Nodup :=
    List.pairwise_map.2 (hwalk.imp Nat.ne_of_lt)
  refine hperm.eq_of_pairwise ?_ hsorted (hwalk.imp Nat.le_of_lt)
  intro r s hr hs hrs hsr
  exact List.inj_on_of_nodup_map hstarts (hperm.mem_iff.1 hr) hs (le_antisymm hrs hsr)

/-! ### The walk -/

/-- Whether two regions have different owners. -/
def Differ (r s : Region) : Prop := r.owner ≠ s.owner

/-- **No two regions that touch have the same owner**, and neither has the first one the
owner of what ends where they start. -/
theorem isChain_regionsFrom {owner : Option Owner} (h : Ordered size start rs)
    (hmerged : Merged start owner rs) : (regionsFrom size start rs).IsChain Differ ∧
      ∀ r ∈ (regionsFrom size start rs).head?, owner ≠ none → owner ≠ r.owner := by
  induction rs generalizing start owner with
  | nil =>
    rw [regionsFrom]
    split
    · refine ⟨.singleton _, ?_⟩
      rintro r hr howner
      cases hr
      exact howner
    · exact ⟨.nil, fun r hr => by cases hr⟩
  | cons s rest ih =>
    obtain ⟨hstart, hs, hrest⟩ := h
    obtain ⟨hchain, hhead⟩ := ih hrest hmerged.2
    have htail : (.owned s :: regionsFrom size s.stop rest).IsChain Differ :=
      List.isChain_cons.2 ⟨fun r hr => hhead r hr nofun, hchain⟩
    rw [regionsFrom]
    split
    · -- a gap comes first, and nobody owns it
      refine ⟨.cons_cons nofun htail, ?_⟩
      rintro r hr howner
      cases hr
      exact howner
    · next hge =>
      have htouch : s.start = start := by omega
      refine ⟨htail, ?_⟩
      rintro r hr -
      cases hr
      exact (hmerged.1 htouch).symm

/-- **The region of an address has the owner of the address.** -/
theorem ownerIn_of_mem_regionsFrom (h : Ordered size start rs) {r : Region}
    (hr : r ∈ regionsFrom size start rs) {a : Nat} (hlow : r.start ≤ a) (hhigh : a < r.stop) :
    ownerIn rs a = r.owner := by
  induction rs generalizing start with
  | nil =>
    rw [regionsFrom, List.mem_ite_nil_right] at hr
    obtain rfl := List.mem_singleton.1 hr.2
    rfl
  | cons s rest ih =>
    obtain ⟨hstart, hs, hrest⟩ := h
    rw [regionsFrom, List.mem_append, List.mem_ite_nil_right, List.mem_singleton,
      List.mem_cons] at hr
    rw [ownerIn_cons]
    rcases hr with ⟨hlt, rfl⟩ | rfl | hr
    · -- nobody owns the gap in front of the first reservation
      rw [if_neg fun hin => absurd hin.1 (by simpa using hhigh)]
      by_contra hcon
      obtain ⟨o, ho⟩ := Option.ne_none_iff_exists'.1 hcon
      have hbound := (hrest.bounds ho).1
      rw [Region.stop_gap] at hhigh
      omega
    · exact if_pos ⟨hlow, hhigh⟩
    · have hbehind := (tiles_regionsFrom hrest).start_le hr
      rw [if_neg fun hin => by omega]
      exact ih hrest hr

/-- The regions of an owner are its reservations. -/
theorem filter_regionsFrom (size start : Nat) (rs : List Reservation) (owner : Owner) :
    (regionsFrom size start rs).filter (fun r => r.owner == some owner) =
      (rs.filter fun r => r.owner == owner).map .owned := by
  induction rs generalizing start with
  | nil =>
    rw [regionsFrom]
    split <;> rfl
  | cons s rest ih =>
    have hgap : ((if start < s.start then [Region.gap (start, s.start)] else []).filter
        fun r => r.owner == some owner) = [] := by
      split <;> rfl
    rw [regionsFrom, List.filter_append, hgap, List.nil_append, List.filter_cons,
      List.filter_cons, ih]
    by_cases hs : s.owner = owner <;> simp [hs]

end Regions

/-! ### Maps -/

/-- **A map is coherent**: its reservations are in order and merged. -/
structure Coherent (m : AddressMap) : Prop where
  /-- The reservations are in order. -/
  wellOrdered : m.WellOrdered
  /-- They are merged. -/
  merged : Merged 0 none m.reservations

theorem coherent_free (size : Nat) : (free size).Coherent := ⟨wellOrdered_free size, trivial⟩

namespace Coherent

variable {m m' : AddressMap} {start size alignment : UInt32} {owner : Owner}

/-- A map stays coherent when a free stretch is reserved. -/
theorem withReservation (h : m.Coherent) {low room : Nat} (hroom : 0 < room)
    (hwithin : low + room ≤ m.size) (hfree : FreeIn m.reservations low (low + room))
    (owner : Owner) : (m.withReservation low room owner).Coherent where
  wellOrdered := (h.wellOrdered.reserved hroom hwithin hfree owner).wellOrdered
  merged := h.merged.insert h.wellOrdered nofun (Nat.zero_le _)
    (Nat.lt_add_of_pos_right hroom) hfree

theorem reserve (h : m.Coherent) (hr : m.reserve start size owner = .ok m') :
    m'.Coherent ∧ m'.size = m.size := by
  obtain ⟨hwithin, hfree, rfl⟩ := (reserve_eq_ok_iff h.wellOrdered).1 hr
  exact ⟨h.withReservation (room_pos size) hwithin hfree owner, rfl⟩

theorem reserveAnywhere (h : m.Coherent)
    (hr : m.reserveAnywhere size alignment owner = .ok (start, m')) :
    m'.Coherent ∧ m'.size = m.size := by
  obtain ⟨x, hleast, -, rfl⟩ := (reserveAnywhere_eq_ok_iff h.wellOrdered).1 hr
  exact ⟨h.withReservation (room_pos size) hleast.1.within hleast.1.free owner, rfl⟩

theorem release (h : m.Coherent) (hr : m.release? start = some m') :
    m'.Coherent ∧ m'.size = m.size := by
  unfold release? at hr
  obtain ⟨-, hr⟩ := Option.ite_none_right_eq_some.1 hr
  cases hr
  exact ⟨⟨Ordered.filter h.wellOrdered _, h.merged.filter h.wellOrdered _⟩, rfl⟩

/-- **The regions of a map fill it.** -/
theorem tiles (h : m.Coherent) : Tiles 0 m.size m.regions := by
  rw [regions_eq h.wellOrdered]
  exact tiles_regionsFrom h.wellOrdered

/-- **No two regions of a map that touch have the same owner.** -/
theorem isChain_regions (h : m.Coherent) : m.regions.IsChain Differ := by
  rw [regions_eq h.wellOrdered]
  exact (isChain_regionsFrom h.wellOrdered h.merged).1

/-- **The region of an address has the owner of the address.** -/
theorem ownerOf?_of_mem (h : m.Coherent) {r : Region} (hr : r ∈ m.regions) {a : Nat}
    (hlow : r.start ≤ a) (hhigh : a < r.stop) : m.ownerOf? a = r.owner :=
  ownerIn_of_mem_regionsFrom h.wellOrdered (regions_eq h.wellOrdered ▸ hr) hlow hhigh

/-- **An owner whose addresses are one stretch has one region**, the stretch. -/
theorem filter_regions (h : m.Coherent) {low high : Nat} (hlt : low < high)
    (howner : ∀ a, m.ownerOf? a = some owner ↔ low ≤ a ∧ a < high) :
    m.regions.filter (fun r => r.owner == some owner) = [⟨low, high, some owner⟩] := by
  have hone := filter_eq_singleton h.wellOrdered h.merged hlt howner
  rw [regions_eq h.wellOrdered, filter_regionsFrom, hone, List.map_singleton]
  rfl

/-- An owner without addresses has no region. -/
theorem filter_regions_eq_nil (h : m.Coherent) (howner : ∀ a, m.ownerOf? a ≠ some owner) :
    m.regions.filter (fun r => r.owner == some owner) = [] := by
  rw [regions_eq h.wellOrdered, filter_regionsFrom, filter_eq_nil h.wellOrdered howner,
    List.map_nil]

end Coherent

/-! ### Operations -/

/-- What can be done to a map. -/
inductive Operation where
  /-- Certain addresses are claimed. -/
  | reserve (start size : UInt32) (owner : Owner)
  /-- The lowest addresses that will do are claimed. -/
  | reserveAnywhere (size alignment : UInt32) (owner : Owner)
  /-- A reservation is given back. -/
  | release (start : UInt32)
  deriving Repr

/-- A map after an operation. One that fails leaves the map as it is. -/
def perform (m : AddressMap) : Operation → AddressMap
  | .reserve start size owner =>
    match m.reserve start size owner with
    | .ok m' => m'
    | .error _ => m
  | .reserveAnywhere size alignment owner =>
    match m.reserveAnywhere size alignment owner with
    | .ok (_, m') => m'
    | .error _ => m
  | .release start =>
    match m.release? start with
    | some m' => m'
    | none => m

/-- **An operation keeps a map coherent**, and leaves its bounds alone. -/
theorem Coherent.perform {m : AddressMap} (h : m.Coherent) (op : Operation) :
    (m.perform op).Coherent ∧ (m.perform op).size = m.size := by
  unfold AddressMap.perform
  cases op with
  | reserve start size owner =>
    dsimp only
    split
    · next hr => exact h.reserve hr
    · exact ⟨h, rfl⟩
  | reserveAnywhere size alignment owner =>
    dsimp only
    split
    · next hr => exact h.reserveAnywhere hr
    · exact ⟨h, rfl⟩
  | release start =>
    dsimp only
    split
    · next hr => exact h.release hr
    · exact ⟨h, rfl⟩

/-- Operations one after the other keep a map coherent. -/
theorem Coherent.foldl_perform {m : AddressMap} (h : m.Coherent) (ops : List Operation) :
    (ops.foldl AddressMap.perform m).Coherent ∧ (ops.foldl AddressMap.perform m).size = m.size := by
  induction ops generalizing m with
  | nil => exact ⟨h, rfl⟩
  | cons op ops ih =>
    obtain ⟨hcoherent, hsize⟩ := h.perform op
    obtain ⟨hcoherent', hsize'⟩ := ih hcoherent
    exact ⟨hcoherent', hsize'.trans hsize⟩

/-- **The regions of a map**, after any operations on one that nobody used at first. They
fill the map, no two that touch have the same owner, and an address has the owner of its
region. -/
theorem regions_of_operations (size : Nat) (ops : List Operation) :
    Tiles 0 size (ops.foldl perform (free size)).regions ∧
      (ops.foldl perform (free size)).regions.IsChain (fun r s => r.owner ≠ s.owner) ∧
      ∀ address : UInt32, address.toNat < size →
        ∃ r ∈ (ops.foldl perform (free size)).regions,
          (r.start ≤ address.toNat ∧ address.toNat < r.stop) ∧
            (ops.foldl perform (free size)).ownerOf? address.toNat = r.owner := by
  obtain ⟨hcoherent, hsize⟩ := (coherent_free size).foldl_perform ops
  have htiles := hcoherent.tiles
  rw [hsize] at htiles
  refine ⟨htiles, hcoherent.isChain_regions, ?_⟩
  intro address haddress
  obtain ⟨r, hr, hin⟩ := htiles.exists_mem (Nat.zero_le _) haddress
  exact ⟨r, hr, hin, hcoherent.ownerOf?_of_mem hr hin.1 hin.2⟩

/-- Operations on a map of the whole address space: two reservations of one object join, one
operation fails, the guard page is given back, and an object of no size goes there. -/
def joiningOperations : List Operation :=
  [.reserve 0 0x1000 .guard, .reserveAnywhere 0x1800 0x1000 (.object (.ofNat 0)),
    .reserve 0x2800 0x800 (.object (.ofNat 0)), .reserve 0xfffff000 0x1000 .stack,
    .reserveAnywhere 0xffffffff 8 (.object (.ofNat 1)), .release 0,
    .reserveAnywhere 0 8 (.object (.ofNat 1))]

/-- The regions that these operations leave, up to the last address. -/
theorem regions_of_joiningOperations :
    (joiningOperations.foldl perform (free 0x100000000)).regions =
        [⟨0, 1, some (.object (.ofNat 1))⟩, ⟨1, 0x1000, none⟩,
          ⟨0x1000, 0x3000, some (.object (.ofNat 0))⟩, ⟨0x3000, 0xfffff000, none⟩,
          ⟨0xfffff000, 0x100000000, some .stack⟩] ∧
      Tiles 0 0x100000000 (joiningOperations.foldl perform (free 0x100000000)).regions ∧
      ∃ r ∈ (joiningOperations.foldl perform (free 0x100000000)).regions,
        (r.start ≤ 0xffffffff ∧ 0xffffffff < r.stop) ∧
          (joiningOperations.foldl perform (free 0x100000000)).ownerOf? 0xffffffff = r.owner := by
  obtain ⟨htiles, -, howner⟩ := regions_of_operations 0x100000000 joiningOperations
  exact ⟨by decide +kernel, htiles, howner 0xffffffff (by decide)⟩

end ElfLoader.AddressMap
