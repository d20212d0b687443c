import ElfLoader.Proofs.Outcomes
import ElfLoader.Proofs.Regions

/-!
# Giving addresses back

Addresses are given back in *runs* (`ElfLoader.AddressMap.IsRun`): an owner's addresses that lie
side by side go together, however many operations it took to reserve them. A map does not record
those operations, but neither does it need to. Its reservations are merged, so they are just the
runs (`ElfLoader.AddressMap.Coherent.isRun_iff`), and a release must name the first address of one
(`ElfLoader.AddressMap.Coherent.release?_eq_none_iff`).

An owner that has nothing yet gets a run of its own, which joins neither of its neighbours. To
release it is then to undo the reservation: the map is the one that it was before
(`ElfLoader.AddressMap.Coherent.release?_of_reserve`), with the same regions, since the free ones
are not stored.
-/

namespace ElfLoader.AddressMap

/-! ### Runs -/

/-- **A run of addresses**: its owner has all of them, but neither the address before them nor
the one behind them. -/
structure IsRun (m : AddressMap) (start stop : Nat) (owner : Owner) : Prop where
  /-- There is an address in it. -/
  lt : start < stop
  /-- They all belong to the owner. -/
  owned : ∀ a, start ≤ a → a < stop → m.ownerOf? a = some owner
  /-- The address before them does not. -/
  before : ∀ a, a + 1 = start → m.ownerOf? a ≠ some owner
  /-- Neither does the address behind them. -/
  behind : m.ownerOf? stop ≠ some owner

section Reservations

variable {size start a : Nat} {owner : Option Owner} {o : Owner} {r : Reservation}
  {rs : List Reservation}

/-- No reservation starts before all of them. -/
theorem Ordered.le_start (h : Ordered size start rs) (hr : r ∈ rs) : start ≤ r.start := by
  induction rs generalizing start with
  | nil => cases hr
  | cons s rest ih =>
    obtain ⟨hstart, hs, hrest⟩ := h
    rcases List.mem_cons.1 hr with rfl | hr
    · exact hstart
    · exact (hstart.trans hs.le).trans (ih hrest hr)

/-- An address with an owner is in a reservation of the owner. -/
theorem exists_mem_of_ownerIn (ha : ownerIn rs a = some o) :
    ∃ r ∈ rs, r.start ≤ a ∧ a < r.stop ∧ r.owner = o := by
  obtain ⟨r, hfind, howner⟩ := Option.map_eq_some_iff.1 ha
  have hin := List.find?_some hfind
  rw [Bool.and_eq_true, decide_eq_true_iff, decide_eq_true_iff] at hin
  exact ⟨r, List.mem_of_find?_eq_some hfind, hin.1, hin.2, howner⟩

/-- A reservation that touches what comes before all of them has another owner. -/
theorem Merged.owner_ne (hmerged : Merged start owner rs) (h : Ordered size start rs)
    (hr : r ∈ rs) (htouch : r.start = start) : some r.owner ≠ owner := by
  cases rs with
  | nil => cases hr
  | cons s rest =>
    obtain ⟨hstart, hs, hrest⟩ := h
    rcases List.mem_cons.1 hr with rfl | hr
    · exact hmerged.1 htouch
    · have hle := hrest.le_start hr
      omega

/-- The address before a reservation does not belong to its owner. -/
theorem ownerIn_before_ne (h : Ordered size start rs) (hmerged : Merged start owner rs)
    (hr : r ∈ rs) (ha : a + 1 = r.start) : ownerIn rs a ≠ some r.owner := by
  induction rs generalizing start owner with
  | nil => cases hr
  | cons s rest ih =>
    obtain ⟨-, hs, hrest⟩ := h
    rw [ownerIn_cons]
    rcases List.mem_cons.1 hr with rfl | hr
    · -- all others are behind the reservation, and the address is before it
      rw [if_neg (by omega)]
      intro howner
      have hle := (hrest.bounds howner).1
      omega
    · split
      · next hin =>
        -- the address is the last one of the first reservation
        have hle := hrest.le_start hr
        exact (hmerged.2.owner_ne hrest hr (by omega)).symm
      · exact ih hrest hmerged.2 hr

/-- The address behind a reservation does not belong to its owner. -/
theorem ownerIn_stop_ne (h : Ordered size start rs) (hmerged : Merged start owner rs)
    (hr : r ∈ rs) : ownerIn rs r.stop ≠ some r.owner := by
  induction rs generalizing start owner with
  | nil => cases hr
  | cons s rest ih =>
    obtain ⟨-, hs, hrest⟩ := h
    rw [ownerIn_cons]
    rcases List.mem_cons.1 hr with rfl | hr
    · rw [if_neg (by omega)]
      exact ownerIn_ne hrest hmerged.2
    · have hle := hrest.le_start hr
      have hlt := hrest.start_lt_stop hr
      rw [if_neg (by omega)]
      exact ih hrest hmerged.2 hr

end Reservations

section Coherent

variable {m m' : AddressMap} {start size : UInt32} {owner : Owner}

/-- **The reservations of a map are its runs.** -/
theorem Coherent.isRun_iff (h : m.Coherent) {low high : Nat} :
    m.IsRun low high owner ↔ ⟨low, high, owner⟩ ∈ m.reservations := by
  constructor
  · intro hrun
    obtain ⟨r, hr, hlow, hhigh, rfl⟩ := exists_mem_of_ownerIn (hrun.owned low le_rfl hrun.lt)
    have hin : ∀ a, r.start ≤ a → a < r.stop → m.ownerOf? a = some r.owner :=
      fun a => ownerIn_of_mem h.wellOrdered hr
    -- neither of the two goes on where the other one ends
    have hstart : r.start = low := by
      by_contra hne
      exact hrun.before (low - 1) (by omega) (hin (low - 1) (by omega) (by omega))
    have hstop : r.stop = high := by
      rcases Nat.lt_trichotomy r.stop high with hlt | heq | hgt
      · exact absurd (hrun.owned r.stop hhigh.le hlt) (ownerIn_stop_ne h.wellOrdered h.merged hr)
      · exact heq
      · exact absurd (hin high (hlow.trans hrun.lt.le) hgt) hrun.behind
    rwa [← hstart, ← hstop]
  · intro hr
    exact ⟨h.wellOrdered.start_lt_stop hr, fun a => ownerIn_of_mem h.wellOrdered hr,
      fun a => ownerIn_before_ne h.wellOrdered h.merged hr,
      ownerIn_stop_ne h.wellOrdered h.merged hr⟩

/-- **A release fails** unless it names the first address of a run. -/
theorem Coherent.release?_eq_none_iff (h : m.Coherent) :
    m.release? start = none ↔ ¬ ∃ stop owner, m.IsRun start.toNat stop owner := by
  simp only [h.isRun_iff]
  unfold release?
  rw [ite_eq_right_iff, imp_iff_not (Option.some_ne_none _), List.any_eq_true, not_iff_not]
  constructor
  · rintro ⟨r, hr, hstart⟩
    exact ⟨r.stop, r.owner, beq_iff_eq.1 hstart ▸ hr⟩
  · rintro ⟨stop, owner, hr⟩
    exact ⟨_, hr, beq_self_eq_true _⟩

/-! ### A reservation undone -/

/-- An owner without addresses has no reservation. -/
theorem Coherent.owner_ne (h : m.Coherent) (hnew : ∀ a, m.ownerOf? a ≠ some owner)
    {r : Reservation} (hr : r ∈ m.reservations) : r.owner ≠ owner := by
  rintro rfl
  exact hnew r.start (ownerIn_of_mem h.wellOrdered hr le_rfl (h.wellOrdered.start_lt_stop hr))

/-- **Leaving out what has just been added**: reservations stay as they were if the one that is
added starts where none of the others does, and has an owner of its own. -/
theorem filter_insert {bound low : Nat} {r : Reservation} {rs : List Reservation}
    (h : Ordered bound low rs) (hne : r.start < r.stop) (hfree : FreeIn rs r.start r.stop)
    (hnew : ∀ s ∈ rs, s.owner ≠ r.owner) :
    (insert r rs).filter (fun s => s.start != r.start) = rs := by
  fun_induction AddressMap.insert r rs generalizing low with
  | case1 r => simp
  | case2 r s rest hjoin => exact absurd hjoin.2 (hnew s List.mem_cons_self)
  | case3 r s rest hno hjoin => exact absurd hjoin.2 (hnew s List.mem_cons_self)
  | case4 r s rest hno hno' hbefore =>
    -- all others are behind it
    have hrest : Ordered bound s.start (s :: rest) := ⟨le_rfl, h.2⟩
    rw [List.filter_cons_of_neg (by simp), List.filter_eq_self]
    intro t ht
    have hle := hrest.le_start ht
    exact bne_iff_ne.2 (by omega)
  | case5 r s rest hno hno' hafter ih =>
    obtain ⟨-, hs, hrest⟩ := h
    have hside := (hfree.left_or_right hs hne).resolve_left hafter
    have hkeep : (s.start != r.start) = true := bne_iff_ne.2 (by omega)
    rw [List.filter_cons, if_pos hkeep,
      ih hrest hne hfree.tail fun t ht => hnew t (List.mem_cons_of_mem s ht)]

/-- An owner that had nothing before gets a run. -/
theorem Coherent.isRun_of_reserve (h : m.Coherent) (hnew : ∀ a, m.ownerOf? a ≠ some owner)
    (hr : m.reserve start size owner = .ok m') :
    m'.IsRun start.toNat (start.toNat + room size) owner := by
  have hreserved := reserve_eq_ok h.wellOrdered hr
  refine ⟨Nat.lt_add_of_pos_right (room_pos size), ?_, ?_, ?_⟩
  · intro a hlow hhigh
    rw [hreserved.ownerOf?_eq, if_pos ⟨hlow, hhigh⟩]
  · intro a ha
    rw [hreserved.ownerOf?_eq, if_neg (by omega)]
    exact hnew a
  · rw [hreserved.ownerOf?_eq, if_neg (by omega)]
    exact hnew _

/-- **Releasing undoes reserving**, if the owner had nothing before. -/
theorem Coherent.release?_of_reserve (h : m.Coherent) (hnew : ∀ a, m.ownerOf? a ≠ some owner)
    (hr : m.reserve start size owner = .ok m') : m'.release? start = some m := by
  have hmem := (h.reserve hr).1.isRun_iff.1 (h.isRun_of_reserve hnew hr)
  obtain ⟨-, hfree, rfl⟩ := (reserve_eq_ok_iff h.wellOrdered).1 hr
  have hfilter := filter_insert (r := ⟨start.toNat, start.toNat + room size, owner⟩)
    h.wellOrdered (Nat.lt_add_of_pos_right (room_pos size)) hfree fun r => h.owner_ne hnew
  have hany : (m.withReservation start.toNat (room size) owner).reservations.any
      (fun r => r.start == start.toNat) = true :=
    List.any_eq_true.2 ⟨_, hmem, beq_self_eq_true start.toNat⟩
  unfold release?
  rw [if_pos hany]
  exact congrArg (fun rs => some { m with reservations := rs }) hfilter

end Coherent

/-! ### Any operations -/

/-- **Reserving and releasing**, after any operations on a map that nobody used at first. An
owner that has nothing gets the addresses it asks for if they lie in the map and are free, and
nothing otherwise. They are its own from then on, no other address changes hands, and when they
are released the map is what it was before. A release that does not name the first address of a
run does nothing. -/
theorem reserve_release_of_operations {m : AddressMap} {bound : Nat} {ops : List Operation}
    (hm : ops.foldl perform (free bound) = m) :
    (∀ (start size : UInt32) (owner : Owner), (∀ a, m.ownerOf? a ≠ some owner) →
      ((∃ m', m.reserve start size owner = .ok m') ↔
        start.toNat + max size.toNat 1 ≤ bound ∧
          ∀ a, start.toNat ≤ a → a < start.toNat + max size.toNat 1 → m.ownerOf? a = none) ∧
      (∀ m', m.reserve start size owner = .ok m' →
        m.perform (.reserve start size owner) = m' ∧
        (∀ a, m'.ownerOf? a = if start.toNat ≤ a ∧ a < start.toNat + max size.toNat 1 then
          some owner else m.ownerOf? a) ∧
        m'.release? start = some m ∧ (m'.perform (.release start)).regions = m.regions) ∧
      ∀ e, m.reserve start size owner = .error e →
        m.perform (.reserve start size owner) = m) ∧
    ∀ start : UInt32,
      (m.release? start = none ↔ ¬ ∃ stop owner, m.IsRun start.toNat stop owner) ∧
      (m.release? start = none → m.perform (.release start) = m) := by
  obtain ⟨hcoherent, hsize⟩ := (coherent_free bound).foldl_perform ops
  rw [hm] at hcoherent hsize
  have hbound : bound = m.size := hsize.symm
  refine ⟨fun start size owner hnew => ⟨?_, ?_, ?_⟩, fun start => ⟨?_, ?_⟩⟩
  · simp only [reserve_eq_ok_iff hcoherent.wellOrdered, exists_and_left, exists_eq', and_true,
      hbound]
    rfl
  · intro m' hr
    have hrelease := hcoherent.release?_of_reserve hnew hr
    refine ⟨?_, (reserve_eq_ok hcoherent.wellOrdered hr).ownerOf?_eq, hrelease, ?_⟩
    · simp only [perform, hr]
    · simp only [perform, hrelease]
  · intro e he
    simp only [perform, he]
  · exact hcoherent.release?_eq_none_iff
  · intro hnone
    simp only [perform, hnone]

/-- In the map that some operations leave, the guard page fills the gap between two objects and
is taken out of it again. Reserving it past the last address of all changes nothing, and neither
does releasing the middle of an object. -/
theorem reserve_release_of_joiningOperations : ∃ m', (∀ a,
      (joiningOperations.foldl perform (free 0x100000000)).ownerOf? a ≠ some .guard) ∧
    (joiningOperations.foldl perform (free 0x100000000)).reserve 1 0xfff .guard = .ok m' ∧
    m'.ownerOf? 0xfff = some .guard ∧
    m'.release? 1 = some (joiningOperations.foldl perform (free 0x100000000)) ∧
    (joiningOperations.foldl perform (free 0x100000000)).perform
      (.reserve 0xffffffff 2 .guard) = joiningOperations.foldl perform (free 0x100000000) ∧
    (joiningOperations.foldl perform (free 0x100000000)).perform (.release 0x2000) =
      joiningOperations.foldl perform (free 0x100000000) := by
  have hm : joiningOperations.foldl perform (free 0x100000000) = _ := rfl
  obtain ⟨hreserve, hrelease⟩ := reserve_release_of_operations hm
  have hnew : ∀ a, (joiningOperations.foldl perform (free 0x100000000)).ownerOf? a ≠
      some .guard := by
    intro a ha
    obtain ⟨r, hr, -, -, howner⟩ := exists_mem_of_ownerIn ha
    have hother : ∀ r ∈ (joiningOperations.foldl perform (free 0x100000000)).reservations,
        r.owner ≠ .guard := by decide +kernel
    exact hother r hr howner
  obtain ⟨m', hm'⟩ : ∃ m', (joiningOperations.foldl perform (free 0x100000000)).reserve 1 0xfff
      .guard = .ok m' := ⟨_, eq_ok_get (by decide +kernel)⟩
  obtain ⟨-, hok, -⟩ := hreserve 1 0xfff .guard hnew
  obtain ⟨-, howner, hundone, -⟩ := hok m' hm'
  obtain ⟨-, -, herror⟩ := hreserve 0xffffffff 2 .guard hnew
  refine ⟨m', hnew, hm', (howner _).trans (if_pos (by decide)), hundone,
    herror (.noSpace (some 0xffffffff) 2) (by decide +kernel), ?_⟩
  exact (hrelease 0x2000).2 (by decide +kernel)

end ElfLoader.AddressMap
