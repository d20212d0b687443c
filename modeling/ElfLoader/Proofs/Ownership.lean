import ElfLoader.Proofs.Alignment
import ElfLoader.Space.AddressMap

/-!
# Owners of addresses

An address map is a list of reservations, but what counts is who owns an address,
`ElfLoader.AddressMap.ownerOf?`. As long as the reservations are in order
(`ElfLoader.AddressMap.WellOrdered`), the two ways to reserve are told by it:

* a reservation gives its addresses to its owner and leaves all others alone
  (`ElfLoader.AddressMap.ownerIn_insert`);
* `ElfLoader.AddressMap.reserve` needs addresses that nobody owns
  (`ElfLoader.AddressMap.reserve_eq_ok`);
* `ElfLoader.AddressMap.reserveAnywhere` takes the lowest aligned address with enough
  addresses behind it that nobody owns (`ElfLoader.AddressMap.reserveAnywhere_eq_ok`).
-/

namespace ElfLoader.AddressMap

/-! ### Owners in a list of reservations -/

/-- Who owns an address among reservations. -/
def ownerIn (rs : List Reservation) (address : Nat) : Option Owner :=
  (rs.find? fun r => r.start ≤ address && address < r.stop).map (·.owner)

theorem ownerOf?_eq (m : AddressMap) (address : Nat) :
    m.ownerOf? address = ownerIn m.reservations address := rfl

@[simp] theorem ownerIn_nil (address : Nat) : ownerIn [] address = none := rfl

theorem ownerIn_cons (r : Reservation) (rs : List Reservation) (address : Nat) :
    ownerIn (r :: rs) address =
      if r.start ≤ address ∧ address < r.stop then some r.owner else ownerIn rs address := by
  unfold ownerIn
  by_cases h : r.start ≤ address ∧ address < r.stop
  · rw [if_pos h, List.find?_cons_of_pos (by simpa using h), Option.map_some]
  · rw [if_neg h, List.find?_cons_of_neg (by simpa using h)]

/-- **Reservations in address order** from `start` on and below `size`: none of them is
empty, and none reaches into the next one. -/
def Ordered (size start : Nat) : List Reservation → Prop
  | [] => start ≤ size
  | r :: rest => start ≤ r.start ∧ r.start < r.stop ∧ Ordered size r.stop rest

/-- Reservations in order are in order from any earlier address on. -/
theorem Ordered.of_le {size start start' : Nat} {rs : List Reservation}
    (h : Ordered size start rs) (hle : start' ≤ start) : Ordered size start' rs := by
  cases rs with
  | nil => exact hle.trans h
  | cons r rest => exact ⟨hle.trans h.1, h.2⟩

/-- Reservations in order leave room for all of them. -/
theorem Ordered.start_le_size {size start : Nat} {rs : List Reservation}
    (h : Ordered size start rs) : start ≤ size := by
  induction rs generalizing start with
  | nil => exact h
  | cons r rest ih => exact (h.1.trans h.2.1.le).trans (ih h.2.2)

/-- What is owned lies within the bounds of the reservations. -/
theorem Ordered.bounds {size start a : Nat} {rs : List Reservation} {o : Owner}
    (h : Ordered size start rs) (ha : ownerIn rs a = some o) : start ≤ a ∧ a < size := by
  induction rs generalizing start with
  | nil => simp at ha
  | cons r rest ih =>
    obtain ⟨hstart, hne, hrest⟩ := h
    rw [ownerIn_cons] at ha
    split at ha
    · next hin => exact ⟨hstart.trans hin.1, hin.2.trans_le hrest.start_le_size⟩
    · obtain ⟨hlow, hhigh⟩ := ih hrest ha
      exact ⟨by omega, hhigh⟩

/-- A stretch of addresses is free among reservations if nobody owns any of them. -/
def FreeIn (rs : List Reservation) (start stop : Nat) : Prop :=
  ∀ a, start ≤ a → a < stop → ownerIn rs a = none

/-- A free stretch lies to one side of a reservation. -/
theorem FreeIn.left_or_right {r : Reservation} {rest : List Reservation} {start stop : Nat}
    (h : FreeIn (r :: rest) start stop) (hr : r.start < r.stop) (hlt : start < stop) :
    stop ≤ r.start ∨ r.stop ≤ start := by
  by_contra hcon
  -- the first address that both have would be free and owned
  have ha := h (max start r.start) (by omega) (by omega)
  rw [ownerIn_cons, if_pos (by omega)] at ha
  cases ha

/-- What is free among reservations is free among those that are left of them. -/
theorem FreeIn.tail {r : Reservation} {rest : List Reservation} {start stop : Nat}
    (h : FreeIn (r :: rest) start stop) : FreeIn rest start stop := by
  intro a h1 h2
  have ha := h a h1 h2
  rw [ownerIn_cons] at ha
  split at ha
  · cases ha
  · exact ha

/-- A stretch behind a reservation is free if it is free among the others. -/
theorem FreeIn.cons {r : Reservation} {rest : List Reservation} {start stop : Nat}
    (h : FreeIn rest start stop) (hr : r.stop ≤ start) : FreeIn (r :: rest) start stop := by
  intro a h1 h2
  rw [ownerIn_cons, if_neg (by omega)]
  exact h a h1 h2

/-- Whether a reservation meets a stretch can be told from the owners. -/
theorem any_meets_eq_false_iff {size from_ start stop : Nat} {rs : List Reservation}
    (h : Ordered size from_ rs) (hlt : start < stop) :
    (rs.any fun r => r.meets start stop) = false ↔ FreeIn rs start stop := by
  induction rs generalizing from_ with
  | nil => simp [FreeIn]
  | cons r rest ih =>
    obtain ⟨-, hne, hrest⟩ := h
    rw [List.any_cons, Bool.or_eq_false_iff, ih hrest]
    have hmeets : r.meets start stop = false ↔ stop ≤ r.start ∨ r.stop ≤ start := by
      simp only [Reservation.meets, Bool.and_eq_false_iff, decide_eq_false_iff_not]
      omega
    rw [hmeets]
    constructor
    · rintro ⟨hside, hfree⟩ a h1 h2
      rw [ownerIn_cons, if_neg (by omega)]
      exact hfree a h1 h2
    · exact fun hfree => ⟨hfree.left_or_right hne hlt, hfree.tail⟩

/-! ### Adding a reservation -/

section Insert

variable {size start : Nat} {r s : Reservation} {rs rest : List Reservation}

/-- What a joined reservation takes is free behind it. -/
theorem FreeIn.join (h : Ordered size start (s :: rest))
    (hfree : FreeIn (s :: rest) r.start r.stop) (hjoin : s.stop = r.start) :
    FreeIn rest s.start r.stop := by
  intro a h1 h2
  rcases Nat.lt_or_ge a r.start with hlt | hge
  · -- the address is one of the joined reservation's own, and the others start behind it
    by_contra hcon
    obtain ⟨o, ho⟩ := Option.ne_none_iff_exists'.1 hcon
    have hlow := (h.2.2.bounds ho).1
    omega
  · exact hfree.tail a hge h2

/-- Reservations stay in order when one is added in a free place. -/
theorem Ordered.insert (h : Ordered size start rs) (hstart : start ≤ r.start)
    (hne : r.start < r.stop) (hsize : r.stop ≤ size) (hfree : FreeIn rs r.start r.stop) :
    Ordered size start (insert r rs) := by
  fun_induction AddressMap.insert r rs generalizing start with
  | case1 r => exact ⟨hstart, hne, hsize⟩
  | case2 r s rest hjoin ih =>
    -- the two become one, which is added to what is left
    have hfree' := hfree.join h hjoin.1
    obtain ⟨hs, hsne, hrest⟩ := h
    exact ih (hrest.of_le (by omega)) hs (hsne.trans (hjoin.1 ▸ hne)) hsize hfree'
  | case3 r s rest hno hjoin =>
    obtain ⟨hs, hsne, hrest⟩ := h
    exact ⟨hstart, hne.trans (hjoin.1 ▸ hsne), hrest⟩
  | case4 r s rest hno hno' hbefore => exact ⟨hstart, hne, hbefore, h.2⟩
  | case5 r s rest hno hno' hafter ih =>
    -- it is not in front of the first one, so it is behind it
    obtain ⟨hs, hsne, hrest⟩ := h
    have hside := (hfree.left_or_right hsne hne).resolve_left hafter
    exact ⟨hs, hsne, ih hrest hside hne hsize hfree.tail⟩

/-- **What a reservation does**: its addresses belong to its owner from now on, and all
others to whom they belonged. -/
theorem ownerIn_insert (h : Ordered size start rs) (hne : r.start < r.stop)
    (hfree : FreeIn rs r.start r.stop) (a : Nat) :
    ownerIn (insert r rs) a =
      if r.start ≤ a ∧ a < r.stop then some r.owner else ownerIn rs a := by
  fun_induction AddressMap.insert r rs generalizing start with
  | case1 r => rw [ownerIn_cons]
  | case2 r s rest hjoin ih =>
    have hfree' := hfree.join h hjoin.1
    obtain ⟨hs, hsne, hrest⟩ := h
    obtain ⟨hstop, howner⟩ := hjoin
    rw [ih hrest (hsne.trans (hstop ▸ hne)) hfree', ownerIn_cons, howner]
    dsimp only
    split_ifs <;> first | rfl | omega
  | case3 r s rest hno hjoin =>
    obtain ⟨hstop, howner⟩ := hjoin
    have hsne := h.2.1
    rw [ownerIn_cons, ownerIn_cons, howner]
    dsimp only
    split_ifs <;> first | rfl | omega
  | case4 r s rest hno hno' hbefore => rw [ownerIn_cons]
  | case5 r s rest hno hno' hafter ih =>
    obtain ⟨hs, hsne, hrest⟩ := h
    have hside := (hfree.left_or_right hsne hne).resolve_left hafter
    rw [ownerIn_cons, ownerIn_cons, ih hrest hne hfree.tail]
    split_ifs <;> first | rfl | omega

end Insert

/-! ### Where a stretch fits -/

/-- **A stretch of `room` addresses fits at an address** among reservations: the address
is a multiple of the grain, and the stretch is free and within the bounds. -/
structure FitsIn (grain room size : Nat) (rs : List Reservation) (address : Nat) : Prop where
  /-- The address is aligned. -/
  aligned : grain ∣ address
  /-- The stretch ends within the bounds. -/
  within : address + room ≤ size
  /-- Nobody owns any of it. -/
  free : FreeIn rs address (address + room)

section Fits

variable {grain room size start : Nat} {r : Reservation} {rest rs : List Reservation}

/-- Where the gap before a reservation is too small, whatever fits does so behind the
reservation. -/
theorem fitsIn_cons_iff (h : Ordered size start (r :: rest)) (hroom : 0 < room)
    (hsmall : ¬ alignUp start grain + room ≤ r.start) (x : Nat) :
    start ≤ x ∧ FitsIn grain room size (r :: rest) x ↔
      r.stop ≤ x ∧ FitsIn grain room size rest x := by
  obtain ⟨hs, hne, -⟩ := h
  constructor
  · rintro ⟨hx, hal, hwithin, hfree⟩
    rcases hfree.left_or_right hne (by omega) with hleft | hright
    · -- then it would fit at the first aligned address of the gap
      have := alignUp_le hal hx
      omega
    · exact ⟨hright, hal, hwithin, hfree.tail⟩
  · rintro ⟨hx, hal, hwithin, hfree⟩
    exact ⟨by omega, hal, hwithin, hfree.cons hx⟩

/-- The first gap decides if it is large enough. -/
theorem isLeast_fitsIn_cons (h : Ordered size start (r :: rest)) (hgrain : 0 < grain)
    (hlarge : alignUp start grain + room ≤ r.start) :
    IsLeast {x | start ≤ x ∧ FitsIn grain room size (r :: rest) x} (alignUp start grain) := by
  obtain ⟨hs, hne, hrest⟩ := h
  have hsize := hrest.start_le_size
  refine ⟨⟨le_alignUp hgrain, dvd_alignUp start grain, by omega, ?_⟩,
    fun x hx => alignUp_le hx.2.aligned hx.1⟩
  intro a h1 h2
  rw [ownerIn_cons, if_neg (by omega)]
  -- whatever comes behind the first reservation owns only what is behind it
  by_contra hcon
  obtain ⟨o, ho⟩ := Option.ne_none_iff_exists'.1 hcon
  have hlow := (hrest.bounds ho).1
  omega

/-- A gap is used if the first aligned address in it leaves enough room. -/
theorem findSome?_gap {stop : Nat} (hgrain : 0 < grain) (hroom : 0 < room) :
    (if start < stop then [(start, stop)] else []).findSome? (fit? grain room) =
      if alignUp start grain + room ≤ stop then some (alignUp start grain) else none := by
  have hle := le_alignUp (n := start) hgrain
  by_cases hlt : start < stop
  · rw [if_pos hlt, List.findSome?_singleton, fit?]
  · rw [if_neg hlt, List.findSome?_nil, if_neg (by omega)]

/-- **The search through the gaps finds the lowest address that fits**, and nothing only
if nothing fits. -/
theorem findSome?_gaps_eq_some_iff (h : Ordered size start rs) (hgrain : 0 < grain)
    (hroom : 0 < room) (x : Nat) :
    (gaps size start rs).findSome? (fit? grain room) = some x ↔
      IsLeast {y | start ≤ y ∧ FitsIn grain room size rs y} x := by
  induction rs generalizing start with
  | nil =>
    rw [gaps, findSome?_gap hgrain hroom]
    split
    · next hlarge =>
      have hleast : IsLeast {y | start ≤ y ∧ FitsIn grain room size [] y}
          (alignUp start grain) :=
        ⟨⟨le_alignUp hgrain, dvd_alignUp start grain, hlarge, fun _ _ _ => rfl⟩,
          fun y hy => alignUp_le hy.2.aligned hy.1⟩
      exact ⟨fun he => Option.some.inj he ▸ hleast, fun hx => congrArg some (hleast.unique hx)⟩
    · next hsmall =>
      refine ⟨fun he => (nomatch he), ?_⟩
      intro hx
      refine absurd ?_ hsmall
      have hle := alignUp_le hx.1.2.aligned hx.1.1
      have hwithin := hx.1.2.within
      omega
  | cons r rest ih =>
    rw [gaps, List.findSome?_append, findSome?_gap hgrain hroom]
    split
    · next hlarge =>
      have hleast := isLeast_fitsIn_cons h hgrain hlarge
      rw [Option.some_or]
      exact ⟨fun he => Option.some.inj he ▸ hleast, fun hx => congrArg some (hleast.unique hx)⟩
    · next hsmall =>
      rw [Option.none_or, ih h.2.2]
      simp only [fitsIn_cons_iff h hroom hsmall]

end Fits

/-! ### The two ways to reserve -/

/-- The reservations of a map are in order and within its bounds. -/
def WellOrdered (m : AddressMap) : Prop := Ordered m.size 0 m.reservations

theorem wellOrdered_free (size : Nat) : (free size).WellOrdered := Nat.zero_le size

theorem room_pos (size : UInt32) : 0 < room size := by
  unfold room
  omega

theorem grain_pos (alignment : UInt32) : 0 < grain alignment := nextPowerOfTwo_pos _

/-- The grain of an alignment that is a power of two is the alignment itself. -/
theorem grain_eq {alignment : UInt32} (h : isPowerOfTwo alignment.toNat) :
    grain alignment = alignment.toNat := by
  rw [grain, Nat.max_eq_left (pos_of_isPowerOfTwo h), nextPowerOfTwo_of_isPowerOfTwo h]

/-- A stretch fits at an address of a map. -/
def Fits (m : AddressMap) (grain room address : Nat) : Prop :=
  FitsIn grain room m.size m.reservations address

/-- **A reservation has been added to a map**: it was free, it is owned now, and all else
is as it was. -/
structure Reserved (m : AddressMap) (start room : Nat) (owner : Owner) (m' : AddressMap) :
    Prop where
  /-- The bounds stay. -/
  size_eq : m'.size = m.size
  /-- The reservation lies within them. -/
  within : start + room ≤ m.size
  /-- Nobody owned it before. -/
  free : ∀ a, start ≤ a → a < start + room → m.ownerOf? a = none
  /-- It is owned now, and nothing else changes hands. -/
  ownerOf?_eq : ∀ a, m'.ownerOf? a =
    if start ≤ a ∧ a < start + room then some owner else m.ownerOf? a
  /-- The order is kept. -/
  wellOrdered : m'.WellOrdered

/-- Adding a reservation in a free place. -/
theorem WellOrdered.reserved {m : AddressMap} (h : m.WellOrdered) {start room : Nat}
    (hroom : 0 < room) (hwithin : start + room ≤ m.size)
    (hfree : FreeIn m.reservations start (start + room)) (owner : Owner) :
    Reserved m start room owner
      { m with reservations := insert ⟨start, start + room, owner⟩ m.reservations } where
  size_eq := rfl
  within := hwithin
  free := hfree
  ownerOf?_eq a := ownerIn_insert h (r := ⟨start, start + room, owner⟩) (by simpa using hroom)
    hfree a
  wellOrdered := Ordered.insert h (Nat.zero_le _) (by simpa using hroom) hwithin hfree

/-- The map with one more reservation. -/
def withReservation (m : AddressMap) (start room : Nat) (owner : Owner) : AddressMap :=
  { m with reservations := insert ⟨start, start + room, owner⟩ m.reservations }

/-- Certain addresses can be reserved if they are within the bounds and free. -/
theorem reserve_eq_ok_iff {m m' : AddressMap} {start size : UInt32} {owner : Owner}
    (h : m.WellOrdered) : m.reserve start size owner = .ok m' ↔
      start.toNat + room size ≤ m.size ∧
        FreeIn m.reservations start.toNat (start.toNat + room size) ∧
        m.withReservation start.toNat (room size) owner = m' := by
  have hlt : start.toNat < start.toNat + room size := Nat.lt_add_of_pos_right (room_pos size)
  have hmeets := any_meets_eq_false_iff h hlt
  unfold reserve
  dsimp only
  split
  · next hcond =>
    simp only [reduceCtorEq, false_iff, not_and]
    rintro hwithin hfree -
    rcases hcond with hsize | hany
    · omega
    · rw [hmeets.2 hfree] at hany
      cases hany
  · next hcond =>
    rw [not_or, Bool.not_eq_true, hmeets, Nat.not_lt] at hcond
    simp only [Except.ok.injEq, hcond, true_and]
    rfl

/-- A reservation anywhere goes to the lowest address that fits, if there is one. -/
theorem reserveAnywhere_eq_ok_iff {m m' : AddressMap} {start size alignment : UInt32}
    {owner : Owner} (h : m.WellOrdered) : m.reserveAnywhere size alignment owner = .ok (start, m') ↔
      ∃ x, IsLeast {x | m.Fits (grain alignment) (room size) x} x ∧ UInt32.ofNat x = start ∧
        m.withReservation x (room size) owner = m' := by
  have hleast (x : Nat) := findSome?_gaps_eq_some_iff h (grain_pos alignment) (room_pos size) x
  simp only [Nat.zero_le, true_and] at hleast
  unfold reserveAnywhere
  split
  · next x hx =>
    have hx := (hleast x).1 hx
    simp only [Except.ok.injEq, Prod.mk.injEq]
    constructor
    · rintro ⟨hstart, hm⟩
      exact ⟨x, hx, hstart, hm⟩
    · rintro ⟨y, hy, hstart, hm⟩
      obtain rfl := hx.unique hy
      exact ⟨hstart, hm⟩
  · next hnone =>
    simp only [reduceCtorEq, false_iff, not_exists, not_and]
    intro x hx
    rw [(hleast x).2 hx] at hnone
    cases hnone

/-- **Reserving certain addresses** gives them to the owner if it succeeds. -/
theorem reserve_eq_ok {m m' : AddressMap} {start size : UInt32} {owner : Owner}
    (h : m.WellOrdered) (hr : m.reserve start size owner = .ok m') :
    Reserved m start.toNat (room size) owner m' := by
  obtain ⟨hwithin, hfree, rfl⟩ := (reserve_eq_ok_iff h).1 hr
  exact h.reserved (room_pos size) hwithin hfree owner

/-- **Reserving anywhere** takes the lowest aligned addresses that are free, and nothing
is lost in 32 bits. -/
theorem reserveAnywhere_eq_ok {m m' : AddressMap} {start size alignment : UInt32}
    {owner : Owner} (h : m.WellOrdered) (hsize : m.size ≤ 4294967296)
    (hr : m.reserveAnywhere size alignment owner = .ok (start, m')) :
    IsLeast {x | m.Fits (grain alignment) (room size) x} start.toNat ∧
      Reserved m start.toNat (room size) owner m' := by
  obtain ⟨x, hleast, rfl, rfl⟩ := (reserveAnywhere_eq_ok_iff h).1 hr
  have hroom := room_pos size
  have hwithin := hleast.1.within
  have hx : (UInt32.ofNat x).toNat = x := by
    rw [UInt32.toNat_ofNat']
    exact Nat.mod_eq_of_lt (by omega)
  rw [hx]
  exact ⟨hleast, h.reserved hroom hwithin hleast.1.free owner⟩

end ElfLoader.AddressMap
