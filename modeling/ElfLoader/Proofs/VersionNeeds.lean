import ElfLoader.Proofs.Opening
import ElfLoader.Proofs.Turns

/-!
# Needs that are not met

An object may need versions from the libraries that are loaded with it, and each of them has to
be there, unless the object or the library is excused (`ElfLoader.VersionTable.Satisfies`). The
check goes from place to place (`ElfLoader.NeedPlace`), through the objects in load order and the
needs of each by version index. So it is a search for the first need that is not met
(`ElfLoader.ObjectGraph.Unmet`): a graph without any is *compatible*
(`ElfLoader.ObjectGraph.Compatible`), and else the first one is what the error names.

Nothing gets past the second phase without this check (`ElfLoader.Loader.Checked`).
-/

namespace ElfLoader

/-! ### When a need is met -/

namespace VersionTable

variable {t : VersionTable} {version : String} {need : VersionNeed}

/-- **A library satisfies a need** in one of three ways. -/
inductive Satisfies (t : VersionTable) (need : VersionNeed) : Prop where
  /-- The version may be missing. -/
  | weak (excused : need.weak = true)
  /-- The library defines nothing at all, not even its own name. -/
  | unversioned (nothing : ∀ index : UInt16, t.definitions[index]? = none)
  /-- The library defines the version, and not as its own name. -/
  | defined {index : UInt16} {d : VersionDefinition} (found : t.definitions[index]? = some d)
    (proper : d.isBase = false) (same : d.name = need.name)

theorem defines_iff : t.defines version = true ↔
    ∃ (index : UInt16) (d : VersionDefinition), t.definitions[index]? = some d ∧
      d.isBase = false ∧ d.name = version := by
  simp [defines, List.any_eq_true, Std.TreeMap.mem_toList_iff_getElem?_eq_some]

theorem isUnversioned_iff : t.isUnversioned = true ↔
    ∀ index : UInt16, t.definitions[index]? = none := by
  rw [isUnversioned, Std.TreeMap.isEmpty_iff_forall_not_mem]
  simp

/-- The three ways are those that the check goes by. -/
theorem satisfies_iff : t.Satisfies need ↔
    t.defines need.name = true ∨ (need.weak || t.isUnversioned) = true := by
  rw [Bool.or_eq_true, defines_iff, isUnversioned_iff]
  constructor
  · rintro (h | h | ⟨hfound, hproper, hsame⟩)
    · exact .inr (.inl h)
    · exact .inr (.inr h)
    · exact .inl ⟨_, _, hfound, hproper, hsame⟩
  · rintro (⟨index, d, hfound, hproper, hsame⟩ | h | h)
    · exact .defined hfound hproper hsame
    · exact .weak h
    · exact .unversioned h

end VersionTable

namespace ObjectGraph

variable {g : ObjectGraph} {asker library : Node} {need : VersionNeed} {e : LoadError}

/-- Checking a single need fails if the library does not satisfy it. An excuse gives no more than a
notice. -/
theorem result_checkNeed (asker library : Node) (need : VersionNeed) :
    (library.object.versions.Satisfies need ∧ (checkNeed asker library need).result = .ok ()) ∨
      ¬ library.object.versions.Satisfies need ∧ (checkNeed asker library need).result =
        .error (.versionMismatch none need.name library.name asker.name) := by
  rw [VersionTable.satisfies_iff, checkNeed]
  split
  · next hdefined => exact .inl ⟨.inl hdefined, rfl⟩
  · next hmissing =>
    split
    · next hexcused => exact .inl ⟨.inr hexcused, rfl⟩
    · next hrequired => exact .inr ⟨not_or.2 ⟨hmissing, hrequired⟩, rfl⟩

theorem libraryFor?_eq_some_iff : g.libraryFor? need = some library ↔
    ∃ key, g.find? need.file = some key ∧ g.get? key = some library := by
  rw [libraryFor?, Option.bind_eq_some_iff]

/-! ### One need after the other -/

/-- The library that a need names satisfies it, if it is loaded. -/
def Provides (g : ObjectGraph) (need : VersionNeed) : Prop :=
  ∀ library, g.libraryFor? need = some library → library.object.versions.Satisfies need

/-- A need of an object is not met, and this is the error that says so. -/
inductive Refuses (g : ObjectGraph) : Node × VersionNeed → LoadError → Prop
  /-- The library that the need names is loaded, and does not satisfy it. -/
  | lacking {asker library : Node} {need : VersionNeed}
    (named : g.libraryFor? need = some library)
    (unsatisfied : ¬ library.object.versions.Satisfies need) :
    Refuses g (asker, need) (.versionMismatch none need.name library.name asker.name)

variable {w : Node × VersionNeed} {works : List (Node × VersionNeed)}

theorem Refuses.not_provides (h : g.Refuses w e) : ¬ g.Provides w.2 := by
  obtain ⟨hnamed, hunsatisfied⟩ := h
  exact fun hprovides => hunsatisfied (hprovides _ hnamed)

/-- A need has no two errors. -/
theorem Refuses.eq {e' : LoadError} (h : g.Refuses w e) (h' : g.Refuses w e') : e = e' := by
  obtain ⟨hnamed, -⟩ := h
  obtain ⟨hnamed', -⟩ := h'
  rw [hnamed] at hnamed'
  cases hnamed'
  rfl

/-- **The first of the needs is met**, and the others come next, or it decides. -/
theorem result_checkAll_cons (g : ObjectGraph) (w : Node × VersionNeed)
    (rest : List (Node × VersionNeed)) :
    (g.Provides w.2 ∧ (g.checkAll (w :: rest)).result = (g.checkAll rest).result) ∨
      ∃ e, g.Refuses w e ∧ (g.checkAll (w :: rest)).result = .error e := by
  obtain ⟨asker, need⟩ := w
  rw [checkAll]
  cases hlibrary : g.libraryFor? need with
  | none =>
    refine .inl ⟨fun library h => ?_, rfl⟩
    cases hlibrary.symm.trans h
  | some library =>
    dsimp only
    rw [Report.result_bind]
    rcases result_checkNeed asker library need with ⟨hmet, hok⟩ | ⟨hunmet, herror⟩
    · refine .inl ⟨fun other h => ?_, by rw [hok]; rfl⟩
      cases hlibrary.symm.trans h
      exact hmet
    · exact .inr ⟨_, .lacking hlibrary hunmet, by rw [herror]; rfl⟩

/-- The check succeeds if all needs are met. -/
theorem result_checkAll_eq_ok_iff :
    (g.checkAll works).result = .ok () ↔ ∀ w ∈ works, g.Provides w.2 := by
  induction works with
  | nil => simp [checkAll]
  | cons w rest ih =>
    rw [List.forall_mem_cons, ← ih]
    rcases result_checkAll_cons g w rest with ⟨hprovides, heq⟩ | ⟨e, hrefuses, heq⟩
    · rw [heq, and_iff_right hprovides]
    · rw [heq]
      constructor
      · rintro ⟨⟩
      · exact fun h => absurd h.1 hrefuses.not_provides

/-- **The check fails at the first need that is not met.** -/
theorem result_checkAll_eq_error_iff : (g.checkAll works).result = .error e ↔
    ∃ before w behind, works = before ++ w :: behind ∧ (∀ v ∈ before, g.Provides v.2) ∧
      g.Refuses w e := by
  induction works with
  | nil => simp [checkAll]
  | cons w rest ih =>
    rcases result_checkAll_cons g w rest with ⟨hprovides, heq⟩ | ⟨e', hrefuses, heq⟩
    · rw [heq, ih]
      constructor
      · rintro ⟨before, v, behind, rfl, hbefore, hv⟩
        exact ⟨w :: before, v, behind, rfl, List.forall_mem_cons.2 ⟨hprovides, hbefore⟩, hv⟩
      · rintro ⟨_ | ⟨u, before⟩, v, behind, hsplit, hbefore, hv⟩
        · obtain ⟨rfl, -⟩ := List.cons.inj hsplit
          exact absurd hprovides hv.not_provides
        · obtain ⟨rfl, rfl⟩ := List.cons.inj hsplit
          exact ⟨before, v, behind, rfl, (List.forall_mem_cons.1 hbefore).2, hv⟩
    · rw [heq]
      constructor
      · rintro ⟨⟩
        exact ⟨[], w, rest, rfl, fun v hv => absurd hv List.not_mem_nil, hrefuses⟩
      · rintro ⟨_ | ⟨u, before⟩, v, behind, hsplit, hbefore, hv⟩
        · obtain ⟨rfl, -⟩ := List.cons.inj hsplit
          rw [hrefuses.eq hv]
        · obtain ⟨rfl, -⟩ := List.cons.inj hsplit
          exact absurd (hbefore w List.mem_cons_self) hrefuses.not_provides

end ObjectGraph

/-! ### Places -/

/-- A place where an object may have a need. -/
structure NeedPlace where
  /-- The position of the object in load order. -/
  position : Nat
  /-- The version index of the need. -/
  index : UInt16

/-- **Places come in load order**, and those of one object by version index. -/
def NeedPlace.Before (p q : NeedPlace) : Prop :=
  p.position < q.position ∨ p.position = q.position ∧ p.index < q.index

theorem NeedPlace.Before.asymm {p q : NeedPlace} (h : p.Before q) : ¬ q.Before p := by
  rcases h with h | ⟨h, hindex⟩
  · rintro (h' | ⟨h', -⟩) <;> omega
  · rintro (h' | ⟨-, hindex'⟩)
    · omega
    · exact absurd hindex (UInt16.lt_asymm hindex')

namespace ObjectGraph

variable {g : ObjectGraph} {asker library : Node} {need : VersionNeed} {e : LoadError}
  {place : NeedPlace}

/-- An object has a need at a place. -/
structure NeedAt (g : ObjectGraph) (place : NeedPlace) (asker : Node) (need : VersionNeed) :
    Prop where
  /-- The object is at the position. -/
  asker_eq : g.nodes[place.position]? = some asker
  /-- The need is at the version index. -/
  need_eq : asker.object.versions.needs[place.index]? = some need

/-- All needs with their places. -/
def placedNeeds (g : ObjectGraph) : List (NeedPlace × Node × VersionNeed) :=
  g.toList.zipIdx.flatMap fun n =>
    n.1.object.versions.needs.toList.map fun d => (⟨n.2, d.1⟩, n.1, d.2)

theorem mem_placedNeeds_iff :
    (place, asker, need) ∈ g.placedNeeds ↔ g.NeedAt place asker need := by
  constructor
  · intro h
    obtain ⟨⟨n, i⟩, hn, h⟩ := List.mem_flatMap.1 h
    obtain ⟨⟨index, d⟩, hd, h⟩ := List.mem_map.1 h
    cases h
    exact ⟨(getElem?_toList g i).symm.trans (List.mem_zipIdx_iff_getElem?.1 hn),
      Std.TreeMap.mem_toList_iff_getElem?_eq_some.1 hd⟩
  · rintro ⟨hasker, hneed⟩
    refine List.mem_flatMap.2 ⟨(asker, place.position), ?_, List.mem_map.2 ⟨(place.index, need),
      Std.TreeMap.mem_toList_iff_getElem?_eq_some.2 hneed, rfl⟩⟩
    exact List.mem_zipIdx_iff_getElem?.2 ((getElem?_toList g _).trans hasker)

/-- The check comes to all places. -/
theorem map_snd_placedNeeds (g : ObjectGraph) : g.placedNeeds.map Prod.snd = g.needs := by
  have hlist : g.toList = g.toList.zipIdx.map Prod.fst := by simp
  rw [placedNeeds, needs, List.map_flatMap, hlist, List.flatMap_map, ← hlist]
  congr 1
  funext n
  rw [List.map_map]
  rfl

/-- **The check comes to the places in their order.** -/
theorem pairwise_placedNeeds (g : ObjectGraph) :
    g.placedNeeds.Pairwise fun a b => a.1.Before b.1 := by
  refine List.pairwise_flatMap.2 ⟨fun n _ => ?_, ?_⟩
  · refine List.pairwise_map.2 (Std.TreeMap.ordered_keys_toList.imp ?_)
    exact fun h => .inr ⟨rfl, Std.compare_eq_lt.1 h⟩
  · have hpositions : g.toList.zipIdx.Pairwise fun m n => m.2 < n.2 := by
      rw [← List.pairwise_map (f := Prod.snd) (R := fun i j => i < j), List.zipIdx_map_snd]
      exact List.pairwise_lt_range'
    refine hpositions.imp fun {m n} hlt a ha b hb => ?_
    obtain ⟨_, -, rfl⟩ := List.mem_map.1 ha
    obtain ⟨_, -, rfl⟩ := List.mem_map.1 hb
    exact .inl hlt

/-- In the order of places, those before one of them are those that stand left of it. -/
theorem mem_left_iff {before behind : List (NeedPlace × Node × VersionNeed)}
    {a b : NeedPlace × Node × VersionNeed}
    (h : (before ++ a :: behind).Pairwise fun a b => a.1.Before b.1) :
    b ∈ before ↔ b ∈ before ++ a :: behind ∧ b.1.Before a.1 := by
  obtain ⟨-, hbehind, hbefore⟩ := List.pairwise_append.1 h
  constructor
  · exact fun hb => ⟨List.mem_append_left _ hb, hbefore b hb a List.mem_cons_self⟩
  · rintro ⟨hb, hearlier⟩
    rcases List.mem_append.1 hb with hb | hb
    · exact hb
    · rcases List.mem_cons.1 hb with rfl | hb
      · exact absurd hearlier hearlier.asymm
      · exact absurd hearlier ((List.pairwise_cons.1 hbehind).1 b hb).asymm

/-- **A graph is compatible**: whatever an object needs from a library that is loaded, the library
satisfies. The library may go by any of its names. -/
def Compatible (g : ObjectGraph) : Prop :=
  ∀ place asker need, g.NeedAt place asker need → ∀ key library,
    g.find? need.file = some key → g.get? key = some library →
      library.object.versions.Satisfies need

/-- **A need is not met**: it is a need from a library that is loaded and does not satisfy it. -/
structure Unmet (g : ObjectGraph) (place : NeedPlace) (asker : Node) (need : VersionNeed)
    (library : Node) : Prop extends g.NeedAt place asker need where
  /-- The library goes by the name. -/
  named : ∃ key, g.find? need.file = some key ∧ g.get? key = some library
  /-- It does not satisfy the need. -/
  unsatisfied : ¬ library.object.versions.Satisfies need

theorem provides_iff : g.Provides need ↔ ∀ key library, g.find? need.file = some key →
    g.get? key = some library → library.object.versions.Satisfies need := by
  constructor
  · exact fun h key library hkey hlibrary =>
      h library (libraryFor?_eq_some_iff.2 ⟨key, hkey, hlibrary⟩)
  · intro h library hlibrary
    obtain ⟨key, hkey, hlibrary⟩ := libraryFor?_eq_some_iff.1 hlibrary
    exact h key library hkey hlibrary

/-- **The check succeeds for the compatible graphs.** -/
theorem result_checkNeeds_eq_ok_iff : g.checkNeeds.result = .ok () ↔ g.Compatible := by
  rw [checkNeeds, result_checkAll_eq_ok_iff, ← map_snd_placedNeeds]
  constructor
  · intro h place asker need hneed
    exact provides_iff.1 (h _ (List.mem_map_of_mem (mem_placedNeeds_iff.2 hneed)))
  · intro h w hw
    obtain ⟨⟨place, asker, need⟩, hneed, rfl⟩ := List.mem_map.1 hw
    exact provides_iff.2 (h place asker need (mem_placedNeeds_iff.1 hneed))

/-- **The check fails at the first place** where a need is not met, and names the version, the
library and the object that has the need. -/
theorem result_checkNeeds_eq_error_iff : g.checkNeeds.result = .error e ↔
    ∃ place asker need library, g.Unmet place asker need library ∧
      (∀ place' asker' need' library', place'.Before place →
        ¬ g.Unmet place' asker' need' library') ∧
      e = .versionMismatch none need.name library.name asker.name := by
  have hordered := pairwise_placedNeeds g
  rw [checkNeeds, result_checkAll_eq_error_iff, ← map_snd_placedNeeds]
  constructor
  · rintro ⟨met, w, behind, hsplit, hmet, hrefuses⟩
    obtain ⟨before, rest, hplaced, rfl, hrest⟩ := List.map_eq_append_iff.1 hsplit
    obtain ⟨⟨place, asker, need⟩, behind, rfl, rfl, rfl⟩ := List.map_eq_cons_iff.1 hrest
    obtain ⟨hnamed, hunsatisfied⟩ := hrefuses
    have hmem : (place, asker, need) ∈ g.placedNeeds :=
      hplaced ▸ List.mem_append_right before List.mem_cons_self
    refine ⟨place, asker, need, _, ⟨mem_placedNeeds_iff.1 hmem, libraryFor?_eq_some_iff.1 hnamed,
      hunsatisfied⟩, ?_, rfl⟩
    rintro place' asker' need' library' hearlier ⟨hneed', hnamed', hunsatisfied'⟩
    have hmem' := mem_placedNeeds_iff.2 hneed'
    rw [hplaced] at hmem' hordered
    have hbefore := (mem_left_iff hordered).2 ⟨hmem', hearlier⟩
    exact hunsatisfied' (hmet _ (List.mem_map_of_mem hbefore) library'
      (libraryFor?_eq_some_iff.2 hnamed'))
  · rintro ⟨place, asker, need, library, hunmet, hfirst, rfl⟩
    obtain ⟨before, behind, hplaced⟩ := List.append_of_mem (mem_placedNeeds_iff.2 hunmet.toNeedAt)
    refine ⟨before.map Prod.snd, (asker, need), behind.map Prod.snd, ?_, ?_,
      .lacking (libraryFor?_eq_some_iff.2 hunmet.named) hunmet.unsatisfied⟩
    · rw [hplaced, List.map_append, List.map_cons]
    · intro v hv library' hnamed'
      obtain ⟨⟨place', asker', need'⟩, hbefore, rfl⟩ := List.mem_map.1 hv
      by_contra hunsatisfied'
      rw [hplaced] at hordered
      obtain ⟨hmem', hearlier⟩ := (mem_left_iff hordered).1 hbefore
      rw [← hplaced] at hmem'
      exact hfirst place' asker' need' library' hearlier
        ⟨mem_placedNeeds_iff.1 hmem', libraryFor?_eq_some_iff.1 hnamed', hunsatisfied'⟩

end ObjectGraph

/-! ### The second phase and what comes after it -/

namespace Loader

variable {fs : FileSystem} {l l' l₁ : Loader} {es : List Event}

/-- **The check decides** about the second phase, once all requests have been served. -/
theorem result_loadLibraries_of_served (hphase : l.phase = .initiated)
    (hserve : Stage.Yields (serveAll fs (l.graph.requestsOf (Key.ofNat 0))) l () l₁) :
    ((loadLibraries fs).run l).result = l₁.graph.checkNeeds.result := by
  cases hcheck : l₁.graph.checkNeeds.result with
  | ok u => exact (yields_loadLibraries hphase hserve hcheck).1
  | error e =>
    have henter := run_enter_of_phase hphase "load libraries"
    refine Stage.result_bind_eq_error_iff.2 (.inr ⟨(), congrArg Outcome.result henter, ?_⟩)
    rw [henter]
    refine Stage.result_bind_eq_error_iff.2 (.inr ⟨l, rfl, ?_⟩)
    obtain ⟨hserved, rfl⟩ := hserve
    refine Stage.result_bind_eq_error_iff.2 (.inr ⟨(), hserved, ?_⟩)
    refine Stage.result_bind_eq_error_iff.2 (.inr ⟨_, rfl, ?_⟩)
    exact Stage.result_bind_eq_error_iff.2 (.inl hcheck)

/-- **The second phase succeeds** if all requests are served and all needs are met then. -/
theorem result_loadLibraries_eq_ok_iff (hphase : l.phase = .initiated) :
    ((loadLibraries fs).run l).result = .ok () ↔ ∃ l₁,
      Stage.Yields (serveAll fs (l.graph.requestsOf (Key.ofNat 0))) l () l₁ ∧
        l₁.graph.checkNeeds.result = .ok () := by
  constructor
  · intro hok
    cases hserve : (Stage.run (serveAll fs (l.graph.requestsOf (Key.ofNat 0))) l).result with
    | ok u =>
      exact ⟨_, ⟨hserve, rfl⟩, (result_loadLibraries_of_served hphase ⟨hserve, rfl⟩).symm.trans hok⟩
    | error e => cases (result_loadLibraries_of_error hphase hserve).symm.trans hok
  · rintro ⟨l₁, hserve, hcheck⟩
    exact (result_loadLibraries_of_served hphase hserve).trans hcheck

/-- The graph afterwards is the one that has been checked. -/
theorem graph_loadLibraries_of_served (hphase : l.phase = .initiated)
    (hserve : Stage.Yields (serveAll fs (l.graph.requestsOf (Key.ofNat 0))) l () l₁) :
    ((loadLibraries fs).run l).state.graph = l₁.graph := by
  rw [graph_loadLibraries hphase, hserve.2]

/-- **A loader is checked**: if it is past the second phase, its graph is compatible. -/
def Checked (l : Loader) : Prop :=
  l.phase ∈ [.loaded, .linked, .finalized] → l.graph.Compatible

theorem checked_of_phase (h : l.phase = .created ∨ l.phase = .initiated) : l.Checked := by
  intro hphase
  rcases h with h | h <;> simp [h] at hphase

/-- A call leaves the graph alone if its work does, whatever comes of it. -/
theorem graph_discard_eq {α : Type} {x : Work α}
    (h : x.Ensures l (fun _ l' => l'.graph = l.graph) (fun l' => l'.graph = l.graph)) :
    ((x >>= fun _ => (pure () : Work Unit)).run l).state.graph = l.graph :=
  Stage.Ensures.state (P := fun l' : Loader => l'.graph = l.graph)
    (Stage.ensures_bind h fun _ _ hgraph => Stage.ensures_pure hgraph)

/-- **A call keeps a loader checked**, whether it succeeds, fails, or is refused. -/
theorem Checked.after (h : l.Checked) (c : Call) : (l.after c).Checked := by
  by_cases hturn : l.phase = c.turn
  · cases c with
    | initiate fs path =>
      rcases after_cases l (.initiate fs path) with ⟨-, -, hphase⟩ | ⟨e, -, hphase⟩
      · exact checked_of_phase (.inr hphase)
      · exact checked_of_phase (.inl (hphase.trans hturn))
    | loadLibraries fs =>
      rcases after_cases l (.loadLibraries fs) with ⟨hok, -, -⟩ | ⟨e, -, hphase⟩
      · obtain ⟨l₁, hserve, hcheck⟩ := (result_loadLibraries_eq_ok_iff hturn).1 hok
        have hgraph : (l.after (.loadLibraries fs)).graph = l₁.graph :=
          graph_loadLibraries_of_served hturn hserve
        exact fun _ => hgraph ▸ ObjectGraph.result_checkNeeds_eq_ok_iff.1 hcheck
      · exact checked_of_phase (.inr (hphase.trans hturn))
    | link =>
      have hphase : l.phase = .loaded := hturn
      have hgraph : (l.after .link).graph = l.graph :=
        graph_discard_eq ((ensures_link l).mono (fun _ _ h => h.2.2) fun _ h => h.graph_eq)
      exact fun _ => hgraph ▸ h (by simp [hphase])
    | finalize =>
      have hphase : l.phase = .linked := hturn
      have hgraph : (l.after .finalize).graph = l.graph :=
        graph_discard_eq ((ensures_finalize l).mono (fun _ _ h => h.2.2) fun _ h => h.graph_eq)
      exact fun _ => hgraph ▸ h (by simp [hphase])
  · have hsame : l.after c = l := congrArg Outcome.state (run_work_of_phase_ne hturn)
    rw [hsame]
    exact h

/-- **A history keeps a loader checked.** -/
theorem History.checked (h : History l es l') (hl : l.Checked) : l'.Checked := by
  induction h with
  | start l => exact hl
  | call c _ ih => exact ih (hl.after c)

/-- **The versions that are needed are there**, or loading fails. The check of a graph succeeds if
whatever an object needs from a library that is loaded, under any of its names, is weak, or is
defined there, or the library defines nothing at all; needs from files that are not loaded do not
count. Else it fails at the first need that is not met, in load order and by version index, and
names the version, the library and the object. The second phase succeeds if all requests are
served and the graph passes the check; if the graph does not, the phase fails with the error of the
check. So whatever a user does with a new loader, it has passed the check if it is past the second
phase. -/
theorem checkNeeds_iff_compatible :
    (∀ g : ObjectGraph, (g.checkNeeds.result = .ok () ↔ g.Compatible) ∧
      ∀ e, g.checkNeeds.result = .error e ↔
        ∃ place asker need library, g.Unmet place asker need library ∧
          (∀ place' asker' need' library', place'.Before place →
            ¬ g.Unmet place' asker' need' library') ∧
          e = .versionMismatch none need.name library.name asker.name) ∧
      (∀ (fs : FileSystem) (l : Loader), l.phase = .initiated →
        (((loadLibraries fs).run l).state.phase = .loaded ↔ ∃ l₁,
          Stage.Yields (serveAll fs (l.graph.requestsOf (Key.ofNat 0))) l () l₁ ∧
            l₁.graph.Compatible) ∧
        ∀ l₁, Stage.Yields (serveAll fs (l.graph.requestsOf (Key.ofNat 0))) l () l₁ →
          ((loadLibraries fs).run l).result = l₁.graph.checkNeeds.result ∧
            ((loadLibraries fs).run l).state.graph = l₁.graph) ∧
      ∀ (config : Config) (processor : Processor) (memory : Memory) (actions : List Action),
        ((new config processor memory).afterActions actions).phase ∈
            [.loaded, .linked, .finalized] →
          ((new config processor memory).afterActions actions).graph.Compatible := by
  refine ⟨fun g => ⟨ObjectGraph.result_checkNeeds_eq_ok_iff,
    fun e => ObjectGraph.result_checkNeeds_eq_error_iff⟩, ?_, ?_⟩
  · intro fs l hphase
    refine ⟨?_, fun l₁ hserve => ⟨result_loadLibraries_of_served hphase hserve,
      graph_loadLibraries_of_served hphase hserve⟩⟩
    simp only [← ObjectGraph.result_checkNeeds_eq_ok_iff]
    rw [← result_loadLibraries_eq_ok_iff hphase]
    rcases after_cases l (.loadLibraries fs) with ⟨hok, -, hloaded⟩ | ⟨e, herror, hstays⟩
    · exact iff_of_true hloaded hok
    · refine iff_of_false (fun hloaded => ?_) fun hok => ?_
      · cases hphase.symm.trans (hstays.symm.trans hloaded)
      · cases herror.symm.trans hok
  · intro config processor memory actions
    exact (history_events _ actions).checked (checked_of_phase (.inl rfl))

/-! ### An executable that asks for too much -/

/-- A library that defines the version `M_2` besides its own name `m`. -/
def versionedLibrary : Node := ⟨Key.ofNat 1, "m", { selfNeedingObject with
  versions := { VersionTable.empty with
    definitions := .insert (.insert ∅ 1 ⟨"m", true⟩) 2 ⟨"M_2", false⟩ } }, 0, []⟩

/-- What an executable needs: a version of a library that is not loaded, one that is there, one
that may be missing, the name of a library, and a version that no library has. -/
def demands : VersionNeeds :=
  ((((Std.TreeMap.empty.insert 1 ⟨"n", "N_1", false⟩).insert 2 ⟨"m", "M_2", false⟩).insert 3
    ⟨"m", "M_3", true⟩).insert 4 ⟨"m", "m", false⟩).insert 5 ⟨"m", "M_4", false⟩

/-- An executable with these needs. -/
def demandingExecutable : Node := ⟨Key.ofNat 0, "a", { selfNeedingObject with
  needed := [], versions := { VersionTable.empty with needs := demands } }, 0, []⟩

/-- The executable and the library. -/
def demandingGraph : ObjectGraph := ⟨#[demandingExecutable, versionedLibrary],
  ⟨#["a", "m"], .insert (.insert ∅ "a" (Key.ofNat 0)) "m" (Key.ofNat 1)⟩⟩

theorem demandingGraph_find? (name : String) : demandingGraph.find? name =
    if "m" = name then some (Key.ofNat 1) else if "a" = name then some (Key.ofNat 0) else none := by
  simp [demandingGraph, ObjectGraph.find?, KeyTable.find?, Std.HashMap.getElem?_insert]

theorem demands_getElem? (index : UInt16) : demands[index]? =
    if 5 = index then some ⟨"m", "M_4", false⟩ else if 4 = index then some ⟨"m", "m", false⟩
    else if 3 = index then some ⟨"m", "M_3", true⟩ else if 2 = index then some ⟨"m", "M_2", false⟩
    else if 1 = index then some ⟨"n", "N_1", false⟩ else none := by
  simp [demands, Std.TreeMap.getElem?_insert]

theorem versionedLibrary_getElem? (index : UInt16) :
    versionedLibrary.object.versions.definitions[index]? =
      if 2 = index then some ⟨"M_2", false⟩ else if 1 = index then some ⟨"m", true⟩ else none := by
  simp [versionedLibrary, Std.TreeMap.getElem?_insert]

/-- The library that is loaded does not satisfy a need for its own name. -/
theorem unmet_demanding :
    demandingGraph.Unmet ⟨0, 4⟩ demandingExecutable ⟨"m", "m", false⟩ versionedLibrary where
  asker_eq := rfl
  need_eq := demands_getElem? 4
  named := ⟨Key.ofNat 1, demandingGraph_find? "m", rfl⟩
  unsatisfied := by
    rintro (⟨⟨⟩⟩ | hnothing | ⟨hfound, hproper, hsame⟩)
    · cases (hnothing 1).symm.trans (versionedLibrary_getElem? 1)
    · rw [versionedLibrary_getElem?] at hfound
      split at hfound
      · cases hfound
        exact absurd hsame (by decide)
      · split at hfound
        · cases hfound
          cases hproper
        · cases hfound

/-- All needs before that one are met: the first is from a file that is not loaded, the library
has the second, and the third may be missing. -/
theorem not_unmet_demanding {place : NeedPlace} {asker library : Node} {need : VersionNeed}
    (hearlier : place.Before ⟨0, 4⟩) : ¬ demandingGraph.Unmet place asker need library := by
  rintro ⟨⟨hasker, hneed⟩, ⟨key, hkey, hlibrary⟩, hunsatisfied⟩
  obtain ⟨position, index⟩ := place
  obtain ⟨rfl, hindex⟩ := hearlier.resolve_left (Nat.not_lt_zero _)
  cases hasker
  rw [demandingGraph_find?] at hkey
  replace hneed : demands[index]? = some need := hneed
  rw [demands_getElem?] at hneed
  split_ifs at hneed with h₅ h₄ h₃ h₂ h₁
  · subst h₅
    exact absurd hindex (by decide)
  · subst h₄
    exact absurd hindex (by decide)
  · cases hneed
    exact hunsatisfied (.weak rfl)
  · cases hneed
    rw [if_pos rfl] at hkey
    cases hkey
    cases hlibrary
    exact hunsatisfied (.defined (versionedLibrary_getElem? 2) rfl rfl)
  · cases hneed
    rw [if_neg (by decide), if_neg (by decide)] at hkey
    cases hkey

/-- A loader that has the executable and the library. -/
def demandingLoader : Loader := { gapLoader with graph := demandingGraph, phase := .initiated }

/-- The second phase fails for that loader, although there is no library left to load, and it
succeeds for another one at the second attempt. -/
theorem checkNeeds_demanding :
    ((loadLibraries gapFiles).run demandingLoader).result =
        .error (.versionMismatch none "m" "m" "a") ∧
      ((loadLibraries gapFiles).run demandingLoader).state.phase ≠ .loaded ∧
      (gapLoader.afterActions (gapCalls.map .phase)).graph.Compatible := by
  obtain ⟨hcheck, hload, hactions⟩ := checkNeeds_iff_compatible
  have hserve : Stage.Yields
      (serveAll gapFiles (demandingLoader.graph.requestsOf (Key.ofNat 0))) demandingLoader ()
      demandingLoader := by
    rw [show demandingLoader.graph.requestsOf (Key.ofNat 0) = [] from rfl, serveAll_nil]
    exact Stage.yields_pure_iff.2 ⟨rfl, rfl⟩
  have herror : demandingGraph.checkNeeds.result = .error (.versionMismatch none "m" "m" "a") :=
    ((hcheck demandingGraph).2 _).2 ⟨_, _, _, _, unmet_demanding,
      fun _ _ _ _ => not_unmet_demanding, rfl⟩
  obtain ⟨hphase, hserved⟩ := hload gapFiles demandingLoader rfl
  have hresult := (hserved demandingLoader hserve).1.trans herror
  refine ⟨hresult, fun hloaded => ?_, hactions gapConfig .arm (.zeroed 0x100000) _ ?_⟩
  · obtain ⟨l₁, hserve₁, hcompatible⟩ := hphase.1 hloaded
    cases herror.symm.trans (hserve.2.symm.trans hserve₁.2 ▸ (hcheck l₁.graph).1.2 hcompatible)
  · obtain ⟨l, -, -, hl, hphase, -⟩ := afterAll_gapCalls
    rw [afterActions, List.foldl_map]
    change (gapLoader.afterAll gapCalls).phase ∈ _
    rw [hl, hphase]
    exact List.mem_cons_self

end Loader

end ElfLoader
