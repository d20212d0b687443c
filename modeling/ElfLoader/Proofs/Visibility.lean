import ElfLoader.Proofs.Binding
import ElfLoader.Proofs.OneLibrary

/-!
# Whose definition a reference is bound to

A definition is an address and a size, and does not tell which symbol it was made of. So the
exported symbols of a name are laid out again, each with the object and the position that it comes
from (`ElfLoader.Scope.origins`). A reference is bound to the one that ranks best for the version
it asks for, and to the first of those that rank alike (`ElfLoader.Scope.bound?`).

Binding and visibility keep a symbol from being bound to by other objects, but a version index
that marks a symbol as local does not (`ElfLoader.Scope.public_of_resolve`). A guarded symbol is
one exported symbol among others: what stands before it in load order takes its place, also for
references of its own object (`ElfLoader.Scope.bound_of_guarded`).
-/

namespace ElfLoader

/-! ### The first of those that rank best -/

section Ranked

variable {α : Type} {rank : α → Nat} {xs before behind : List α} {x : α}

/-- The first element of rank zero, or else the first one of rank one. Others do not count. -/
def firstRanked? (rank : α → Nat) (xs : List α) : Option α :=
  match xs.find? fun x => rank x == 0 with
  | some x => some x
  | none => xs.find? fun x => rank x == 1

/-- The first element of a rank. -/
theorem find?_rank_eq_some_iff {k : Nat} : (xs.find? fun y => rank y == k) = some x ↔
    rank x = k ∧ ∃ before behind, xs = before ++ x :: behind ∧ ∀ y ∈ before, rank y ≠ k := by
  simp [List.find?_eq_some_iff_append]

/-- **An element is chosen** if it counts, none before it ranks as well, and none behind it ranks
better. -/
theorem firstRanked?_eq_some_iff : firstRanked? rank xs = some x ↔
    rank x < 2 ∧ ∃ before behind, xs = before ++ x :: behind ∧
      (∀ y ∈ before, rank x < rank y) ∧ ∀ y ∈ behind, rank x ≤ rank y := by
  unfold firstRanked?
  cases hbest : xs.find? fun y => rank y == 0 with
  | some z =>
    constructor
    · intro h
      obtain rfl := Option.some.inj h
      obtain ⟨hz, before, behind, hsplit, hbefore⟩ := find?_rank_eq_some_iff.1 hbest
      exact ⟨by omega, before, behind, hsplit, fun y hy => by have := hbefore y hy; omega,
        fun y _ => by omega⟩
    · rintro ⟨-, before, behind, rfl, hbefore, hbehind⟩
      -- the element of rank zero is neither before the chosen one nor better
      have hx : rank x = 0 := by
        have hz : rank z = 0 := by simpa using List.find?_some hbest
        rcases List.mem_append.1 (List.mem_of_find?_eq_some hbest) with hmem | hmem
        · have := hbefore z hmem
          omega
        · rcases List.mem_cons.1 hmem with rfl | hmem
          · exact hz
          · have := hbehind z hmem
            omega
      refine hbest.symm.trans (find?_rank_eq_some_iff.2 ⟨hx, before, behind, rfl, ?_⟩)
      exact fun y hy => by have := hbefore y hy; omega
  | none =>
    have hnone : ∀ y ∈ xs, rank y ≠ 0 := by simpa using hbest
    refine find?_rank_eq_some_iff.trans ⟨?_, ?_⟩
    · rintro ⟨hx, before, behind, rfl, hbefore⟩
      refine ⟨by omega, before, behind, rfl, fun y hy => ?_, fun y hy => ?_⟩
      · have := hnone y (List.mem_append_left _ hy)
        have := hbefore y hy
        omega
      · have := hnone y (List.mem_append_right _ (List.mem_cons_of_mem x hy))
        omega
    · rintro ⟨hlt, before, behind, rfl, hbefore, hbehind⟩
      have hx := hnone x (List.mem_append_right _ List.mem_cons_self)
      refine ⟨by omega, before, behind, rfl, fun y hy => ?_⟩
      have := hbefore y hy
      omega

/-- If an element ranks first, it is chosen unless one before it ranks first as well. -/
theorem firstRanked?_of_rank_eq_zero (hx : rank x = 0) :
    firstRanked? rank (before ++ x :: behind) =
      some ((before.find? fun y => rank y == 0).getD x) := by
  unfold firstRanked?
  rw [List.find?_append, List.find?_cons_of_pos (by simpa using hx)]
  cases before.find? fun y => rank y == 0 <;> rfl

end Ranked

/-! ### Where candidates come from -/

/-- How well a candidate fits what a reference asks for: zero if it does, one if it is taken for
want of anything better, two if it is not taken. -/
def Candidate.rank (wanted : Option String) (c : Candidate) : Nat :=
  match wanted with
  | none => if c.isHidden then 2 else 0
  | some version => if c.isOf version then 0 else if c.isUnversioned then 1 else 2

/-- A candidate fits a reference that asks for the version of the candidate. -/
theorem Candidate.rank_version (c : Candidate) : c.rank (c.version.map Prod.fst) = 0 := by
  unfold rank
  rcases hversion : c.version with _ | ⟨name, hidden⟩
  · simp [isHidden, hversion]
  · simp [isOf, hversion]

/-- An object asks for its own version of a symbol, unless the version index of the symbol is one
of the versions that the object needs from others. -/
theorem VersionTable.requested?_eq_of_needs {t : VersionTable} {position : Nat}
    (h : ∀ raw, t.symbols[position]? = some raw → t.needs[plain raw]? = none) :
    t.requested? position = (t.defined? position).map Prod.fst := by
  unfold requested? defined?
  cases hraw : t.symbols[position]? with
  | none => rfl
  | some raw =>
    dsimp only
    rw [h raw hraw]
    cases t.definitionName? (plain raw) <;> rfl

/-- A symbol at its position in an object. -/
structure Origin where
  /-- The object. -/
  node : Node
  /-- The position among the symbols of the object. -/
  position : Nat
  /-- The symbol. -/
  symbol : Symbol

namespace Origin

/-- What the symbol defines. -/
def definition (o : Origin) : Definition := o.symbol.definition o.node.base

/-- The candidate that the symbol is. -/
def candidate (o : Origin) : Candidate :=
  ⟨o.definition, o.node.object.versions.defined? o.position, o.node.name⟩

/-- **A symbol is public**: its object defines it, and neither its binding nor its visibility
keeps it within the object. -/
structure Public (o : Origin) : Prop where
  /-- It stands at its position. -/
  get?_eq : o.node.object.symbols.get? o.position = some o.symbol
  /-- It can be found by its name. -/
  listed : SymbolTable.isListed o.position o.symbol = true
  /-- It is defined. -/
  defined : o.symbol.isDefined = true
  /-- It is known everywhere. -/
  binding : o.symbol.binding = .global ∨ o.symbol.binding = .weak
  /-- It can be seen everywhere. -/
  visibility : o.symbol.visibility = .standard ∨ o.symbol.visibility = .guarded

/-- How well the symbol fits the reference at a position of an object. -/
def rank (n : Node) (position : Nat) (o : Origin) : Nat :=
  o.candidate.rank (n.object.versions.requested? position)

/-- The version index that marks a symbol as local to its object. -/
def localIndex : UInt16 := 0

/-- Whether the version index of a symbol marks it as local. -/
def IsLocal (o : Origin) : Prop :=
  o.node.object.versions.symbols[o.position]? = some localIndex

/-- A symbol that is marked as local is of no version, unless its object gives the mark the meaning
of one. -/
theorem IsLocal.version_eq {o : Origin} (h : o.IsLocal) : o.candidate.version =
    (o.node.object.versions.definitionName? localIndex).map fun name => (name, false) := by
  change o.node.object.versions.defined? o.position = _
  unfold IsLocal at h
  rw [VersionTable.defined?, h]
  rfl

end Origin

theorem Symbol.isExported_iff (s : Symbol) : s.isExported = true ↔ s.isDefined = true ∧
    (s.binding = .global ∨ s.binding = .weak) ∧
    (s.visibility = .standard ∨ s.visibility = .guarded) := by
  simp [isExported, and_assoc]

namespace Scope

variable (s : Scope) {n : Node} {position : Nat} {copy : Bool} {sym : Symbol} {name : String}
  {o : Origin}

/-- The exported symbols of a name in an object. -/
def originsIn (name : String) (n : Node) : List Origin :=
  ((n.object.symbols.named SymbolTable.isListed name).filter fun e => e.1.isExported).map fun e =>
    ⟨n, e.2, e.1⟩

/-- **The exported symbols of a name**, in load order and then in table order. The object that
wants a copy is left out. -/
def origins (name : String) (copy : Bool) (n : Node) : List Origin :=
  (s.graph.toList.filter fun m => !(copy && m.key == n.key)).flatMap (originsIn name)

theorem originsIn_eq {symbols : List (Symbol × Nat)}
    (h : ((n.object.symbols.named SymbolTable.isListed name).filter fun e => e.1.isExported) =
      symbols) : originsIn name n = symbols.map fun e => ⟨n, e.2, e.1⟩ := by
  rw [originsIn, h]

/-- The exported symbol that the reference to a name at a position is bound to. -/
def bound? (n : Node) (position : Nat) (name : String) (copy : Bool) : Option Origin :=
  firstRanked? (Origin.rank n position) (s.origins name copy n)

/-- What is offered comes from somewhere. -/
theorem offers_eq_map (name : String) (copy : Bool) (n : Node) :
    s.offers SymbolTable.isListed name copy n = (s.origins name copy n).map Origin.candidate := by
  rw [offers, origins, List.map_flatMap]
  congr 1
  funext m
  rw [offersIn, originsIn, List.map_map]
  rfl

/-- **Which symbols are laid out**: the public ones of the name. -/
theorem mem_origins_iff : o ∈ s.origins name copy n ↔ o.node ∈ s.graph.toList ∧
    (copy = true → o.node.key ≠ n.key) ∧ o.symbol.name = name ∧ o.Public := by
  have hin : ∀ m, o ∈ originsIn name m ↔ o.node = m ∧ o.symbol.name = name ∧ o.Public := by
    intro m
    rw [originsIn, List.mem_map]
    constructor
    · rintro ⟨e, he, rfl⟩
      obtain ⟨hnamed, hexported⟩ := List.mem_filter.1 he
      obtain ⟨hdefined, hbinding, hvisibility⟩ := (Symbol.isExported_iff _).1 hexported
      have hget := SymbolTable.get?_of_mem_named hnamed
      have heligible := (List.mem_filter.1 hnamed).2
      rw [Bool.and_eq_true, beq_iff_eq] at heligible
      exact ⟨rfl, heligible.2, hget, heligible.1, hdefined, hbinding, hvisibility⟩
    · rintro ⟨rfl, rfl, h⟩
      refine ⟨(o.symbol, o.position), ?_, rfl⟩
      refine List.mem_filter.2 ⟨List.mem_filter.2 ⟨?_, ?_⟩, ?_⟩
      · rw [List.mem_zipIdx_iff_getElem?, Array.getElem?_toList]
        exact h.get?_eq
      · simp [h.listed]
      · exact (Symbol.isExported_iff _).2 ⟨h.defined, h.binding, h.visibility⟩
  rw [origins, List.mem_flatMap]
  constructor
  · rintro ⟨m, hm, ho⟩
    obtain ⟨rfl, hpublic⟩ := (hin m).1 ho
    obtain ⟨hmem, hother⟩ := List.mem_filter.1 hm
    exact ⟨hmem, by simpa [imp_iff_not_or] using hother, hpublic⟩
  · rintro ⟨hmem, hother, hpublic⟩
    exact ⟨o.node, List.mem_filter.2 ⟨hmem, by simpa [imp_iff_not_or] using hother⟩,
      (hin _).2 ⟨rfl, hpublic⟩⟩

/-- A reference that asks for no version is bound to the first symbol that is not hidden. -/
theorem bound?_of_none (h : n.object.versions.requested? position = none) :
    s.bound? n position name copy =
      (s.origins name copy n).find? fun o => !o.candidate.isHidden := by
  have hfirst : (fun o => Origin.rank n position o == 0) = fun o => !o.candidate.isHidden := by
    funext o
    cases hhidden : o.candidate.isHidden <;> simp [Origin.rank, h, Candidate.rank, hhidden]
  have hsecond : (fun o => Origin.rank n position o == 1) = fun _ => false := by
    funext o
    cases hhidden : o.candidate.isHidden <;> simp [Origin.rank, h, Candidate.rank, hhidden]
  rw [bound?, firstRanked?, hfirst, hsecond]
  cases (s.origins name copy n).find? fun o => !o.candidate.isHidden with
  | some o => rfl
  | none => exact List.find?_eq_none.2 fun _ _ => Bool.false_ne_true

/-- A reference that asks for no version is bound to the first symbol of all, if this has none
either. -/
theorem bound?_of_version_eq_none {others : List Origin}
    (h : n.object.versions.requested? position = none)
    (horigins : s.origins name copy n = o :: others) (hversion : o.candidate.version = none) :
    s.bound? n position name copy = some o := by
  have hvisible : o.candidate.isHidden = false := by
    rw [Candidate.isHidden, hversion]
    rfl
  rw [s.bound?_of_none h, horigins]
  exact List.find?_cons_of_pos (by rw [hvisible]; rfl)

/-- A reference that asks for a version is bound to the first symbol of this version, or else to
the first one of none. -/
theorem bound?_of_some {version : String}
    (h : n.object.versions.requested? position = some version) :
    s.bound? n position name copy =
      match (s.origins name copy n).find? fun o => o.candidate.isOf version with
      | some o => some o
      | none => (s.origins name copy n).find? fun o => o.candidate.isUnversioned := by
  have hfirst : (fun o => Origin.rank n position o == 0) = fun o => o.candidate.isOf version := by
    funext o
    cases hof : o.candidate.isOf version <;> cases hnone : o.candidate.isUnversioned <;>
      simp [Origin.rank, h, Candidate.rank, hof, hnone]
  have hsecond : (fun o => Origin.rank n position o == 1) =
      fun o => o.candidate.isUnversioned := by
    funext o
    rcases hversion : o.candidate.version with _ | v
    · simp [Origin.rank, h, Candidate.rank, Candidate.isOf, Candidate.isUnversioned, hversion]
    · cases hof : o.candidate.isOf version <;>
        simp [Origin.rank, h, Candidate.rank, hof, Candidate.isUnversioned, hversion]
  rw [bound?, firstRanked?, hfirst, hsecond]
  cases (s.origins name copy n).find? fun o => o.candidate.isOf version <;> rfl

/-- **What comes of a reference** to a symbol that its own object does not keep to itself. -/
theorem result_resolve_of_get? (hget : n.object.symbols.get? position = some sym)
    (hopen : ¬ (sym.isDefined = true ∧ sym.isExported = false ∧ copy = false)) (relocation : Nat) :
    (s.resolve n position copy relocation).result =
      match s.bound? n position sym.name copy with
      | some o => .ok (some o.definition)
      | none =>
        match n.object.versions.requested? position, (s.origins sym.name copy n).head? with
        | some version, some o =>
          .error (.versionMismatch (some sym.name) version o.node.name n.name)
        | _, _ => s.otherwise SymbolTable.isListed n sym relocation := by
  rw [result_resolve, reference, hget]
  dsimp only
  rw [if_neg hopen, offers_eq_map]
  cases hwanted : n.object.versions.requested? position with
  | none =>
    rw [s.bound?_of_none hwanted]
    dsimp only
    rw [List.find?_map, Function.comp_def]
    cases (s.origins sym.name copy n).find? fun o => !o.candidate.isHidden <;> rfl
  | some version =>
    rw [s.bound?_of_some hwanted]
    dsimp only
    rw [List.find?_map, List.find?_map, List.head?_map, Function.comp_def, Function.comp_def]
    cases (s.origins sym.name copy n).find? fun o => o.candidate.isOf version with
    | some o => rfl
    | none =>
      cases (s.origins sym.name copy n).find? fun o => o.candidate.isUnversioned with
      | some o => rfl
      | none => cases (s.origins sym.name copy n).head? <;> rfl

/-! ### Definitions that are seen -/

/-- A definition of a name from the full symbol table of the executable, where it is not local. -/
def BuiltIn (name : String) (d : Definition) : Prop :=
  ∃ table position sym, s.ownSymbols = some table ∧ table.get? position = some sym ∧
    sym.name = name ∧ sym.isDefined = true ∧ sym.binding ≠ .local_ ∧
      d = sym.definition (s.graph.root?.elim 0 (·.base))

theorem builtIn_of_otherwise {d : Definition} {relocation : Nat}
    (h : s.otherwise SymbolTable.isListed n sym relocation = .ok (some d)) :
    s.BuiltIn sym.name d := by
  unfold otherwise at h
  split at h
  · next d' hown =>
    obtain rfl := Option.some.inj (Except.ok.inj h)
    obtain ⟨table, htable, hfound⟩ := Option.bind_eq_some_iff.1 hown
    obtain ⟨e, he, rfl⟩ := Option.map_eq_some_iff.1 hfound
    have hmem := List.mem_of_find?_eq_some he
    have hkind := List.find?_some he
    rw [Bool.and_eq_true, bne_iff_ne] at hkind
    have hname := (List.mem_filter.1 hmem).2
    rw [Bool.and_eq_true, beq_iff_eq] at hname
    exact ⟨table, e.2, e.1, htable, SymbolTable.get?_of_mem_named hmem, hname.2, hkind.1, hkind.2,
      rfl⟩
  · split at h
    · cases h
    · cases h

theorem mem_of_bound? (h : s.bound? n position name copy = some o) :
    o ∈ s.origins name copy n := by
  obtain ⟨-, before, behind, hsplit, -⟩ := firstRanked?_eq_some_iff.1 h
  exact hsplit ▸ List.mem_append_right _ List.mem_cons_self

theorem result_resolve_of_bound? (hget : n.object.symbols.get? position = some sym)
    (hopen : ¬ (sym.isDefined = true ∧ sym.isExported = false ∧ copy = false))
    (h : s.bound? n position sym.name copy = some o) (relocation : Nat) :
    (s.resolve n position copy relocation).result = .ok (some o.definition) := by
  rw [s.result_resolve_of_get? hget hopen, h]

/-- **Which symbol a reference is bound to**: the best that ranks, and the first of those that
rank alike. -/
theorem bound?_eq_some_iff : s.bound? n position name copy = some o ↔
    o.rank n position < 2 ∧ ∃ before behind, s.origins name copy n = before ++ o :: behind ∧
      (∀ c ∈ before, o.rank n position < c.rank n position) ∧
      ∀ c ∈ behind, o.rank n position ≤ c.rank n position :=
  firstRanked?_eq_some_iff

/-- **Marks of local symbols count for nothing** when a reference asks for no version. -/
theorem bound?_eq_some_iff_of_none (hlocal : o.IsLocal)
    (h : n.object.versions.requested? position = none) :
    s.bound? n position name copy = some o ↔ ∃ before behind,
      s.origins name copy n = before ++ o :: behind ∧
        ∀ c ∈ before, c.candidate.isHidden = true := by
  have hvisible : o.candidate.isHidden = false := by
    rw [Candidate.isHidden, hlocal.version_eq]
    cases o.node.object.versions.definitionName? Origin.localIndex <;> rfl
  rw [s.bound?_of_none h, List.find?_eq_some_iff_append, hvisible]
  simp

/-- For a reference that asks for a version, a symbol that is marked as local is one without a
version. -/
theorem bound?_eq_some_iff_of_some (hlocal : o.IsLocal)
    (hplain : o.node.object.versions.definitionName? Origin.localIndex = none) {version : String}
    (h : n.object.versions.requested? position = some version) :
    s.bound? n position name copy = some o ↔ ∃ before behind,
      s.origins name copy n = before ++ o :: behind ∧
        (∀ c ∈ before ++ behind, c.candidate.isOf version = false) ∧
        ∀ c ∈ before, c.candidate.isUnversioned = false := by
  have hversion : o.candidate.version = none := by rw [hlocal.version_eq, hplain]; rfl
  have hrank : ∀ c : Origin, c.rank n position = if c.candidate.isOf version then 0
      else if c.candidate.isUnversioned then 1 else 2 := by
    intro c
    rw [Origin.rank, h]
    rfl
  have hone : o.rank n position = 1 := by
    simp [hrank, Candidate.isOf, Candidate.isUnversioned, hversion]
  have hworse : ∀ c : Origin, 1 < c.rank n position ↔
      c.candidate.isOf version = false ∧ c.candidate.isUnversioned = false := by
    intro c
    rw [hrank]
    cases c.candidate.isOf version <;> cases c.candidate.isUnversioned <;> simp
  have hnotBetter : ∀ c : Origin, 1 ≤ c.rank n position ↔ c.candidate.isOf version = false := by
    intro c
    rw [hrank]
    cases c.candidate.isOf version <;> cases c.candidate.isUnversioned <;> simp
  rw [bound?_eq_some_iff, hone, and_iff_right (by decide)]
  refine exists_congr fun before => exists_congr fun behind => and_congr_right fun _ => ?_
  simp only [hworse, hnotBetter, List.forall_mem_append, forall_and]
  exact and_right_comm

end Scope

/-! ### Executables with a built-in library -/

namespace Loader

variable {fs : FileSystem} {config : Config} {processor : Processor} {memory : Memory}
  {path name : String} {l l' : Loader} {o : Object} {r : Request} {more todo : List Request}
  {entry : UInt32} {u : Unit}

/-- Only an executable that needs nothing has its symbols noted. -/
theorem ownSymbols_of_noteLibrary (h : (noteLibrary name o).Yields l u l') :
    l'.ownSymbols = l.ownSymbols ∨ o.needed = [] := by
  by_cases hneeded : o.needed = []
  · exact .inr hneeded
  · obtain ⟨found, _, hreport, hnote⟩ := Stage.yields_bind_iff.1 h
    obtain ⟨hfound, rfl⟩ := Stage.yields_ofReport_iff.1 hreport
    have hnone : (builtIn o).result = .ok none := by
      unfold builtIn
      rw [if_pos (by simpa using hneeded)]
      rfl
    obtain rfl : found = none := Except.ok.inj (hfound.symm.trans hnone)
    obtain ⟨-, rfl⟩ := Stage.yields_pure_iff.1 hnote
    exact .inl rfl

/-- Placing an object does not change what is noted. -/
theorem ownSymbols_of_place {key : Key} (h : (place fs name o).Yields l key l') :
    l'.ownSymbols = l.ownSymbols := by
  obtain ⟨n, l₁, hsettle, henroll⟩ := Stage.yields_bind_iff.1 h
  obtain ⟨address, map, memory, -, -, rfl⟩ := of_settle hsettle
  obtain ⟨g, -, rfl⟩ := yields_enroll_iff.1 henroll
  rfl

/-- **The first phase** notes the symbols of an executable only if it needs nothing. -/
theorem Initiated.ownSymbols_or_needed {n : Node} (hn : Initiated fs config memory path n l)
    (h : (initiate fs path).Yields (new config processor memory) entry l) :
    l.ownSymbols = none ∨ n.object.needed = [] := by
  simp only [initiate, Stage.yields_bind_iff, yields_enter_iff, Stage.yields_state_iff,
    Stage.yields_ofExcept_iff, Stage.yields_ofReport_iff, Stage.yields_update_iff] at h
  obtain ⟨_, _, ⟨-, rfl⟩, _, _, ⟨rfl, rfl⟩, _, _, ⟨-, rfl⟩, o, _, ⟨hopen, rfl⟩, _, _, ⟨-, rfl⟩,
    _, _, rfl, _, l₁, hclaim₁, _, l₂, hclaim₂, _, l₃, hlibrary, _, l₄, hinterpreter,
    key, l₅, hplace, _, _, rfl, _, _, ⟨rfl, rfl⟩, hlast⟩ := h
  obtain ⟨-, rfl⟩ := Stage.yields_pure_iff.1 hlast
  obtain ⟨map, -, rfl⟩ := yields_claim_iff.1 hclaim₁
  obtain ⟨map', -, rfl⟩ := yields_claim_iff.1 hclaim₂
  obtain rfl := yields_noteInterpreter_iff.1 hinterpreter
  obtain rfl : o = n.object := Except.ok.inj (hopen.symm.trans hn.opened)
  exact (ownSymbols_of_noteLibrary hlibrary).imp_left (ownSymbols_of_place hplace).trans

/-- Serving a request does not change what is noted. -/
theorem Served.ownSymbols_eq (h : Served fs r l more l') : l'.ownSymbols = l.ownSymbols := by
  cases h with
  | known found => rfl
  | aliased new located found => rfl
  | brought new located unknown opened admitted placed =>
    rw [answer, placed.state_eq]

theorem Serves.ownSymbols_eq (h : Serves fs todo l l') : l'.ownSymbols = l.ownSymbols := by
  induction h with
  | done l => rfl
  | step served others ih => exact ih.trans served.ownSymbols_eq

/-- **A program with a built-in library is a single object.** -/
theorem ownSymbols_of_phases
    (hinitiate : (initiate fs path).Yields (new config processor memory) entry l)
    (hload : (loadLibraries fs).Yields l u l') :
    l'.ownSymbols = none ∨ ∃ n, l'.graph.toList = [n] := by
  obtain ⟨n, hn⟩ := initiated_of_initiate hinitiate
  obtain ⟨l₁, hserves, hl'⟩ := serves_of_loadLibraries hn.orderly
    (hn.config_eq ▸ hn.pageSize) hload
  rw [hl']
  rcases hn.ownSymbols_or_needed hinitiate with hnone | hneeded
  · exact .inl (hserves.ownSymbols_eq.trans hnone)
  · rw [hn.requestsOf_eq, Node.requests, hneeded] at hserves
    cases hserves
    exact .inr ⟨n, congrArg Array.toList hn.nodes_eq⟩

end Loader

namespace Scope

variable (s : Scope) {n : Node} {position : Nat} {copy : Bool} {sym : Symbol} {o : Origin}

/-! ### What references see -/

/-- **Where a definition comes from** that the reference to a symbol is bound to. -/
inductive Provides (n : Node) (position : Nat) (copy : Bool) (sym : Symbol) : Definition → Prop
  /-- The symbol is one that its own object keeps to itself. -/
  | own (defined : sym.isDefined = true) (kept : sym.isExported = false) (plain : copy = false) :
    Provides n position copy sym (sym.definition n.base)
  /-- A loaded object has a public symbol of the name. -/
  | bound {o : Origin} (chosen : s.bound? n position sym.name copy = some o)
    (loaded : o.node ∈ s.graph.toList) (other : copy = true → o.node.key ≠ n.key)
    (named : o.symbol.name = sym.name) (isPublic : o.Public) :
    Provides n position copy sym o.definition
  /-- The executable has it in its built-in library. -/
  | builtIn {d : Definition} (unbound : s.bound? n position sym.name copy = none)
    (found : s.BuiltIn sym.name d) : Provides n position copy sym d

theorem provides_of_resolve {d : Definition} {relocation : Nat}
    (h : (s.resolve n position copy relocation).result = .ok (some d)) :
    ∃ sym, n.object.symbols.get? position = some sym ∧ s.Provides n position copy sym d := by
  cases hget : n.object.symbols.get? position with
  | none =>
    rw [result_resolve, reference, hget] at h
    cases h
  | some sym =>
    refine ⟨sym, rfl, ?_⟩
    by_cases hkept : sym.isDefined = true ∧ sym.isExported = false ∧ copy = false
    · rw [result_resolve, reference, hget] at h
      dsimp only at h
      rw [if_pos hkept] at h
      obtain rfl := Option.some.inj (Except.ok.inj h)
      exact .own hkept.1 hkept.2.1 hkept.2.2
    · rw [s.result_resolve_of_get? hget hkept] at h
      cases hbound : s.bound? n position sym.name copy with
      | some o =>
        rw [hbound] at h
        obtain rfl := Option.some.inj (Except.ok.inj h)
        obtain ⟨hloaded, hother, hnamed, hpublic⟩ := s.mem_origins_iff.1 (s.mem_of_bound? hbound)
        exact .bound hbound hloaded hother hnamed hpublic
      | none =>
        rw [hbound] at h
        dsimp only at h
        split at h
        · cases h
        · exact .builtIn hbound (s.builtIn_of_otherwise h)

/-- **References of other objects see public symbols only**, whatever version they ask for, and
also where a copy is wanted. What a program that was just loaded has of a built-in library belongs
to the one object there is.

A version index that marks a public symbol as local is no obstacle. A reference without a version
is bound to such a symbol if only hidden ones stand before it, and a reference with a version takes
it for a symbol without one. -/
theorem public_of_resolve (n : Node) (position : Nat) (copy : Bool) (relocation : Nat) :
    (∀ d, (s.resolve n position copy relocation).result = .ok (some d) →
      ∃ sym, n.object.symbols.get? position = some sym ∧ s.Provides n position copy sym d) ∧
    (∀ sym o, n.object.symbols.get? position = some sym →
      ¬ (sym.isDefined = true ∧ sym.isExported = false ∧ copy = false) →
      s.bound? n position sym.name copy = some o →
        (s.resolve n position copy relocation).result = .ok (some o.definition)) ∧
    (∀ name o, o.IsLocal → n.object.versions.requested? position = none →
      (s.bound? n position name copy = some o ↔ ∃ before behind,
        s.origins name copy n = before ++ o :: behind ∧
          ∀ c ∈ before, c.candidate.isHidden = true)) ∧
    (∀ name o version, o.IsLocal →
      o.node.object.versions.definitionName? Origin.localIndex = none →
      n.object.versions.requested? position = some version →
      (s.bound? n position name copy = some o ↔ ∃ before behind,
        s.origins name copy n = before ++ o :: behind ∧
          (∀ c ∈ before ++ behind, c.candidate.isOf version = false) ∧
          ∀ c ∈ before, c.candidate.isUnversioned = false)) ∧
    ∀ fs path config processor memory entry l l',
      (Loader.initiate fs path).Yields (.new config processor memory) entry l →
      (Loader.loadLibraries fs).Yields l () l' → s = l'.linker.scope →
        s.ownSymbols = none ∨ ∃ m, s.graph.toList = [m] := by
  refine ⟨fun d => s.provides_of_resolve, ?_, ?_, ?_, ?_⟩
  · exact fun sym o hget hopen hbound => s.result_resolve_of_bound? hget hopen hbound relocation
  · exact fun name o hlocal hnone => s.bound?_eq_some_iff_of_none hlocal hnone
  · exact fun name o version hlocal hplain hsome => s.bound?_eq_some_iff_of_some hlocal hplain hsome
  · rintro fs path config processor memory entry l l' hinitiate hload rfl
    exact Loader.ownSymbols_of_phases hinitiate hload

/-! ### Guarded symbols -/

/-- **A guarded symbol is one exported symbol among others.** The reference to it from its own
object, where no copy is wanted, is bound to the symbol of its name that ranks best and stands
first in load order. So it is bound to the symbol itself if no object before has a definition
that fits as well, and to the first such definition otherwise. -/
theorem bound_of_guarded (hn : n ∈ s.graph.toList)
    (hget : n.object.symbols.get? position = some sym) (hdefined : sym.isDefined = true)
    (hbinding : sym.binding = .global ∨ sym.binding = .weak) (hguarded : sym.visibility = .guarded)
    (relocation : Nat) :
    ((⟨n, position, sym⟩ : Origin) ∈ s.origins sym.name false n ↔
      SymbolTable.isListed position sym = true) ∧
    (∀ o, s.bound? n position sym.name false = some o →
      (s.resolve n position false relocation).result = .ok (some o.definition)) ∧
    (s.bound? n position sym.name false = some ⟨n, position, sym⟩ ↔
      (⟨n, position, sym⟩ : Origin).rank n position < 2 ∧ ∃ before behind,
        s.origins sym.name false n = before ++ ⟨n, position, sym⟩ :: behind ∧
          (∀ c ∈ before, (⟨n, position, sym⟩ : Origin).rank n position < c.rank n position) ∧
          ∀ c ∈ behind, (⟨n, position, sym⟩ : Origin).rank n position ≤ c.rank n position) ∧
    ((∀ raw, n.object.versions.symbols[position]? = some raw →
        n.object.versions.needs[VersionTable.plain raw]? = none) →
      ∀ before behind, s.origins sym.name false n = before ++ ⟨n, position, sym⟩ :: behind →
        (s.resolve n position false relocation).result = .ok (some ((before.find?
          fun c => c.rank n position == 0).getD ⟨n, position, sym⟩).definition)) := by
  have hexported : sym.isExported = true :=
    (Symbol.isExported_iff sym).2 ⟨hdefined, hbinding, .inr hguarded⟩
  have hopen : ¬ (sym.isDefined = true ∧ sym.isExported = false ∧ false = false) := by
    rw [hexported]
    simp
  refine ⟨?_, fun o hbound => s.result_resolve_of_bound? hget hopen hbound relocation,
    s.bound?_eq_some_iff, ?_⟩
  · rw [mem_origins_iff]
    refine ⟨fun h => h.2.2.2.listed, fun hlisted => ⟨hn, by simp, rfl, ?_⟩⟩
    exact ⟨hget, hlisted, hdefined, hbinding, .inr hguarded⟩
  · intro hown before behind hsplit
    refine s.result_resolve_of_bound? hget hopen ?_ relocation
    rw [bound?, hsplit]
    refine firstRanked?_of_rank_eq_zero ?_
    rw [Origin.rank, VersionTable.requested?_eq_of_needs hown]
    exact Candidate.rank_version (Origin.candidate ⟨n, position, sym⟩)

end Scope

/-! ### A program with a guarded symbol -/

/-- An executable that needs a library `d/b`. It defines `f`, and a relocation refers to `g`, which
it leaves undefined. The file has a header, two program headers, eight tags and their strings,
three symbols, a hash table, the relocation, the relocated word and the byte of `f`. -/
def usingFile : ByteArray := ⟨#[
  127, 69, 76, 70, 1, 1, 1, 0, 0, 0, 0, 0, 0, 0, 0, 0,
  3, 0, 40, 0, 1, 0, 0, 0, 0, 0, 0, 0, 52, 0, 0, 0,
  0, 0, 0, 0, 0, 0, 0, 0, 52, 0, 32, 0, 2, 0, 40, 0,
  0, 0, 0, 0, 1, 0, 0, 0, 0, 0, 0, 0, 0, 0, 0, 0,
  0, 0, 0, 0, 8, 1, 0, 0, 8, 1, 0, 0, 7, 0, 0, 0,
  0, 16, 0, 0, 2, 0, 0, 0, 116, 0, 0, 0, 116, 0, 0, 0,
  0, 0, 0, 0, 64, 0, 0, 0, 64, 0, 0, 0, 6, 0, 0, 0,
  4, 0, 0, 0, 1, 0, 0, 0, 1, 0, 0, 0, 5, 0, 0, 0,
  180, 0, 0, 0, 10, 0, 0, 0, 12, 0, 0, 0, 6, 0, 0, 0,
  192, 0, 0, 0, 4, 0, 0, 0, 240, 0, 0, 0, 17, 0, 0, 0,
  248, 0, 0, 0, 18, 0, 0, 0, 8, 0, 0, 0, 0, 0, 0, 0,
  0, 0, 0, 0, 0, 100, 47, 98, 0, 102, 0, 103, 0, 0, 0, 0,
  0, 0, 0, 0, 0, 0, 0, 0, 0, 0, 0, 0, 0, 0, 0, 0,
  5, 0, 0, 0, 4, 1, 0, 0, 4, 0, 0, 0, 17, 0, 1, 0,
  7, 0, 0, 0, 0, 0, 0, 0, 0, 0, 0, 0, 16, 0, 0, 0,
  1, 0, 0, 0, 3, 0, 0, 0, 0, 1, 0, 0, 21, 2, 0, 0,
  0, 0, 0, 0, 97, 0, 0, 0]⟩

/-- A library with two symbols of its own: `f`, which is guarded and which a relocation refers to,
and `g`, whose version index marks it as local. The file has a header, two program headers, seven
tags and their strings, three symbols, a hash table, the version indexes, the relocation, the
relocated word and the bytes of both symbols. -/
def guardingFile : ByteArray := ⟨#[
  127, 69, 76, 70, 1, 1, 1, 0, 0, 0, 0, 0, 0, 0, 0, 0,
  3, 0, 40, 0, 1, 0, 0, 0, 0, 0, 0, 0, 52, 0, 0, 0,
  0, 0, 0, 0, 0, 0, 0, 0, 52, 0, 32, 0, 2, 0, 40, 0,
  0, 0, 0, 0, 1, 0, 0, 0, 0, 0, 0, 0, 0, 0, 0, 0,
  0, 0, 0, 0, 16, 1, 0, 0, 16, 1, 0, 0, 7, 0, 0, 0,
  0, 16, 0, 0, 2, 0, 0, 0, 116, 0, 0, 0, 116, 0, 0, 0,
  0, 0, 0, 0, 64, 0, 0, 0, 64, 0, 0, 0, 6, 0, 0, 0,
  4, 0, 0, 0, 5, 0, 0, 0, 180, 0, 0, 0, 10, 0, 0, 0,
  8, 0, 0, 0, 6, 0, 0, 0, 188, 0, 0, 0, 4, 0, 0, 0,
  236, 0, 0, 0, 17, 0, 0, 0, 252, 0, 0, 0, 18, 0, 0, 0,
  8, 0, 0, 0, 240, 255, 255, 111, 244, 0, 0, 0, 0, 0, 0, 0,
  0, 0, 0, 0, 0, 102, 0, 103, 0, 0, 0, 0, 0, 0, 0, 0,
  0, 0, 0, 0, 0, 0, 0, 0, 0, 0, 0, 0, 1, 0, 0, 0,
  8, 1, 0, 0, 4, 0, 0, 0, 17, 3, 1, 0, 3, 0, 0, 0,
  12, 1, 0, 0, 4, 0, 0, 0, 17, 0, 1, 0, 1, 0, 0, 0,
  3, 0, 0, 0, 0, 0, 1, 0, 0, 0, 0, 0, 4, 1, 0, 0,
  21, 1, 0, 0, 0, 0, 0, 0, 102, 0, 0, 0, 103, 0, 0, 0]⟩

/-- A file system with both files. -/
def guardingFiles : FileSystem :=
  ⟨[(["a"], .file usingFile), (["d"], .directory), (["d", "b"], .file guardingFile)], [], []⟩

/-- The executable. -/
def usingExecutable : Object :=
  (Object.open guardingFiles "a" 4096).result.toOption.get (by decide +kernel)

/-- The library. -/
def guardingLibrary : Object :=
  (Object.open guardingFiles "d/b" 4096).result.toOption.get (by decide +kernel)

/-- The executable at the first page behind the guard page. -/
def usingRoot : Node := { Loader.rootAt "a" usingExecutable 0x1000 with deps := [Key.ofNat 1] }

/-- The library at the page behind that. -/
def guardingNode : Node := Loader.libraryAt "d/b" guardingLibrary 0x2000

/-- `f` in the executable. -/
def usedSymbol : Symbol := ⟨"f", 260, 4, .object, .global, .standard, .sectionAt 1⟩

/-- `f` in the library. -/
def guardedSymbol : Symbol := ⟨"f", 264, 4, .object, .global, .guarded, .sectionAt 1⟩

/-- `g` in the library. -/
def markedSymbol : Symbol := ⟨"g", 268, 4, .object, .global, .standard, .sectionAt 1⟩

theorem open_usingExecutable :
    (Object.open guardingFiles "a" 4096).result = .ok usingExecutable := eq_ok_get _

theorem open_guardingLibrary :
    (Object.open guardingFiles "d/b" 4096).result = .ok guardingLibrary := eq_ok_get _

/-- What is in the executable. -/
theorem usingRoot_facts : (usingExecutable.isShared = true ∧
      usingExecutable.extent = ⟨0, 0x1000⟩ ∧ usingExecutable.header.machine = Machine.arm) ∧
    (usingExecutable.needed = ["d/b"] ∧ usingExecutable.versions.needs.toList = [] ∧
      guardingFiles.canonical usingExecutable.path = "/a" ∧ usingExecutable.soname = none ∧
      usingExecutable.file.order = .little) ∧
    (usingRoot.object.symbols.get? 2 = some ⟨"g", 0, 0, .none, .global, .standard, .undefined⟩ ∧
      usingRoot.object.versions.requested? 2 = none ∧
      usingRoot.object.versions.defined? 1 = none) ∧
    ((usingRoot.object.symbols.named SymbolTable.isListed "f").filter fun e => e.1.isExported) =
      [(usedSymbol, 1)] ∧
    ((usingRoot.object.symbols.named SymbolTable.isListed "g").filter fun e => e.1.isExported) =
      [] ∧
    usingRoot.base = 0x1000 := by
  decide +kernel

/-- What is in the library. -/
theorem guardingNode_facts : (guardingLibrary.isShared = true ∧
      guardingLibrary.extent = ⟨0, 0x1000⟩ ∧ guardingLibrary.header.machine = Machine.arm) ∧
    (guardingLibrary.needed = [] ∧ guardingLibrary.versions.needs.toList = [] ∧
      guardingLibrary.file.order = .little) ∧
    (guardingNode.object.symbols.get? 1 = some guardedSymbol ∧
      guardingNode.object.versions.requested? 1 = none ∧
      guardingNode.object.versions.symbols[1]? = some 1 ∧
      guardingNode.object.versions.needs[VersionTable.plain 1]? = none) ∧
    (guardingNode.object.symbols.get? 2 = some markedSymbol ∧
      guardingNode.object.versions.symbols[2]? = some Origin.localIndex ∧
      guardingNode.object.versions.defined? 2 = none) ∧
    ((guardingNode.object.symbols.named SymbolTable.isListed "f").filter fun e => e.1.isExported) =
      [(guardedSymbol, 1)] ∧
    ((guardingNode.object.symbols.named SymbolTable.isListed "g").filter fun e => e.1.isExported) =
      [(markedSymbol, 2)] ∧
    guardingNode.base = 0x2000 := by
  decide +kernel

/-- The executable needs nothing but the library. -/
theorem soleLibrary_guarding :
    SoleLibrary guardingFiles "a" usingExecutable "d/b" "d/b" guardingLibrary := by
  obtain ⟨-, ⟨hneeded, hversions, hpath, hsoname, horder⟩, -⟩ := usingRoot_facts
  obtain ⟨-, ⟨hneeded', hversions', horder'⟩, -⟩ := guardingNode_facts
  refine ⟨hneeded, hneeded', ?_, ?_, horder'.trans horder.symm⟩
  · rw [List.forall_mem_cons, List.forall_mem_singleton]
    exact ⟨hversions, hversions'⟩
  · rw [hpath, hsoname]
    decide +kernel

/-- The loader for the program. -/
def guardingLoader : Loader := .new .standard .arm (.zeroed 0x100000)

/-- **The program is loaded.** -/
theorem Loader.exists_phases_guarding : ∃ entry l l',
    (initiate guardingFiles "a").Yields guardingLoader entry l ∧
      (loadLibraries guardingFiles).Yields l () l' ∧
      l'.graph.toList = [usingRoot, guardingNode] := by
  obtain ⟨⟨hshared, hextent, hmachine⟩, -⟩ := usingRoot_facts
  obtain ⟨⟨hshared', hextent', hmachine'⟩, -⟩ := guardingNode_facts
  obtain ⟨entry, l, l', hinitiate, -, hload, -, -, -, -, hlist⟩ :=
    exists_phases_of_onePage .arm (.zeroed 0x100000) rfl open_usingExecutable open_guardingLibrary
      ⟨hshared, hextent⟩ ⟨hshared', hextent'⟩ hmachine hmachine' soleLibrary_guarding
      (by decide +kernel)
  exact ⟨entry, l, l', hinitiate, hload, hlist⟩

namespace Scope

variable {s : Scope} (h : s.graph.toList = [usingRoot, guardingNode])

include h

/-- Both objects export `f`, the executable first. -/
theorem origins_f_guarding :
    s.origins "f" false guardingNode =
      [⟨usingRoot, 1, usedSymbol⟩, ⟨guardingNode, 1, guardedSymbol⟩] := by
  obtain ⟨-, -, -, hroot, -⟩ := usingRoot_facts
  obtain ⟨-, -, -, -, hnode, -⟩ := guardingNode_facts
  have hroot' : originsIn "f" usingRoot = [⟨usingRoot, 1, usedSymbol⟩] :=
    originsIn_eq hroot
  have hnode' : originsIn "f" guardingNode = [⟨guardingNode, 1, guardedSymbol⟩] :=
    originsIn_eq hnode
  rw [origins, h]
  change originsIn "f" usingRoot ++ (originsIn "f" guardingNode ++ []) = _
  rw [hroot', hnode']
  rfl

/-- Only the library exports `g`. -/
theorem origins_g_guarding :
    s.origins "g" false usingRoot = [⟨guardingNode, 2, markedSymbol⟩] := by
  obtain ⟨-, -, -, -, hroot, -⟩ := usingRoot_facts
  obtain ⟨-, -, -, -, -, hnode, -⟩ := guardingNode_facts
  have hroot' : originsIn "g" usingRoot = [] :=
    originsIn_eq hroot
  have hnode' : originsIn "g" guardingNode = [⟨guardingNode, 2, markedSymbol⟩] :=
    originsIn_eq hnode
  rw [origins, h]
  change originsIn "g" usingRoot ++ (originsIn "g" guardingNode ++ []) = _
  rw [hroot', hnode']
  rfl

/-- The library's reference to `f` is bound to the symbol of the executable. -/
theorem bound?_f_guarding :
    s.bound? guardingNode 1 "f" false = some ⟨usingRoot, 1, usedSymbol⟩ := by
  obtain ⟨-, -, ⟨-, -, hversion⟩, -⟩ := usingRoot_facts
  obtain ⟨-, -, ⟨-, hrequested, -⟩, -⟩ := guardingNode_facts
  exact s.bound?_of_version_eq_none hrequested (origins_f_guarding h) hversion

/-- The executable's reference to `g` is bound to the symbol of the library. -/
theorem bound?_g_guarding :
    s.bound? usingRoot 2 "g" false = some ⟨guardingNode, 2, markedSymbol⟩ := by
  obtain ⟨-, -, ⟨-, hrequested, -⟩, -⟩ := usingRoot_facts
  obtain ⟨-, -, -, ⟨-, -, hversion⟩, -⟩ := guardingNode_facts
  exact s.bound?_of_version_eq_none hrequested (origins_g_guarding h) hversion

end Scope

namespace Loader

/-- **The library is bound to the `f` of the executable**, which stands before its own. -/
theorem bound_of_guarded_guarding : ∃ entry l l',
    (initiate guardingFiles "a").Yields guardingLoader entry l ∧
      (loadLibraries guardingFiles).Yields l () l' ∧
      (l'.linker.scope.resolve guardingNode 1 false 0).result = .ok (some ⟨0x1104, 4⟩) := by
  obtain ⟨entry, l, l', hinitiate, hload, hlist⟩ := exists_phases_guarding
  obtain ⟨-, -, ⟨-, -, hversion⟩, -, -, hbase⟩ := usingRoot_facts
  obtain ⟨-, -, ⟨hget, hrequested, hindex, hneed⟩, -⟩ := guardingNode_facts
  refine ⟨entry, l, l', hinitiate, hload, ?_⟩
  obtain ⟨-, -, -, hresult⟩ := l'.linker.scope.bound_of_guarded
    (hlist ▸ List.mem_cons_of_mem _ List.mem_cons_self) hget rfl (.inl rfl) rfl 0
  have hown : ∀ raw, guardingNode.object.versions.symbols[1]? = some raw →
      guardingNode.object.versions.needs[VersionTable.plain raw]? = none := by
    intro raw hraw
    obtain rfl := Option.some.inj (hindex.symm.trans hraw)
    exact hneed
  have hrank : (⟨usingRoot, 1, usedSymbol⟩ : Origin).rank guardingNode 1 = 0 := by
    rw [Origin.rank, show guardingNode.object.versions.requested? 1 = none from hrequested,
      ← Candidate.rank_version (Origin.candidate ⟨usingRoot, 1, usedSymbol⟩)]
    exact congrArg (Candidate.rank · _) (congrArg (Option.map Prod.fst) hversion).symm
  rw [hresult hown [⟨usingRoot, 1, usedSymbol⟩] [] (Scope.origins_f_guarding hlist),
    List.find?_cons_of_pos (by rw [hrank]; rfl)]
  exact congrArg (fun base => Except.ok (some (usedSymbol.definition base))) hbase

/-- **A guarded symbol loses to another object's definition**: what the library is bound to is not
its own definition. -/
theorem resolve_guarded_ne_own : ∃ entry l l',
    (initiate guardingFiles "a").Yields guardingLoader entry l ∧
      (loadLibraries guardingFiles).Yields l () l' ∧ guardingNode ∈ l'.graph.toList ∧
      guardingNode.object.symbols.get? 1 = some guardedSymbol ∧ guardedSymbol.isDefined = true ∧
      guardedSymbol.binding = .global ∧ guardedSymbol.visibility = .guarded ∧
      (l'.linker.scope.resolve guardingNode 1 false 0).result ≠
        .ok (some (guardedSymbol.definition guardingNode.base)) := by
  obtain ⟨entry, l, l', hinitiate, hload, hlist⟩ := exists_phases_guarding
  obtain ⟨-, -, -, -, -, hbase⟩ := usingRoot_facts
  obtain ⟨-, -, ⟨hget, -⟩, -, -, -, hbase'⟩ := guardingNode_facts
  refine ⟨entry, l, l', hinitiate, hload, hlist ▸ List.mem_cons_of_mem _ List.mem_cons_self, hget,
    rfl, rfl, rfl, ?_⟩
  rw [l'.linker.scope.result_resolve_of_bound? hget (by decide) (Scope.bound?_f_guarding hlist) 0,
    Origin.definition, hbase, hbase']
  decide

/-- **The executable is bound to the `g` of the library**: it asks for no version, and nothing
stands before that symbol. -/
theorem public_of_resolve_guarding : ∃ entry l l',
    (initiate guardingFiles "a").Yields guardingLoader entry l ∧
      (loadLibraries guardingFiles).Yields l () l' ∧
      (l'.linker.scope.resolve usingRoot 2 false 0).result = .ok (some ⟨0x210c, 4⟩) := by
  obtain ⟨entry, l, l', hinitiate, hload, hlist⟩ := exists_phases_guarding
  obtain ⟨-, -, ⟨hget, hrequested, -⟩, -⟩ := usingRoot_facts
  obtain ⟨-, -, -, ⟨-, hlocal, -⟩, -, -, hbase⟩ := guardingNode_facts
  refine ⟨entry, l, l', hinitiate, hload, ?_⟩
  obtain ⟨-, hbound, hlocals, -⟩ := l'.linker.scope.public_of_resolve usingRoot 2 false 0
  have hchosen := (hlocals "g" ⟨guardingNode, 2, markedSymbol⟩ hlocal hrequested).2
    ⟨[], [], Scope.origins_g_guarding hlist, by simp⟩
  rw [hbound _ _ hget (by decide) hchosen]
  exact congrArg (fun base => Except.ok (some (markedSymbol.definition base))) hbase

/-- **A symbol that is marked as local is seen by another object.** -/
theorem resolve_marked_eq : ∃ entry l l',
    (initiate guardingFiles "a").Yields guardingLoader entry l ∧
      (loadLibraries guardingFiles).Yields l () l' ∧ usingRoot ∈ l'.graph.toList ∧
      guardingNode ∈ l'.graph.toList ∧ usingRoot.key ≠ guardingNode.key ∧
      guardingNode.object.symbols.get? 2 = some markedSymbol ∧
      guardingNode.object.versions.symbols[2]? = some Origin.localIndex ∧
      (l'.linker.scope.resolve usingRoot 2 false 0).result =
        .ok (some (markedSymbol.definition guardingNode.base)) := by
  obtain ⟨entry, l, l', hinitiate, hload, hlist⟩ := exists_phases_guarding
  obtain ⟨-, -, ⟨hget, -⟩, -⟩ := usingRoot_facts
  obtain ⟨-, -, -, ⟨hget', hlocal, -⟩, -⟩ := guardingNode_facts
  have hdistinct : usingRoot.key ≠ guardingNode.key := by
    change Key.ofNat 0 ≠ Key.ofNat 1
    decide
  refine ⟨entry, l, l', hinitiate, hload, hlist ▸ List.mem_cons_self,
    hlist ▸ List.mem_cons_of_mem _ List.mem_cons_self, hdistinct, hget', hlocal, ?_⟩
  rw [l'.linker.scope.result_resolve_of_bound? hget (by decide) (Scope.bound?_g_guarding hlist) 0,
    Origin.definition]

end Loader

end ElfLoader
