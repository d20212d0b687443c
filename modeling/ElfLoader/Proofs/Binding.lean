import ElfLoader.Program.Resolution
import Mathlib.Data.List.Basic

/-!
# What a reference is bound to

The rules of symbol resolution can be said without any index of names and without going
through the candidates just once: all exported symbols of the name are laid out in load
order (`ElfLoader.Scope.offers`), and then the first one that fits best is taken, whatever
stands before it (`ElfLoader.Scope.reference`). That is what the loader finds in one pass
(`ElfLoader.Scope.result_resolve`).

Which symbols are laid out depends on one more rule: a symbol at position zero and a symbol
without a name cannot be found by name (`ElfLoader.SymbolTable.isListed`).
-/

namespace ElfLoader

/-! ### Looking a name up -/

namespace SymbolTable

variable {name : String} {position : Nat}

/-- Whether a symbol at a position can be found by its name. -/
def isListed (position : Nat) (s : Symbol) : Bool := position != 0 && s.name != ""

/-- The symbols of a name with their positions, in table order, as far as they are
eligible. -/
def named (t : SymbolTable) (eligible : Nat → Symbol → Bool) (name : String) :
    List (Symbol × Nat) :=
  t.entries.toList.zipIdx.filter fun e => eligible e.2 e.1 && e.1.name == name

/-- What an index has for a name when symbols have been added to it. -/
theorem getD_addFrom (index : NameIndex) (position : Nat) (symbols : List Symbol)
    (name : String) : ((NameIndex.addFrom index position symbols).getD name #[]).toList =
      (index.getD name #[]).toList ++
        ((symbols.zipIdx position).filter fun e => isListed e.2 e.1 && e.1.name == name).map
          (·.2) := by
  induction symbols generalizing index position with
  | nil => simp [NameIndex.addFrom]
  | cons s rest ih =>
    rw [NameIndex.addFrom, ih, List.zipIdx_cons, List.filter_cons]
    -- a symbol that is listed is recorded behind those of its name that came before it
    by_cases hlisted : position = 0 ∨ s.name = ""
    · have hnot : isListed position s = false := by
        rcases hlisted with h | h <;> simp [isListed, h]
      rw [if_pos hlisted]
      simp [hnot]
    · obtain ⟨hposition, hname⟩ := not_or.1 hlisted
      have hyes : isListed position s = true := by simp [isListed, hposition, hname]
      rw [if_neg hlisted, NameIndex.record, Std.HashMap.getD_insert]
      by_cases heq : s.name = name
      · simp [hyes, heq]
      · simp [heq]

/-- **The positions of a name** are those of the symbols of that name, in table order. -/
theorem find_eq (t : SymbolTable) (name : String) :
    t.find name = (t.named isListed name).map (·.2) := by
  rw [find, t.index_eq, NameIndex.ofList, getD_addFrom]
  simp [named]

/-- A position with its symbol. -/
theorem get?_of_mem_named {t : SymbolTable} {eligible : Nat → Symbol → Bool}
    {e : Symbol × Nat} (h : e ∈ t.named eligible name) : t.get? e.2 = some e.1 := by
  have hmem := (List.mem_filter.1 h).1
  rw [List.mem_zipIdx_iff_getElem?, Array.getElem?_toList] at hmem
  exact hmem

/-- The first symbol of a name that will do. -/
theorem findSome?_find (t : SymbolTable) (name : String) (p : Symbol → Bool) :
    (t.find name).findSome? (fun position => (t.get? position).filter p) =
      ((t.named isListed name).find? fun e => p e.1).map (·.1) := by
  have hget : ∀ e ∈ t.named isListed name, t.get? e.2 = some e.1 :=
    fun e he => get?_of_mem_named he
  rw [find_eq, List.findSome?_map]
  generalize t.named isListed name = entries at hget
  induction entries with
  | nil => rfl
  | cons e rest ih =>
    rw [List.findSome?_cons, List.find?_cons, Function.comp_apply, hget e List.mem_cons_self,
      ih fun e' he' => hget e' (List.mem_cons_of_mem e he')]
    cases hp : p e.1 <;> simp [Option.filter, hp]

/-- No name is not a name. -/
theorem find_empty_name (t : SymbolTable) : t.find "" = [] := by
  rw [find_eq, List.map_eq_nil_iff, named, List.filter_eq_nil_iff]
  rintro ⟨s, i⟩ -
  simp only [isListed, Bool.and_eq_true, bne_iff_ne, beq_iff_eq, not_and]
  exact fun h hname => h.2 hname

end SymbolTable

/-! ### Searching in one pass -/

namespace Candidate

/-- Whether a candidate belongs to a version that has to be asked for. -/
def isHidden (c : Candidate) : Bool := c.version.any (·.2)

/-- Whether a candidate belongs to a version of a name, hidden or not. -/
def isOf (version : String) (c : Candidate) : Bool := c.version.any (·.1 == version)

/-- Whether a candidate belongs to no version. -/
def isUnversioned (c : Candidate) : Bool := c.version.isNone

/-- **A search without a version** takes the first candidate that is not hidden. -/
theorem search_none (candidates : List Candidate) : search none none none candidates =
    match candidates.find? fun c => !c.isHidden with
    | some c => .found c.definition
    | none => .nothing := by
  induction candidates with
  | nil => rfl
  | cons c rest ih =>
    rcases hversion : c.version with _ | ⟨name, _ | _⟩
    · simp [search, isHidden, hversion]
    · simp [search, isHidden, hversion]
    · simp [search, isHidden, hversion, ih]

/-- **A search for a version** takes the first candidate of this version, or else the first
one without any. What is remembered goes before what is still to come. -/
theorem search_some (version : String) (unversioned : Option Definition)
    (mismatched : Option String) (candidates : List Candidate) :
    search (some version) unversioned mismatched candidates =
      match candidates.find? (isOf version) with
      | some c => .found c.definition
      | none =>
        match unversioned <|> (candidates.find? isUnversioned).map (·.definition),
          mismatched <|> candidates.head?.map (·.library) with
        | some d, _ => .found d
        | none, some library => .mismatch version library
        | none, none => .nothing := by
  induction candidates generalizing unversioned mismatched with
  | nil => cases unversioned <;> cases mismatched <;> rfl
  | cons c rest ih =>
    rcases hversion : c.version with _ | ⟨name, hidden⟩
    · -- it is remembered unless there was one before it
      have hfind : (c :: rest).find? (isOf version) = rest.find? (isOf version) :=
        List.find?_cons_of_neg (by simp [isOf, hversion])
      have hfirst : (c :: rest).find? isUnversioned = some c :=
        List.find?_cons_of_pos (by simp [isUnversioned, hversion])
      simp only [search, hversion]
      rw [ih, hfind, hfirst]
      cases unversioned <;> rfl
    · have hnext : (c :: rest).find? isUnversioned = rest.find? isUnversioned :=
        List.find?_cons_of_neg (by simp [isUnversioned, hversion])
      simp only [search, hversion]
      by_cases heq : name = version
      · have hfind : (c :: rest).find? (isOf version) = some c :=
          List.find?_cons_of_pos (by simp [isOf, hversion, heq])
        rw [if_pos heq, hfind]
      · -- its library is remembered unless there was one before it
        have hfind : (c :: rest).find? (isOf version) = rest.find? (isOf version) :=
          List.find?_cons_of_neg (by simp [isOf, hversion, heq])
        rw [if_neg heq, ih, hfind, hnext]
        cases mismatched <;> rfl

end Candidate

/-! ### The rules -/

namespace Scope

variable (s : Scope) (eligible : Nat → Symbol → Bool)

/-- The exported symbols of a name in an object, in table order. -/
def offersIn (name : String) (n : Node) : List Candidate :=
  ((n.object.symbols.named eligible name).filter fun e => e.1.isExported).map fun e =>
    ⟨e.1.definition n.base, n.object.versions.defined? e.2, n.name⟩

/-- **The exported symbols of a name**, in load order and then in table order. The object
that wants a copy is left out. -/
def offers (name : String) (copy : Bool) (n : Node) : List Candidate :=
  (s.graph.toList.filter fun m => !(copy && m.key == n.key)).flatMap (offersIn eligible name)

/-- The first definition of a name in the executable's full symbol table that is not
local, relative to the executable. -/
def ownOffer? (name : String) : Option Definition :=
  s.ownSymbols.bind fun table =>
    ((table.named eligible name).find? fun e => e.1.isDefined && e.1.binding != .local_).map
      fun e => e.1.definition (s.graph.root?.elim 0 (·.base))

/-- What is left if no object offers a definition. -/
def otherwise (n : Node) (sym : Symbol) (relocation : Nat) :
    Except LoadError (Option Definition) :=
  match s.ownOffer? eligible sym.name with
  | some d => .ok (some d)
  | none =>
    if sym.binding = .weak then .ok none
    else .error (.undefinedSymbol sym.name n.name relocation)

/-- **What a reference is bound to**, by the rules. -/
def reference (n : Node) (position : Nat) (copy : Bool) (relocation : Nat) :
    Except LoadError (Option Definition) :=
  match n.object.symbols.get? position with
  | none =>
    .error (.corrupt n.object.file.path
      (.symbolMissing relocation position n.object.symbols.size))
  | some sym =>
    if sym.isDefined = true ∧ sym.isExported = false ∧ copy = false then
      .ok (some (sym.definition n.base))
    else
      let offers := s.offers eligible sym.name copy n
      match n.object.versions.requested? position with
      | none =>
        match offers.find? fun c => !c.isHidden with
        | some c => .ok (some c.definition)
        | none => s.otherwise eligible n sym relocation
      | some version =>
        match offers.find? (Candidate.isOf version) with
        | some c => .ok (some c.definition)
        | none =>
          match offers.find? Candidate.isUnversioned, offers.head? with
          | some c, _ => .ok (some c.definition)
          | none, some c => .error (.versionMismatch (some sym.name) version c.library n.name)
          | none, none => s.otherwise eligible n sym relocation

/-- The candidates that the loader goes through are what objects offer. -/
theorem candidatesIn_eq (name : String) (n : Node) :
    candidatesIn name n = offersIn SymbolTable.isListed name n := by
  -- both sides keep some of the positions, so they are compared position by position
  rw [candidatesIn, SymbolTable.find_eq, List.filterMap_map, offersIn, ← List.filterMap_eq_map,
    ← List.filterMap_eq_filter, List.filterMap_filterMap]
  apply List.filterMap_congr
  intro e he
  simp only [Function.comp_apply, Candidate.ofSymbol?, SymbolTable.get?_of_mem_named he]
  by_cases hexported : e.1.isExported <;> simp [hexported, Option.guard]

theorem candidates_eq (name : String) (copy : Bool) (n : Node) :
    s.candidates name (if copy then some n.key else none) =
      s.offers SymbolTable.isListed name copy n := by
  unfold candidates offers
  congr 1
  · exact funext (candidatesIn_eq name)
  · congr 1
    funext m
    cases copy with
    | false => simp
    | true => rw [Bool.eq_iff_iff]; simp

theorem ownDefinition?_eq (name : String) :
    s.ownDefinition? name = s.ownOffer? SymbolTable.isListed name := by
  unfold ownDefinition? ownOffer?
  cases s.ownSymbols with
  | none => rfl
  | some table =>
    dsimp only
    rw [table.findSome?_find name, Option.map_map, Option.bind_some]
    cases s.graph.root? <;> rfl

theorem result_fallback (n : Node) (sym : Symbol) (relocation : Nat) :
    (s.fallback n sym relocation).result =
      s.otherwise SymbolTable.isListed n sym relocation := by
  unfold fallback otherwise
  rw [ownDefinition?_eq]
  cases s.ownOffer? SymbolTable.isListed sym.name with
  | some d => rfl
  | none =>
    dsimp only
    split <;> rfl

/-- **The loader binds a reference by the rules**, for every graph, every object in it or
not, every position and every kind of relocation. -/
theorem result_resolve (n : Node) (position : Nat) (copy : Bool) (relocation : Nat) :
    (s.resolve n position copy relocation).result =
      s.reference SymbolTable.isListed n position copy relocation := by
  unfold resolve reference
  cases n.object.symbols.get? position with
  | none => rfl
  | some sym =>
    dsimp only
    rw [s.candidates_eq, Candidate.choose]
    by_cases hown : sym.isDefined = true ∧ sym.isExported = false ∧ copy = false
    · rw [if_pos hown, if_pos (by simp [hown])]
      rfl
    · rw [if_neg hown, if_neg (by simpa [and_assoc] using hown)]
      generalize s.offers SymbolTable.isListed sym.name copy n = offers
      cases n.object.versions.requested? position with
      | none =>
        dsimp only
        rw [Candidate.search_none]
        cases offers.find? fun c => !c.isHidden with
        | some c => rfl
        | none => exact s.result_fallback n sym relocation
      | some version =>
        dsimp only
        rw [Candidate.search_some]
        cases offers.find? (Candidate.isOf version) with
        | some c => rfl
        | none =>
          rcases offers.find? Candidate.isUnversioned with _ | c
          · rcases offers.head? with _ | c
            · exact s.result_fallback n sym relocation
            · rfl
          · rfl

end Scope

/-! ### A symbol without a name -/

/-- A shared object that exports a symbol without a name, at position one, and refers to it
in a relocation. The file has a header, two program headers, seven tags, two symbols, a hash
table and a relocation. -/
def namelessExport : ByteArray := ⟨#[
  0x7f, 0x45, 0x4c, 0x46, 1, 1, 1, 0, 0, 0, 0, 0, 0, 0, 0, 0,
  3, 0, 40, 0, 1, 0, 0, 0, 0, 0, 0, 0, 52, 0, 0, 0, 0, 0, 0, 0, 0, 0, 0, 0,
  52, 0, 32, 0, 2, 0, 40, 0, 0, 0, 0, 0,
  1, 0, 0, 0, 0, 0, 0, 0, 0, 0, 0, 0, 0, 0, 0, 0,
  228, 0, 0, 0, 228, 0, 0, 0, 7, 0, 0, 0, 0, 16, 0, 0,
  2, 0, 0, 0, 116, 0, 0, 0, 116, 0, 0, 0, 0, 0, 0, 0,
  56, 0, 0, 0, 56, 0, 0, 0, 6, 0, 0, 0, 4, 0, 0, 0,
  5, 0, 0, 0, 220, 0, 0, 0, 10, 0, 0, 0, 1, 0, 0, 0,
  6, 0, 0, 0, 172, 0, 0, 0, 4, 0, 0, 0, 204, 0, 0, 0,
  17, 0, 0, 0, 212, 0, 0, 0, 18, 0, 0, 0, 8, 0, 0, 0,
  0, 0, 0, 0, 0, 0, 0, 0,
  0, 0, 0, 0, 0, 0, 0, 0, 0, 0, 0, 0, 0, 0, 0, 0,
  0, 0, 0, 0, 16, 0, 0, 0, 4, 0, 0, 0, 16, 0, 1, 0,
  1, 0, 0, 0, 2, 0, 0, 0,
  224, 0, 0, 0, 21, 1, 0, 0,
  0, 0, 0, 0, 0, 0, 0, 0]⟩

/-- The object in the file. -/
def namelessObject : Object :=
  (Object.open ⟨[(["a"], .file namelessExport)], [], []⟩ "a" 4096).result.toOption.get
    (by decide +kernel)

/-- The object at the first page behind the guard page. -/
def namelessNode : Node := ⟨Key.ofNat 0, "a", namelessObject, 4096, []⟩

/-- A program of this object alone. -/
def namelessScope : Scope := ⟨⟨#[namelessNode], .empty⟩, none⟩

namespace Scope

/-- No object is a candidate for no name. -/
theorem candidates_empty_name (s : Scope) (without : Option Key) :
    s.candidates "" without = [] := by
  simp [candidates, candidatesIn, SymbolTable.find_empty_name]

/-- The full symbol table has no definition for no name. -/
theorem ownDefinition?_empty_name (s : Scope) : s.ownDefinition? "" = none := by
  unfold ownDefinition?
  cases s.ownSymbols with
  | none => rfl
  | some table => simp [SymbolTable.find_empty_name]

/-- **The rules do not hold if all symbols are eligible**: the reference to the symbol
without a name is not bound, although the object exports the symbol. -/
theorem result_resolve_nameless_ne :
    (namelessScope.resolve namelessNode 1 false 0).result ≠
      namelessScope.reference (fun _ _ => true) namelessNode 1 false 0 := by
  -- the loader looks for candidates by a name that leads to none
  have hget : namelessNode.object.symbols.get? 1 =
      some ⟨"", 16, 4, .none, .global, .standard, .sectionAt 1⟩ := by decide +kernel
  have hrequested : namelessNode.object.versions.requested? 1 = none := by decide +kernel
  have hnone : (namelessScope.resolve namelessNode 1 false 0).result.toOption = none := by
    unfold resolve
    rw [hget]
    simp [hrequested, candidates_empty_name, Candidate.choose, Candidate.search,
      ownDefinition?_empty_name, Symbol.isDefined, Symbol.isExported, fallback, Report.fail,
      Except.toOption]
  have hsome : (namelessScope.reference (fun _ _ => true) namelessNode 1 false 0).toOption =
      some (some ⟨4112, 4⟩) := by decide +kernel
  intro heq
  rw [heq, hsome] at hnone
  cases hnone

end Scope

end ElfLoader
