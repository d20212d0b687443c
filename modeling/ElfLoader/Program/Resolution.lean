import ElfLoader.Program.Compatibility

/-!
# Resolving symbols

A reference to a symbol has to find a definition. A symbol that its own object
defines, but does not export, is its own definition. For all others the objects are
searched in load order (`ElfLoader.Scope.candidates`), and the version that the
reference asks for decides among the definitions of the name
(`ElfLoader.Candidate.choose`):

* a reference without a version takes the first definition that is not hidden;
* a reference with a version takes the first definition of just that version, or else
  the first one without any version.

`ElfLoader.Scope.resolve` adds what is left to try where no object has a definition:
the full symbol table of an executable with its own C library, and for a weak symbol
nothing at all.
-/

namespace ElfLoader

/-- What a reference is bound to. -/
structure Definition where
  /-- The address in memory. -/
  address : UInt32
  /-- How many bytes there are. -/
  size : UInt32
  deriving DecidableEq, Repr, Inhabited

/-- The definition that a symbol makes in an object placed at `base`. -/
def Symbol.definition (s : Symbol) (base : UInt32) : Definition := ⟨s.address base, s.size⟩

/-- What the symbols of a program are looked up in. -/
structure Scope where
  /-- The loaded objects. -/
  graph : ObjectGraph
  /-- The full symbol table of an executable that has its C library built in. -/
  ownSymbols : Option SymbolTable

/-! ### Candidates -/

/-- An exported symbol of the name that is looked for. -/
structure Candidate where
  /-- What it defines. -/
  definition : Definition
  /-- The version that it belongs to, and whether it is hidden. -/
  version : Option (String × Bool)
  /-- The name of its object. -/
  library : String
  deriving DecidableEq, Repr

namespace Candidate

/-- The candidate at a position of an object's symbols, if the symbol there is
exported. -/
def ofSymbol? (n : Node) (position : Nat) : Option Candidate :=
  match n.object.symbols.get? position with
  | none => none
  | some s =>
    if s.isExported then
      some ⟨s.definition n.base, n.object.versions.defined? position, n.name⟩
    else none

/-- What comes of a search. -/
inductive Choice where
  /-- A definition was found. -/
  | found (definition : Definition)
  /-- There are definitions, but only of other versions; the first is in this library. -/
  | mismatch (version library : String)
  /-- There is no definition. -/
  | nothing
  deriving DecidableEq, Repr

/-- Goes through candidates. What was met before is remembered: the first definition
without a version, and the library of the first one with a wrong version. -/
def search (wanted : Option String) (unversioned : Option Definition)
    (mismatched : Option String) : List Candidate → Choice
  | [] =>
    match unversioned, wanted, mismatched with
    | some d, _, _ => .found d
    | none, some version, some library => .mismatch version library
    | none, _, _ => .nothing
  | c :: rest =>
    match wanted, c.version with
    | none, some (_, true) => search wanted unversioned mismatched rest
    | none, _ => .found c.definition
    | some version, some (name, _) =>
      if name = version then .found c.definition
      else search wanted unversioned (mismatched <|> some c.library) rest
    | some _, none => search wanted (unversioned <|> some c.definition) mismatched rest

/-- **Chooses among candidates** for the version that is wanted. -/
def choose (wanted : Option String) (candidates : List Candidate) : Choice :=
  search wanted none none candidates

end Candidate

namespace Scope

variable (s : Scope)

/-- The candidates for a name in one object. -/
def candidatesIn (name : String) (n : Node) : List Candidate :=
  (n.object.symbols.find name).filterMap (Candidate.ofSymbol? n)

/-- The candidates for a name in load order; one object may be left out. -/
def candidates (name : String) (without : Option Key) : List Candidate :=
  (s.graph.toList.filter fun n => some n.key != without).flatMap (candidatesIn name)

/-- The first definition of a name in the executable's full symbol table that is not
local. -/
def ownDefinition? (name : String) : Option Definition :=
  match s.ownSymbols with
  | none => none
  | some table =>
    let base := match s.graph.root? with
      | some root => root.base
      | none => 0
    let found := (table.find name).findSome? fun position =>
      (table.get? position).filter fun sym => sym.isDefined && sym.binding != .local_
    found.map fun sym => sym.definition base

/-- What a reference to a symbol comes to if no object has a definition. -/
def fallback (n : Node) (sym : Symbol) (relocation : Nat) : Report (Option Definition) :=
  match s.ownDefinition? sym.name with
  | some d => pure (some d)
  | none =>
    if sym.binding = .weak then do
      Report.note (.weakUndefined sym.name n.name)
      return none
    else Report.fail (.undefinedSymbol sym.name n.name relocation)

/-- **Resolves the symbol at a position** of an object's symbols. A copy is never taken
from the object that asks for it. Nothing comes of a weak symbol that is not defined. -/
def resolve (n : Node) (position : Nat) (copy : Bool) (relocation : Nat) :
    Report (Option Definition) :=
  match n.object.symbols.get? position with
  | none =>
    Report.fail (n.object.file.flawed
      (.symbolMissing relocation position n.object.symbols.size))
  | some sym =>
    if sym.isDefined && !sym.isExported && !copy then pure (some (sym.definition n.base))
    else
      let without := if copy then some n.key else none
      match Candidate.choose (n.object.versions.requested? position)
          (s.candidates sym.name without) with
      | .found d => pure (some d)
      | .mismatch version library =>
        Report.fail (.versionMismatch (some sym.name) version library n.name)
      | .nothing => s.fallback n sym relocation

end Scope

end ElfLoader
