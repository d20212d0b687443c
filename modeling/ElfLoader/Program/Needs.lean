import ElfLoader.Program.Placement

/-!
# Loading what is needed

An object names the libraries it needs, and those name further ones. The loader
serves such requests one after the other (`ElfLoader.Loader.serve`): a name that is
known leads to an object that is there; a name whose file is known becomes another
name of the object; anything else is opened and placed, and then its own requests
come first. So objects are placed depth first, each when it is first asked for
(`ElfLoader.Loader.serveAll`).

This comes to an end although objects may need each other in circles: every object
that is placed takes up a key, and there are no more than
`ElfLoader.KeyTable.capacity` of them.
-/

namespace ElfLoader

/-- An object asks for a library. -/
structure Request where
  /-- The object that asks. -/
  asker : Key
  /-- The name that it asks for. -/
  name : String
  deriving DecidableEq, Repr

/-- The requests of an object. -/
def Node.requests (n : Node) (key : Key) : List Request := n.object.needed.map (⟨key, ·⟩)

/-- The requests of the object of a key. -/
def ObjectGraph.requestsOf (g : ObjectGraph) (key : Key) : List Request :=
  match g.get? key with
  | some n => n.requests key
  | none => []

namespace Loader

/-- Lets the asker of a request need an object. -/
def answer (l : Loader) (r : Request) (dep : Key) : Loader :=
  { l with graph := l.graph.addEdge r.asker dep }

/-- Opens and places the file that a request leads to. -/
def bring (fs : FileSystem) (name path : String) : Work Key := do
  let l ← Stage.state
  let o ← Stage.ofReport (Object.open fs path l.config.pageSize.toNat)
  Stage.ofExcept (l.admissible o)
  place fs name o

/-- Serves a request. Gives the requests that come of it. -/
def serve (fs : FileSystem) (r : Request) : Work (List Request) := fun l =>
  match l.graph.find? r.name with
  | some dep => ⟨.ok [], l.answer r dep, []⟩
  | none =>
    match l.config.libraryPath.find? fs r.name with
    | none => ⟨.error (.fileNotFound r.name (some (l.graph.nameOf r.asker))), l, []⟩
    | some path =>
      match l.graph.find? (fs.canonical path) with
      | some dep =>
        ⟨.ok [], { l with graph := (l.graph.insertAlias r.name dep).2 }.answer r dep, []⟩
      | none =>
        let o := (bring fs r.name path).run l
        match o.result with
        | .error e => ⟨.error e, o.state, o.notices⟩
        | .ok dep => ⟨.ok (o.state.graph.requestsOf dep), o.state.answer r dep, o.notices⟩

/-- A file that is brought under a new name takes up one key. -/
theorem size_names_bring {fs : FileSystem} {name path : String} {l : Loader} {key : Key}
    (new : l.graph.find? name = none) (h : ((bring fs name path).run l).result = .ok key) :
    l.graph.names.size < KeyTable.capacity ∧
      ((bring fs name path).run l).state.graph.names.size = l.graph.names.size + 1 := by
  obtain ⟨_, hl, h⟩ := Stage.result_bind_eq_ok_iff.1 h
  cases hl
  obtain ⟨o, ho, h⟩ := Stage.result_bind_eq_ok_iff.1 h
  obtain ⟨_, ha, h⟩ := Stage.result_bind_eq_ok_iff.1 h
  rw [bring, Stage.state_bind_of_ok rfl, Stage.state_bind_of_ok ho, Stage.state_bind_of_ok ha]
  exact size_names_place new h

/-- **Serving a request either asks for nothing more or takes up a key.** -/
theorem serve_progress {fs : FileSystem} {r : Request} {l l' : Loader} {more : List Request}
    {ns : List Notice} (h : serve fs r l = ⟨.ok more, l', ns⟩) :
    (more = [] ∧ l'.graph.names.size = l.graph.names.size) ∨
      (l.graph.names.size < KeyTable.capacity ∧
        l'.graph.names.size = l.graph.names.size + 1) := by
  unfold serve at h
  split at h
  · cases h
    exact .inl ⟨rfl, rfl⟩
  · next new =>
    split at h
    · cases h
    · split at h
      · cases h
        exact .inl ⟨rfl, by simp [answer]⟩
      · dsimp only at h
        split at h
        · cases h
        · next brought =>
          cases h
          exact .inr (by simpa [answer] using size_names_bring new brought)

/-- **Serves requests and all that come of them**, each followed by those it brings up. -/
def serveAll (fs : FileSystem) (todo : List Request) (l : Loader) : Outcome Loader Unit :=
  match todo with
  | [] => ⟨.ok (), l, []⟩
  | r :: rest =>
    match _served : serve fs r l with
    | ⟨.error e, l', ns⟩ => ⟨.error e, l', ns⟩
    | ⟨.ok more, l', ns⟩ =>
      let o := serveAll fs (more ++ rest) l'
      ⟨o.result, o.state, ns ++ o.notices⟩
  termination_by (KeyTable.capacity - l.graph.names.size, todo.length)
  decreasing_by
    rcases serve_progress _served with ⟨rfl, same⟩ | ⟨room, grown⟩
    · rw [same]
      exact Prod.Lex.right _ (by simp)
    · exact Prod.Lex.left _ _ (by omega)

end Loader

end ElfLoader
