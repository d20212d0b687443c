import ElfLoader.Program.Placement

/-!
# Names and numbers of objects

The graph of the loaded objects numbers them in load order and remembers the names that
they go by. Two things hold of it at all times: it is *numbered*
(`ElfLoader.ObjectGraph.Numbered`), so a key is a position and every name leads to an
object, and names *keep* their meaning from one step to the next
(`ElfLoader.ObjectGraph.Keeps`). What an edge changes is told apart from the rest by
`ElfLoader.ObjectGraph.settled`, the objects without their edges.
-/

namespace ElfLoader

/-! ### Keys -/

namespace Key

theorem toNat_ofNat {n : Nat} (h : n ≤ KeyTable.capacity) : (Key.ofNat n).toNat = n := by
  have hlt : n < 65536 := Nat.lt_succ_of_le h
  simp only [Key.ofNat, Key.toNat, UInt16.toNat_ofNat']
  omega

theorem ofNat_toNat (key : Key) : Key.ofNat key.toNat = key := by
  simp [Key.ofNat, Key.toNat]

end Key

namespace KeyTable

variable {t t' : KeyTable} {value : String} {key : Key}

/-- **A new text** gets the next key, and no other text changes its meaning. -/
theorem insert_eq_some (new : t.find? value = none) (h : t.insert value = some (key, t')) :
    key = Key.ofNat t.size ∧ t.size < capacity ∧ t'.size = t.size + 1 ∧
      ∀ other, t'.find? other = if other = value then some key else t.find? other := by
  unfold insert at h
  rw [new] at h
  dsimp only at h
  split at h
  · next hroom =>
    cases h
    refine ⟨rfl, hroom, by simp [size], ?_⟩
    intro other
    rw [find?, Std.HashMap.getElem?_insert]
    by_cases heq : other = value
    · subst heq
      simp
    · rw [if_neg heq, if_neg (by simpa using Ne.symm heq), find?]
  · cases h

/-- **An alias** means what it meant before, or else the key. -/
theorem find?_insertAlias (t : KeyTable) (value other : String) (key : Key) :
    (t.insertAlias value key).2.find? other =
      (t.find? other).or (if other = value then some key else none) := by
  unfold insertAlias
  by_cases heq : other = value
  · subst heq
    rw [if_pos rfl]
    cases h : t.find? other with
    | some known => exact h
    | none => simp [find?]
  · rw [if_neg heq, Option.or_none]
    cases h : t.find? value with
    | some known => rfl
    | none => simp [find?, Std.HashMap.getElem?_insert, Ne.symm heq]

end KeyTable

/-! ### Objects without their edges -/

/-- An object as it was placed, before it was known which others it needs. -/
def Node.settled (n : Node) : Node := { n with deps := [] }

namespace ObjectGraph

variable {g g' g'' : ObjectGraph} {n : Node} {key : Key}

/-- The objects in load order, without their edges. -/
def settled (g : ObjectGraph) : List Node := g.toList.map Node.settled

@[simp] theorem length_toList (g : ObjectGraph) : g.toList.length = g.size := rfl

@[simp] theorem length_settled (g : ObjectGraph) : g.settled.length = g.size := by
  simp [settled]

theorem getElem?_toList (g : ObjectGraph) (i : Nat) : g.toList[i]? = g.nodes[i]? :=
  Array.getElem?_toList ..

/-- The executable is the first object. -/
theorem root?_eq_getElem? (g : ObjectGraph) : g.root? = g.toList[0]? :=
  (g.getElem?_toList 0).symm

theorem getElem?_settled (g : ObjectGraph) (i : Nat) :
    g.settled[i]? = (g.nodes[i]?).map Node.settled := by
  rw [settled, List.getElem?_map, getElem?_toList]

theorem exists_of_getElem?_settled {i : Nat} (h : g.settled[i]? = some n) :
    ∃ m, g.toList[i]? = some m ∧ m.settled = n := by
  rw [getElem?_settled] at h
  rw [getElem?_toList]
  exact Option.map_eq_some_iff.1 h

/-- What an edge does to the object at a position. -/
theorem getElem?_addEdge (g : ObjectGraph) (user dep : Key) (i : Nat) :
    (g.addEdge user dep).nodes[i]? = (g.nodes[i]?).map fun n =>
      if user.toNat = i then { n with deps := withDep n.deps dep } else n := by
  rw [addEdge, Array.getElem?_modify]
  split <;> simp

@[simp] theorem size_addEdge (g : ObjectGraph) (user dep : Key) :
    (g.addEdge user dep).size = g.size := by
  simp [addEdge, size]

@[simp] theorem settled_addEdge (g : ObjectGraph) (user dep : Key) :
    (g.addEdge user dep).settled = g.settled := by
  apply List.ext_getElem?
  intro i
  rw [getElem?_settled, getElem?_settled, getElem?_addEdge, Option.map_map]
  congr 1
  funext n
  simp only [Function.comp_apply]
  split <;> rfl

@[simp] theorem nodes_insertAlias (g : ObjectGraph) (name : String) (key : Key) :
    (g.insertAlias name key).2.nodes = g.nodes := rfl

@[simp] theorem nodes_withNames (g : ObjectGraph) (key : Key) (path : String)
    (soname : Option String) : (Loader.withNames g key path soname).nodes = g.nodes := by
  cases soname <;> rfl

/-! ### Names keep their meaning -/

/-- **Names keep their meaning** from one graph to another. -/
def Keeps (g g' : ObjectGraph) : Prop :=
  ∀ name key, g.find? name = some key → g'.find? name = some key

theorem Keeps.refl (g : ObjectGraph) : g.Keeps g := fun _ _ h => h

theorem Keeps.trans (h : g.Keeps g') (h' : g'.Keeps g'') : g.Keeps g'' :=
  fun name key hk => h' name key (h name key hk)

@[simp] theorem find?_addEdge (g : ObjectGraph) (user dep : Key) (name : String) :
    (g.addEdge user dep).find? name = g.find? name := rfl

theorem find?_insertAlias (g : ObjectGraph) (name other : String) (key : Key) :
    (g.insertAlias name key).2.find? other =
      (g.find? other).or (if other = name then some key else none) :=
  g.names.find?_insertAlias name other key

theorem keeps_insertAlias (g : ObjectGraph) (name : String) (key : Key) :
    g.Keeps (g.insertAlias name key).2 := by
  intro other k h
  rw [find?_insertAlias, h, Option.some_or]

theorem keeps_withNames (g : ObjectGraph) (key : Key) (path : String)
    (soname : Option String) : g.Keeps (Loader.withNames g key path soname) := by
  have hpath := g.keeps_insertAlias path key
  cases soname with
  | none => exact hpath
  | some name => exact hpath.trans (keeps_insertAlias _ name key)

/-- **What adding an object does** to a graph. -/
theorem insert_eq_ok (new : g.find? n.name = none) (h : g.insert n = .ok (key, g')) :
    key = Key.ofNat g.names.size ∧ g.names.size < KeyTable.capacity ∧
      g'.names.size = g.names.size + 1 ∧ g'.nodes = g.nodes.push n ∧
      ∀ other, g'.find? other = if other = n.name then some key else g.find? other := by
  unfold insert at h
  split at h
  · next k names hk =>
    cases h
    obtain ⟨hkey, hroom, hsize, hfind⟩ := KeyTable.insert_eq_some new hk
    exact ⟨hkey, hroom, hsize, rfl, hfind⟩
  · cases h

theorem keeps_insert (new : g.find? n.name = none) (h : g.insert n = .ok (key, g')) :
    g.Keeps g' := by
  intro other k hk
  rw [(insert_eq_ok new h).2.2.2.2, if_neg, hk]
  rintro rfl
  rw [new] at hk
  cases hk

/-- A name keeps its meaning, or its lack of one, when an object gets other names. -/
theorem find?_withNames_of_ne (g : ObjectGraph) (key : Key) {path other : String}
    {soname : Option String} (hpath : other ≠ path) (hsoname : soname ≠ some other) :
    (Loader.withNames g key path soname).find? other = g.find? other := by
  have hpath' : (g.insertAlias path key).2.find? other = g.find? other := by
    rw [find?_insertAlias, if_neg hpath, Option.or_none]
  cases soname with
  | none => exact hpath'
  | some name =>
    have hname : other ≠ name := fun h => hsoname (congrArg some h.symm)
    exact (find?_insertAlias _ _ _ _).trans (by rw [if_neg hname, Option.or_none, hpath'])

/-! ### Keys are positions -/

/-- **A graph is numbered**: keys are positions, and every name leads to an object. -/
structure Numbered (g : ObjectGraph) : Prop where
  /-- Every object took up one key. -/
  size_names : g.names.size = g.size
  /-- There are no more objects than keys. -/
  size_le : g.size ≤ KeyTable.capacity
  /-- The key of an object is its position. -/
  key_eq : ∀ i n, g.nodes[i]? = some n → n.key = Key.ofNat i
  /-- A name leads to an object. -/
  known : ∀ name key, g.find? name = some key → key.toNat < g.size

@[simp] theorem find?_empty (name : String) : empty.find? name = none := by
  simp [empty, find?, KeyTable.find?, KeyTable.empty]

theorem numbered_empty : empty.Numbered where
  size_names := rfl
  size_le := Nat.zero_le _
  key_eq i n h := by simp [empty] at h
  known name key h := by simp at h

theorem Numbered.get?_key (h : g.Numbered) {i : Nat} (hn : g.nodes[i]? = some n) :
    g.get? n.key = some n := by
  obtain ⟨hi, -⟩ := Array.getElem?_eq_some_iff.1 hn
  rw [get?, h.key_eq i n hn, Key.toNat_ofNat (Nat.le_of_lt (Nat.lt_of_lt_of_le hi h.size_le)),
    hn]

/-- Objects at different positions have different keys. -/
theorem Numbered.settled_inj (h : g.Numbered) {i j : Nat} {m : Node}
    (hm : g.settled[i]? = some m) (hn : g.settled[j]? = some n) (hkey : m.key = n.key) : i = j := by
  have hposition : ∀ {i : Nat} {n : Node}, g.settled[i]? = some n → n.key.toNat = i := by
    intro i n hn
    rw [getElem?_settled] at hn
    obtain ⟨k, hk, rfl⟩ := Option.map_eq_some_iff.1 hn
    have hle := Nat.le_of_lt (Nat.lt_of_lt_of_le (Array.getElem?_eq_some_iff.1 hk).1 h.size_le)
    exact (congrArg Key.toNat (h.key_eq i k hk)).trans (Key.toNat_ofNat hle)
  rw [← hposition hm, ← hposition hn, hkey]

theorem Numbered.addEdge (h : g.Numbered) (user dep : Key) : (g.addEdge user dep).Numbered where
  size_names := by rw [names_addEdge, size_addEdge, h.size_names]
  size_le := by rw [size_addEdge]; exact h.size_le
  key_eq i n hn := by
    rw [getElem?_addEdge] at hn
    obtain ⟨n₀, hn₀, rfl⟩ := Option.map_eq_some_iff.1 hn
    split <;> exact h.key_eq i n₀ hn₀
  known name key hk := by
    rw [size_addEdge]
    exact h.known name key hk

theorem Numbered.insertAlias (h : g.Numbered) (name : String) (hkey : key.toNat < g.size) :
    (g.insertAlias name key).2.Numbered where
  size_names := by rw [size_names_insertAlias]; exact h.size_names
  size_le := h.size_le
  key_eq := h.key_eq
  known other k hk := by
    rw [find?_insertAlias, Option.or_eq_some_iff] at hk
    rcases hk with hk | ⟨-, hk⟩
    · exact h.known other k hk
    · obtain ⟨-, hk⟩ := Option.ite_none_right_eq_some.1 hk
      cases hk
      exact hkey

theorem Numbered.withNames (h : g.Numbered) (path : String) (soname : Option String)
    (hkey : key.toNat < g.size) : (Loader.withNames g key path soname).Numbered := by
  have hpath := h.insertAlias path hkey
  cases soname with
  | none => exact hpath
  | some name => exact hpath.insertAlias name hkey

/-- **A numbered graph stays numbered** when an object is added under a new name and with
the next key. -/
theorem Numbered.insert (h : g.Numbered) (new : g.find? n.name = none)
    (hkey : n.key = g.nextKey) (hn : g.insert n = .ok (key, g')) :
    key = g.nextKey ∧ g'.Numbered := by
  obtain ⟨hk, hroom, hsize, hnodes, hfind⟩ := insert_eq_ok new hn
  -- keys count names, positions count objects, and up to now there are as many of either
  have hk' : key = g.nextKey := by rw [hk, h.size_names, nextKey]
  have hsize' : g'.size = g.size + 1 := by rw [size, hnodes, Array.size_push, size]
  rw [h.size_names] at hroom hsize
  refine ⟨hk', by rw [hsize, hsize'], by omega, ?_, ?_⟩
  · intro i m hm
    rw [hnodes, Array.getElem?_push] at hm
    split at hm
    · next hi =>
      cases hm
      rw [hkey, nextKey, hi, size]
    · exact h.key_eq i m hm
  · intro name k hname
    rw [hfind] at hname
    split at hname
    · -- the new name leads to the new object, which is the last one
      cases hname
      rw [hk', nextKey, Key.toNat_ofNat (Nat.le_of_lt hroom), hsize']
      exact Nat.lt_succ_self _
    · exact hsize' ▸ Nat.lt_succ_of_lt (h.known name k hname)

/-! ### One more object -/

/-- **An object has joined a graph**: it comes last, a name leads to it, and all other names
keep their meaning. -/
structure Joined (g : ObjectGraph) (name : String) (n : Node) (g' : ObjectGraph) : Prop where
  /-- The object comes last. -/
  nodes_eq : g'.nodes = g.nodes.push n
  /-- The name leads to it. -/
  find?_eq : g'.find? name = some n.key
  /-- The names keep their meaning. -/
  keeps : g.Keeps g'
  /-- Keys are positions still. -/
  numbered : g'.Numbered

end ObjectGraph

end ElfLoader
