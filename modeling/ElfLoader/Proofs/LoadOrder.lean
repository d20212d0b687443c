import ElfLoader.Proofs.OneLibrary
import Mathlib.Data.List.Induction

/-!
# The order in which objects are loaded

Objects are loaded depth first: each when it is first asked for, and what it needs next,
before anything else. The loader finds this out while it builds the graph that it walks
on. Afterwards the order can be told from the finished graph alone: it is the preorder of
a depth-first traversal (`ElfLoader.DepthFirst`) from the executable.

Two things carry this from step to step. Names keep their meaning, so every request
comes to the object that its name leads to in the end; and what an object needs
is what the names lead to that it has asked for so far
(`ElfLoader.ObjectGraph.Answered`).
-/

namespace ElfLoader

/-! ### Depth-first traversals -/

/-- **The preorder of a depth-first traversal.** The keys of a list are gone through in
turn. One that has been met is left out; any other comes next, and what follows it in the
graph is gone through before the rest of the list. -/
inductive DepthFirst (next : Key → List Key) : List Key → List Key → List Key → Prop
  /-- The list is at its end. -/
  | done (met : List Key) : DepthFirst next [] met []
  /-- The key has been met. -/
  | seen {key : Key} {rest met order : List Key} (known : key ∈ met)
    (others : DepthFirst next rest met order) : DepthFirst next (key :: rest) met order
  /-- The key is met now, and then the keys below it. -/
  | new {key : Key} {rest met below order : List Key} (unknown : key ∉ met)
    (deeper : DepthFirst next (next key) (met ++ [key]) below)
    (others : DepthFirst next rest (met ++ key :: below) order) :
    DepthFirst next (key :: rest) met (key :: below ++ order)

namespace DepthFirst

variable {next : Key → List Key} {todo first second met order order' : List Key}

/-- **There is only one preorder.** -/
theorem unique (h : DepthFirst next todo met order) (h' : DepthFirst next todo met order') :
    order = order' := by
  induction h generalizing order' with
  | done met =>
    cases h'
    rfl
  | seen known others ih =>
    cases h' with
    | seen known' others' => exact ih others'
    | new unknown' deeper' others' => exact absurd known unknown'
  | new unknown deeper others ihDeeper ihOthers =>
    cases h' with
    | seen known' others' => exact absurd known' unknown
    | new unknown' deeper' others' =>
      obtain rfl := ihDeeper deeper'
      rw [ihOthers others']

/-- A list of two parts is gone through part by part. -/
theorem append_iff : DepthFirst next (first ++ second) met order ↔
    ∃ before after, DepthFirst next first met before ∧
      DepthFirst next second (met ++ before) after ∧ order = before ++ after := by
  constructor
  · intro h
    induction first generalizing met order with
    | nil => exact ⟨[], order, .done met, by simpa using h, rfl⟩
    | cons key first ih =>
      cases h with
      | seen known others =>
        obtain ⟨before, after, hbefore, hafter, rfl⟩ := ih others
        exact ⟨before, after, .seen known hbefore, hafter, rfl⟩
      | @new _ _ _ below order unknown deeper others =>
        obtain ⟨before, after, hbefore, hafter, rfl⟩ := ih others
        refine ⟨key :: below ++ before, after, .new unknown deeper hbefore, ?_, by simp⟩
        simpa using hafter
  · rintro ⟨before, after, hbefore, hafter, rfl⟩
    induction hbefore with
    | done met => simpa using hafter
    | seen known others ih => exact .seen known (ih hafter)
    | new unknown deeper others ihDeeper ihOthers =>
      rw [List.append_assoc]
      exact .new unknown deeper (ihOthers (by simpa using hafter))

/-- Every key of the list is met in the end. -/
theorem mem_of_mem (h : DepthFirst next todo met order) {key : Key} (hkey : key ∈ todo) :
    key ∈ met ++ order := by
  induction h with
  | done met => cases hkey
  | seen known others ih =>
    rcases List.mem_cons.1 hkey with rfl | hkey
    · exact List.mem_append_left _ known
    · exact ih hkey
  | @new key' rest met below order unknown deeper others ihDeeper ihOthers =>
    rcases List.mem_cons.1 hkey with rfl | hkey
    · simp
    · simpa using ihOthers hkey

/-- **Asking twice makes no difference.** -/
theorem eraseDups (h : DepthFirst next todo met order) :
    DepthFirst next todo.eraseDups met order := by
  -- from the back, as a key is left out because of what stands before it
  induction todo using List.reverseRecOn generalizing order with
  | nil => exact h
  | append_singleton todo key ih =>
    obtain ⟨before, after, hbefore, hafter, rfl⟩ := append_iff.1 h
    rw [List.eraseDups_append, append_iff]
    refine ⟨before, after, ih hbefore, ?_, rfl⟩
    by_cases hkey : key ∈ todo
    · -- the key has been met on the way to it, so the traversal stops here
      have hmet := hbefore.mem_of_mem hkey
      cases hafter with
      | seen known others =>
        simpa [List.removeAll, hkey] using others
      | new unknown deeper others => exact absurd hmet unknown
    · simpa [List.removeAll, hkey, List.eraseDups_cons] using hafter

end DepthFirst

/-! ### What objects need -/

namespace ObjectGraph

variable {g g' : ObjectGraph} {r : Request} {todo : List Request} {dep : Key} {n : Node}

/-- What an object needs, as far as it is known. -/
def depsOf (g : ObjectGraph) (key : Key) : List Key :=
  match g.get? key with
  | some n => n.deps
  | none => []

/-- The names that requests of an object ask for. -/
def pending (todo : List Request) (key : Key) : List String :=
  (todo.filter fun r => r.asker = key).map (·.name)

theorem pending_append (first second : List Request) (key : Key) :
    pending (first ++ second) key = pending first key ++ pending second key := by
  simp [pending]

theorem pending_cons (r : Request) (todo : List Request) (key : Key) :
    pending (r :: todo) key = pending [r] key ++ pending todo key :=
  pending_append [r] todo key

/-- The requests of an object ask for what it needs. -/
theorem pending_requests (n : Node) (key : Key) :
    pending (n.requests key) key = n.object.needed := by
  simp [pending, Node.requests, List.filter_map, Function.comp_def]

/-- Requests of others do not count. -/
theorem pending_eq_nil {key : Key} (h : ∀ r ∈ todo, r.asker ≠ key) : pending todo key = [] := by
  rw [pending, List.map_eq_nil_iff, List.filter_eq_nil_iff]
  simpa using h

/-- What the requests of an object lead to. -/
theorem filterMap_requests (g : ObjectGraph) (n : Node) (key : Key) :
    (n.requests key).filterMap (fun r => g.find? r.name) = n.object.needed.filterMap g.find? := by
  rw [Node.requests, List.filterMap_map]
  rfl

/-- **The requests of an object are answered so far**: what it needs is what the names lead
to that it has asked for, and the other names are those that it is still to ask for. -/
def AnsweredFor (g : ObjectGraph) (todo : List Request) (n : Node) : Prop :=
  ∃ (asked : List String) (found : List Key), n.object.needed = asked ++ pending todo n.key ∧
    asked.map g.find? = found.map some ∧ n.deps = found.eraseDups

/-- **All requests are answered**, except for those that are still to be served. -/
structure Answered (g : ObjectGraph) (todo : List Request) : Prop where
  /-- Requests come from objects. -/
  asker : ∀ r ∈ todo, r.asker.toNat < g.size
  /-- The requests of every object are answered so far. -/
  node : ∀ n ∈ g.toList, g.AnsweredFor todo n

/-- An answer stays right when more names get known. -/
theorem AnsweredFor.keeps (h : g.AnsweredFor todo n) (hkeeps : g.Keeps g') :
    g'.AnsweredFor todo n := by
  obtain ⟨asked, found, hneeded, hfound, hdeps⟩ := h
  refine ⟨asked, found, hneeded, ?_, hdeps⟩
  rw [← hfound, List.map_inj_left]
  intro name hname
  obtain ⟨key, -, hkey⟩ := List.mem_map.1 (hfound ▸ List.mem_map_of_mem hname)
  rw [← hkey, hkeeps name key hkey.symm]

/-- One more dependency, unless it is there already. -/
theorem withDep_eraseDups (found : List Key) (dep : Key) :
    withDep found.eraseDups dep = (found ++ [dep]).eraseDups := by
  rw [List.eraseDups_append, withDep]
  by_cases hdep : dep ∈ found
  · simp [hdep, List.removeAll]
  · simp [hdep, List.removeAll, List.eraseDups_cons]

/-- **An edge answers a request.** -/
theorem Answered.addEdge (h : g.Answered (r :: todo)) (hg : g.Numbered)
    (hdep : g.find? r.name = some dep) : (g.addEdge r.asker dep).Answered todo where
  asker r' hr' := by
    rw [size_addEdge]
    exact h.asker r' (List.mem_cons_of_mem r hr')
  node n hn := by
    obtain ⟨i, hi⟩ := List.mem_iff_getElem?.1 hn
    rw [getElem?_toList, getElem?_addEdge] at hi
    obtain ⟨n₀, hn₀, rfl⟩ := Option.map_eq_some_iff.1 hi
    obtain ⟨asked, found, hneeded, hfound, hdeps⟩ :=
      h.node n₀ (List.mem_iff_getElem?.2 ⟨i, by rw [getElem?_toList, hn₀]⟩)
    have hkey := hg.key_eq i n₀ hn₀
    split
    · next hasker =>
      -- the object that asks: one more name has been asked for, and one more key found
      have hr : r.asker = n₀.key := by rw [hkey, ← hasker, Key.ofNat_toNat]
      have hpending : pending (r :: todo) n₀.key = r.name :: pending todo n₀.key := by
        simp [pending, hr]
      refine ⟨asked ++ [r.name], found ++ [dep], ?_, ?_, ?_⟩
      · rw [hneeded, hpending, List.append_assoc]
        rfl
      · rw [List.map_append, List.map_append, List.map_singleton, List.map_singleton,
          find?_addEdge, hdep, ← hfound]
        rfl
      · rw [hdeps, withDep_eraseDups]
    · next hasker =>
      -- any other object: neither its names nor its keys have changed
      have hr : ¬ r.asker = n₀.key := by
        intro hr
        have hle : i ≤ KeyTable.capacity :=
          ((Array.getElem?_eq_some_iff.1 hn₀).1.trans_le hg.size_le).le
        rw [hr, hkey, Key.toNat_ofNat hle] at hasker
        exact hasker rfl
      refine ⟨asked, found, ?_, hfound, hdeps⟩
      rw [hneeded]
      simp [pending, hr]

/-- A graph whose requests are answered is one when it gets to know more names. -/
theorem Answered.insertAlias (h : g.Answered todo) (name : String) (key : Key) :
    (g.insertAlias name key).2.Answered todo :=
  ⟨h.asker, fun n hn => (h.node n hn).keeps (g.keeps_insertAlias name key)⟩

end ObjectGraph

namespace Loader

open ObjectGraph

variable {fs : FileSystem} {r : Request} {l l' : Loader} {more rest todo : List Request}
  {memory : Memory} {root o : Object} {n : Node} {name : String}

section Placed

variable (hp : l.Placed name o n l')

include hp

theorem toList_placed : l'.graph.toList = l.graph.toList ++ [n] := by
  simp [ObjectGraph.toList, hp.nodes_eq]

theorem size_placed : l'.graph.size = l.graph.size + 1 := by
  simp [ObjectGraph.size, hp.nodes_eq]

/-- The key of an object that has been placed is new. -/
theorem toNat_key_placed (hl : l.graph.Numbered) : n.key.toNat = l.graph.size := by
  have hkey : n.key = l.graph.nextKey := by
    rw [hp.node_eq]
    rfl
  rw [hkey, nextKey, Key.toNat_ofNat hl.size_le]

/-- **An object that has been placed** has all of its requests before it. -/
theorem answered_placed (h : l.graph.Answered (r :: rest)) (hl : l.graph.Numbered) :
    l'.graph.Answered (r :: (n.requests n.key ++ rest)) := by
  have hnew := toNat_key_placed hp hl
  have hsize := size_placed hp
  have hothers : ∀ r' ∈ r :: rest, r'.asker ≠ n.key := by
    rintro r' hr' hkey
    have hlt := h.asker r' hr'
    rw [hkey, hnew] at hlt
    exact Nat.lt_irrefl _ hlt
  constructor
  · intro r' hr'
    rw [hsize]
    rcases List.mem_cons.1 hr' with rfl | hr'
    · exact Nat.lt_succ_of_lt (h.asker r' List.mem_cons_self)
    · rcases List.mem_append.1 hr' with hr' | hr'
      · obtain ⟨name, -, rfl⟩ := List.mem_map.1 hr'
        exact hnew ▸ Nat.lt_succ_self _
      · exact Nat.lt_succ_of_lt (h.asker r' (List.mem_cons_of_mem r hr'))
  · intro m hm
    rw [toList_placed hp, List.mem_append, List.mem_singleton] at hm
    rcases hm with hm | rfl
    · -- the new requests are not those of an object that was there before
      obtain ⟨asked, found, hneeded, hfound, hdeps⟩ := (h.node m hm).keeps hp.keeps
      refine ⟨asked, found, ?_, hfound, hdeps⟩
      have hne : ∀ r' ∈ n.requests n.key, r'.asker ≠ m.key := by
        intro r' hr' hkey
        obtain ⟨name, -, rfl⟩ := List.mem_map.1 hr'
        obtain ⟨i, hi⟩ := List.mem_iff_getElem?.1 hm
        rw [getElem?_toList] at hi
        have hlt := (Array.getElem?_eq_some_iff.1 hi).1
        change n.key = m.key at hkey
        rw [hkey, hl.key_eq i m hi, Key.toNat_ofNat (hlt.trans_le hl.size_le).le] at hnew
        exact absurd hnew hlt.ne
      rw [hneeded, pending_cons, pending_cons r (_ ++ _), pending_append, pending_eq_nil hne,
        List.nil_append]
    · -- the new object has asked for nothing yet
      refine ⟨[], [], ?_, rfl, ?_⟩
      · have hfirst : ∀ r' ∈ [r], r'.asker ≠ m.key := by
          rintro r' hr'
          obtain rfl := List.mem_singleton.1 hr'
          exact hothers r' List.mem_cons_self
        rw [pending_cons, pending_append, pending_requests, pending_eq_nil hfirst,
          pending_eq_nil fun r' hr' => hothers r' (List.mem_cons_of_mem r hr'), List.append_nil]
        rfl
      · rw [hp.node_eq]
        rfl

end Placed

/-- **Serving a request answers it.** -/
theorem Served.answered (h : Served fs r l more l') (hl : l.Orderly memory root)
    (ha : l.graph.Answered (r :: rest)) : l'.graph.Answered (more ++ rest) := by
  cases h with
  | known found => exact ha.addEdge hl.numbered found
  | aliased new located found =>
    have hknown := hl.numbered.known _ _ found
    refine (ha.insertAlias _ _).addEdge (hl.numbered.insertAlias _ hknown) ?_
    rw [find?_insertAlias, new, Option.none_or, if_pos rfl]
  | brought new located unknown opened admitted placed =>
    exact (answered_placed placed ha hl.numbered).addEdge placed.numbered placed.find?_eq

/-- **A run answers all requests.** -/
theorem Serves.answered (h : Serves fs todo l l') (hl : l.Orderly memory root)
    (hpage : isPowerOfTwo l.config.pageSize.toNat) (ha : l.graph.Answered todo) :
    l'.graph.Answered [] := by
  induction h with
  | done l => exact ha
  | step served others ih =>
    exact ih (served.orderly hl hpage) (served.config_eq ▸ hpage) (served.answered hl ha)

end Loader

/-! ### Keys in load order -/

namespace ObjectGraph

variable {g : ObjectGraph} {n : Node} {i : Nat}

/-- The keys of all objects in load order. -/
def keys (g : ObjectGraph) : List Key := (List.range g.size).map Key.ofNat

theorem Numbered.mem_keys_iff (hg : g.Numbered) {key : Key} :
    key ∈ g.keys ↔ key.toNat < g.size := by
  simp only [keys, List.mem_map, List.mem_range]
  constructor
  · rintro ⟨i, hi, rfl⟩
    rwa [Key.toNat_ofNat (hi.trans_le hg.size_le).le]
  · exact fun h => ⟨key.toNat, h, key.ofNat_toNat⟩

/-- **Once all requests are answered**, an object needs what the names lead to that it asks
for, each once. -/
theorem Answered.depsOf_eq (h : g.Answered []) (hg : g.Numbered) (hn : g.settled[i]? = some n) :
    g.depsOf n.key = (n.object.needed.filterMap g.find?).eraseDups := by
  rw [getElem?_settled] at hn
  obtain ⟨m, hm, rfl⟩ := Option.map_eq_some_iff.1 hn
  obtain ⟨asked, found, hneeded, hfound, hdeps⟩ :=
    h.node m (List.mem_iff_getElem?.2 ⟨i, by rw [getElem?_toList, hm]⟩)
  change g.depsOf m.key = (m.object.needed.filterMap g.find?).eraseDups
  have hall : m.object.needed = asked := by simpa [pending] using hneeded
  have hget : asked.filterMap g.find? = found := by
    have hid : (asked.map g.find?).filterMap id = (found.map some).filterMap id := by rw [hfound]
    simpa [List.filterMap_map] using hid
  rw [depsOf, hg.get?_key hm, hall, hget]
  exact hdeps

end ObjectGraph

namespace Loader

open ObjectGraph

variable {fs : FileSystem} {r : Request} {l l' : Loader} {more todo : List Request}
  {memory : Memory} {root : Object}

/-- Objects that are there stay there. -/
theorem Served.settled_prefix (h : Served fs r l more l') :
    l.graph.settled <+: l'.graph.settled := by
  cases h with
  | known found => simp [answer]
  | aliased new located found =>
    rw [answer, settled_addEdge]
    exact List.prefix_refl _
  | brought new located unknown opened admitted placed =>
    rw [answer, settled_addEdge, Orderly.settled_placed placed]
    exact List.prefix_append _ _

/-- Objects that are there stay there until the end. -/
theorem Serves.settled_prefix (h : Serves fs todo l l') :
    l.graph.settled <+: l'.graph.settled := by
  induction h with
  | done l => exact List.prefix_refl _
  | step served others ih => exact served.settled_prefix.trans ih

/-- **A request comes to an object that was there, or to the next one.** -/
theorem Served.found_or_new (h : Served fs r l more l') (hl : l.Orderly memory root) :
    (∃ key ∈ l.graph.keys, l'.graph.find? r.name = some key ∧ more = [] ∧
        l'.graph.keys = l.graph.keys) ∨
      ∃ n, n.key ∉ l.graph.keys ∧ l'.graph.find? r.name = some n.key ∧
        more = n.requests n.key ∧ l'.graph.keys = l.graph.keys ++ [n.key] ∧
        l'.graph.settled = l.graph.settled ++ [n] := by
  have hsize (l : Loader) (dep : Key) : (l.answer r dep).graph.size = l.graph.size :=
    l.graph.size_addEdge r.asker dep
  cases h with
  | @known dep found =>
    have hkey := hl.numbered.mem_keys_iff.2 (hl.numbered.known _ _ found)
    exact .inl ⟨dep, hkey, found, rfl, by rw [keys, hsize, keys]⟩
  | @aliased path dep new located found =>
    have hkey := hl.numbered.mem_keys_iff.2 (hl.numbered.known _ _ found)
    refine .inl ⟨dep, hkey, ?_, rfl, by rw [keys, hsize, keys]; rfl⟩
    rw [answer, find?_addEdge, find?_insertAlias, new, Option.none_or, if_pos rfl]
  | @brought path o n l₁ new located unknown opened admitted placed =>
    have hnew := toNat_key_placed placed hl.numbered
    have hkey : n.key = Key.ofNat l.graph.size := by rw [← hnew, Key.ofNat_toNat]
    refine .inr ⟨n, ?_, placed.find?_eq, rfl, ?_, ?_⟩
    · rw [hl.numbered.mem_keys_iff, hnew]
      exact Nat.lt_irrefl _
    · rw [keys, hsize, size_placed placed, List.range_succ, List.map_append, keys, hkey]
      rfl
    · rw [answer, settled_addEdge, Orderly.settled_placed placed]

/-- **A run loads objects depth first.** The requests lead to the keys that a traversal of
the final graph goes through, and the objects that the run adds are those that the
traversal comes to. -/
theorem Serves.depthFirst (h : Serves fs todo l l') (hl : l.Orderly memory root)
    (hpage : isPowerOfTwo l.config.pageSize.toNat) (ha : l.graph.Answered todo) :
    ∃ order, l'.graph.keys = l.graph.keys ++ order ∧
      DepthFirst l'.graph.depsOf (todo.filterMap fun r => l'.graph.find? r.name)
        l.graph.keys order := by
  induction h with
  | done l => exact ⟨[], by simp, .done _⟩
  | @step r more rest l l₁ l' served others ih =>
    have hl₁ := served.orderly hl hpage
    have hpage₁ : isPowerOfTwo l₁.config.pageSize.toNat := served.config_eq ▸ hpage
    have ha₁ := served.answered hl ha
    obtain ⟨order, hkeys, hfirst⟩ := ih hl₁ hpage₁ ha₁
    have hanswered := others.answered hl₁ hpage₁ ha₁
    have hnumbered := (others.orderly hl₁ hpage₁).1.numbered
    have hfound : ∀ key, l₁.graph.find? r.name = some key →
        (r :: rest).filterMap (fun r => l'.graph.find? r.name) =
          key :: rest.filterMap fun r => l'.graph.find? r.name :=
      fun key hkey => List.filterMap_cons_some (others.keeps _ _ hkey)
    rcases served.found_or_new hl with ⟨key, hkey, hfind, rfl, hsame⟩ |
      ⟨n, hnew, hfind, rfl, hmore, hsettled⟩
    · rw [hfound key hfind]
      rw [hsame] at hkeys hfirst
      exact ⟨order, hkeys, .seen hkey hfirst⟩
    · -- the requests of the new object come first, so the traversal goes below it
      have hn : l'.graph.settled[l.graph.settled.length]? = some n := by
        obtain ⟨later, hlater⟩ := others.settled_prefix
        rw [← hlater, hsettled, List.getElem?_append_left (by simp), List.getElem?_concat_length]
      have hdeps := hanswered.depsOf_eq hnumbered hn
      rw [List.filterMap_append, DepthFirst.append_iff] at hfirst
      obtain ⟨below, after, hbelow, hafter, rfl⟩ := hfirst
      rw [hmore] at hkeys hbelow hafter
      rw [filterMap_requests] at hbelow
      rw [hfound n.key hfind]
      refine ⟨n.key :: below ++ after, by simpa using hkeys, .new hnew ?_ (by simpa using hafter)⟩
      rw [hdeps]
      exact hbelow.eraseDups

/-- At first all requests of the executable are still to be served. -/
theorem Initiated.answered {path : String} {config : Config} {n : Node}
    (h : Initiated fs config memory path n l) :
    l.graph.Answered (n.requests n.key) := by
  have hlist : l.graph.toList = [n] := by rw [ObjectGraph.toList, h.nodes_eq]
  have hn : l.graph.nodes[0]? = some n := by rw [h.nodes_eq]; rfl
  have hkey := h.orderly.numbered.key_eq 0 n hn
  constructor
  · intro r hr
    obtain ⟨name, -, rfl⟩ := List.mem_map.1 hr
    change n.key.toNat < _
    rw [hkey, Key.toNat_ofNat (Nat.zero_le _), ObjectGraph.size, h.nodes_eq]
    exact Nat.zero_lt_one
  · intro m hm
    rw [hlist, List.mem_singleton] at hm
    subst hm
    exact ⟨[], [], by rw [pending_requests]; rfl, rfl, h.deps_eq⟩

/-- **The graph after the first two phases.** Its objects are in the preorder of a
depth-first traversal of the graph from the executable. Every object needs what the names
lead to that it asks for, each once and in order. And every shared object lies at the
lowest aligned address where there is room for it, given the stack, the guard page and the
objects before it. -/
theorem depthFirst_of_phases {path : String} {config : Config} {processor : Processor}
    {entry : UInt32} {u : Unit}
    (hinitiate : (initiate fs path).Yields (new config processor memory) entry l)
    (hload : (loadLibraries fs).Yields l u l') :
    (∀ order, DepthFirst l'.graph.depsOf [Key.ofNat 0] [] order ↔ order = l'.graph.keys) ∧
      (∀ n ∈ l'.graph.toList, ∃ found : List Key,
        n.object.needed.map l'.graph.find? = found.map some ∧ n.deps = found.eraseDups) ∧
      ∃ root, l'.graph.root? = some root ∧
        ∀ i n, l'.graph.toList[i]? = some n → n.object.isShared = true →
          IsLeast (l'.roomFor root.object i n) n.range.start.toNat := by
  obtain ⟨n, l₁, hn, hserves, hgraph, horderly⟩ := serves_of_phases hinitiate hload
  have hpage : isPowerOfTwo l.config.pageSize.toNat := hn.config_eq ▸ hn.pageSize
  have hanswered : l'.graph.Answered [] :=
    hgraph ▸ hserves.answered hn.orderly hpage hn.answered
  have hroot : l.graph.nodes[0]? = some n := by rw [hn.nodes_eq]; rfl
  have hkey : n.key = Key.ofNat 0 := hn.orderly.numbered.key_eq 0 n hroot
  have hsettled : l'.graph.settled[0]? = some n.settled := by
    obtain ⟨later, hlater⟩ := hserves.settled_prefix
    rw [hgraph, ← hlater, List.getElem?_append_left, getElem?_settled, hroot]
    · rfl
    · rw [length_settled, ObjectGraph.size, hn.nodes_eq]
      exact Nat.zero_lt_one
  refine ⟨?_, ?_, ?_⟩
  · intro order
    -- the traversal starts at the executable, and goes on as the run from it does
    obtain ⟨later, hkeys, hfirst⟩ := hserves.depthFirst hn.orderly hpage hn.answered
    have hdeps := hanswered.depsOf_eq horderly.numbered hsettled
    have hstart : l.graph.keys = [Key.ofNat 0] := by
      rw [keys, ObjectGraph.size, hn.nodes_eq]
      rfl
    change l'.graph.depsOf n.key = (n.object.needed.filterMap l'.graph.find?).eraseDups at hdeps
    rw [← hgraph, hstart] at hkeys
    rw [← hgraph, filterMap_requests, hstart] at hfirst
    have hall : DepthFirst l'.graph.depsOf [Key.ofNat 0] [] (Key.ofNat 0 :: later ++ []) := by
      refine .new List.not_mem_nil ?_ (.done _)
      rw [← hkey, hdeps, hkey]
      exact hfirst.eraseDups
    rw [List.append_nil] at hall
    rw [hkeys]
    exact ⟨fun h => h.unique hall, fun h => h ▸ hall⟩
  · intro m hm
    -- no requests are left, so all names have been asked for
    obtain ⟨asked, found, hneeded, hfound, hdeps⟩ := hanswered.node m hm
    have hall : m.object.needed = asked := by simpa [pending] using hneeded
    exact ⟨found, hall ▸ hfound, hdeps⟩
  · rw [getElem?_settled] at hsettled
    obtain ⟨root, hroot', hsame⟩ := Option.map_eq_some_iff.1 hsettled
    refine ⟨root, hroot', ?_⟩
    intro i m hm hshared
    have hobject : root.object = n.object := (congrArg Node.object hsame :)
    rw [hobject]
    rw [getElem?_toList] at hm
    exact horderly.least i m.settled (by rw [getElem?_settled, hm]; rfl) hshared

/-- **An executable with a library**: the library comes after the executable, the executable needs
it under its name, and it lies at the lowest page behind the executable. -/
theorem depthFirst_of_phases_copyFiles : ∃ entry l l',
    (initiate copyFiles "a").Yields (new .standard .arm litteredMemory) entry l ∧
      (loadLibraries copyFiles).Yields l () l' ∧
      DepthFirst l'.graph.depsOf [Key.ofNat 0] [] [Key.ofNat 0, Key.ofNat 1] ∧
      l'.graph.find? "d/b" = some (Key.ofNat 1) ∧
      IsLeast (l'.roomFor copyExecutable 1 copyNode) 0x2000 := by
  obtain ⟨entry, l, l', hinitiate, -, hload, -, -, -, -, hlist⟩ :=
    exists_phases_copy .arm litteredMemory rfl size_litteredMemory
  obtain ⟨horder, hdeps, root, hroot, hleast⟩ := depthFirst_of_phases hinitiate hload
  obtain ⟨⟨-, -, -, -⟩, hneeded, -⟩ := copyExecutable_facts
  have hget (i : Nat) : l'.graph.toList[i]? = [copyRoot, copyNode][i]? := by rw [hlist]
  refine ⟨entry, l, l', hinitiate, hload, (horder _).2 ?_, ?_, ?_⟩
  · rw [keys, ObjectGraph.size, ← Array.length_toList, ← ObjectGraph.toList, hlist]
    rfl
  · obtain ⟨found, hfound, hall⟩ := hdeps copyRoot (hlist ▸ List.mem_cons_self)
    change copyExecutable.needed.map _ = _ at hfound
    rw [hneeded, List.map_singleton] at hfound
    obtain ⟨key, rest, rfl, hkey, hrest⟩ := List.map_eq_cons_iff.1 hfound.symm
    obtain rfl := List.map_eq_nil_iff.1 hrest
    obtain rfl : Key.ofNat 1 = key := (List.cons.inj hall).1
    exact hkey.symm
  · obtain rfl : copyRoot = root := by
      rw [root?_eq_getElem?, hget] at hroot
      exact Option.some.inj hroot
    have hat := hleast 1 copyNode (hget 1) onePage_copyLibrary.isShared
    rwa [ranges_copy.2] at hat

end Loader

end ElfLoader
