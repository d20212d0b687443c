import ElfLoader.Proofs.Names
import Mathlib.Logic.Relation
import Mathlib.Order.Nat

/-!
# The keys that a table hands out

A table may be asked for keys in any order, for new texts and for further texts of keys that it has
handed out (`ElfLoader.KeyTable.Use.Step`). What it knows is then no more and no less than what it
has answered (`ElfLoader.KeyTable.Use.Faithful`): a text is found just with the key that was
answered for it, so no two answers for a text differ, and the text of a key is the one for which
the key was first handed out. Without repeats, the keys come out as 0, 1, 2 … in this order.

So a text keeps its key for good, whether it got it by being inserted or as an alias, and a key
keeps its text (`ElfLoader.KeyTable.answers_of_steps`). Keys are halves, but no bit of a position is
lost: a table is full before the positions run out.
-/

namespace ElfLoader.KeyTable

/-! ### One more text -/

/-- One more item counts if it is not there yet. -/
theorem eraseDups_concat {α : Type} [BEq α] [LawfulBEq α] (l : List α) (a : α) [Decidable (a ∈ l)] :
    (l ++ [a]).eraseDups = if a ∈ l then l.eraseDups else l.eraseDups ++ [a] := by
  rw [List.eraseDups_append]
  split <;> next h => simp [List.removeAll, h, List.eraseDups_cons]

section Insert

variable {t t' : KeyTable} {value : String} {key other : Key}

/-- A text that is known keeps its key, and the table is the same. -/
theorem insert_of_known (h : t.find? value = some key) : t.insert value = some (key, t) := by
  rw [insert, h]

/-- A new text gets the next key, if there is one left. -/
theorem exists_insert_of_new (new : t.find? value = none) (hroom : t.size < capacity) :
    ∃ t', t.insert value = some (Key.ofNat t.size, t') := by
  rw [insert, new]
  exact ⟨_, if_pos hroom⟩

/-- **There is no key to be had** for a new text in a full table, and otherwise there always is. -/
theorem insert_eq_none_iff :
    t.insert value = none ↔ t.find? value = none ∧ capacity ≤ t.size := by
  cases hfind : t.find? value with
  | some known => simp [insert_of_known hfind]
  | none =>
    rw [insert, hfind]
    dsimp only
    split
    · next hroom => simp [hroom]
    · next hfull => simp [Nat.le_of_not_lt hfull]

/-- The next key belongs to the new text, and no other key changes its text. -/
theorem get?_of_insert (new : t.find? value = none) (h : t.insert value = some (key, t')) :
    t'.get? other = if other.toNat = t.size then some value else t.get? other := by
  rw [insert, new] at h
  dsimp only at h
  split at h
  · cases h
    exact Array.getElem?_push
  · cases h

/-- An alias is no text of a key. -/
@[simp] theorem get?_insertAlias (t : KeyTable) (value : String) (key other : Key) :
    (t.insertAlias value key).2.get? other = t.get? other := by
  unfold insertAlias
  split <;> rfl

end Insert

/-! ### Tables in use -/

/-- A text that a table was asked about, and the key that it answered. -/
structure Answer where
  /-- The text. -/
  value : String
  /-- The key. -/
  key : Key
  deriving DecidableEq, Repr

/-- A table in use. -/
structure Use where
  /-- The table. -/
  table : KeyTable
  /-- All its answers so far, in their order. -/
  answers : List Answer

namespace Use

/-- A table that has not been asked for anything. -/
def new : Use := ⟨empty, []⟩

/-- **A table is asked once more.** Aliases are given only to keys that it has handed out. -/
inductive Step : Use → Use → Prop
  /-- A text gets a key, or has one. -/
  | insert {u : Use} {value : String} {key : Key} {table : KeyTable}
    (answered : u.table.insert value = some (key, table)) :
    Step u ⟨table, u.answers ++ [⟨value, key⟩]⟩
  /-- There is no key left for a text. -/
  | refuse {u : Use} {value : String} (refused : u.table.insert value = none) : Step u u
  /-- A text gets a key that is there, or has one. -/
  | insertAlias {u : Use} {key : Key} (value : String) (handed : key ∈ u.answers.map (·.key)) :
    Step u ⟨(u.table.insertAlias value key).2,
      u.answers ++ [⟨value, (u.table.insertAlias value key).1⟩]⟩

/-- **A table knows what it has answered**, and nothing else. -/
structure Faithful (u : Use) : Prop where
  /-- There are no more keys than halves can tell apart. -/
  size_le : u.table.size ≤ capacity
  /-- The keys come out in order. -/
  keys_eq : (u.answers.map (·.key.toNat)).eraseDups = List.range u.table.size
  /-- A text is found with the key that was answered for it. -/
  find?_iff : ∀ value key, u.table.find? value = some key ↔ ⟨value, key⟩ ∈ u.answers
  /-- The text of a key is the first one for which it was answered. -/
  get?_eq : ∀ key, u.table.get? key = (u.answers.find? (·.key == key)).map (·.value)

theorem faithful_new : new.Faithful where
  size_le := Nat.zero_le _
  keys_eq := rfl
  find?_iff value key := by simp [new, KeyTable.find?, empty]
  get?_eq key := rfl

namespace Faithful

variable {u u' : Use} {value : String} {key : Key}

/-- The keys that have been handed out are the first ones. -/
theorem handed_iff (h : u.Faithful) : key ∈ u.answers.map (·.key) ↔ key.toNat < u.table.size := by
  rw [← List.mem_range, ← h.keys_eq, List.mem_eraseDups, List.mem_map, List.mem_map]
  refine exists_congr fun a => and_congr_right fun _ => ⟨congrArg Key.toNat, fun heq => ?_⟩
  rw [← Key.ofNat_toNat a.key, heq, Key.ofNat_toNat]

/-- A key that is handed out again adds nothing to the keys. -/
theorem eraseDups_append (h : u.Faithful) (hkey : key.toNat < u.table.size) :
    ((u.answers ++ [Answer.mk value key]).map (·.key.toNat)).eraseDups =
      List.range u.table.size := by
  have hmem : key.toNat ∈ u.answers.map (·.key.toNat) := by
    rw [← List.mem_eraseDups, h.keys_eq]
    exact List.mem_range.2 hkey
  rw [List.map_append, List.map_singleton, eraseDups_concat, if_pos hmem, h.keys_eq]

/-- A key that is handed out again keeps its text. -/
theorem find?_append (h : u.Faithful) (hkey : key.toNat < u.table.size) (other : Key) :
    (u.answers ++ [Answer.mk value key]).find? (·.key == other) =
      u.answers.find? (·.key == other) := by
  rw [List.find?_append]
  cases hfound : u.answers.find? (·.key == other) with
  | some a => rfl
  | none =>
    -- the key has been handed out before, so it is not the one that is looked for
    obtain ⟨a, ha, rfl⟩ := List.mem_map.1 (h.handed_iff.2 hkey)
    have hne := List.find?_eq_none.1 hfound a ha
    simp [hne]

/-- **The same answer again** changes nothing. -/
theorem again (h : u.Faithful) (known : u.table.find? value = some key) :
    Faithful ⟨u.table, u.answers ++ [⟨value, key⟩]⟩ := by
  have hmem := (h.find?_iff value key).1 known
  have hkey := h.handed_iff.1 (List.mem_map_of_mem (f := Answer.key) hmem)
  refine ⟨h.size_le, h.eraseDups_append hkey, ?_, ?_⟩
  · intro other k
    rw [h.find?_iff, List.mem_append, List.mem_singleton]
    constructor
    · exact .inl
    · rintro (hk | heq)
      · exact hk
      · exact heq ▸ hmem
  · intro other
    rw [h.get?_eq, h.find?_append hkey]

/-- An answer for a new text is one more thing to be known. -/
theorem find?_iff_append (h : u.Faithful) (new : u.table.find? value = none) {table : KeyTable}
    (hfind : ∀ other, table.find? other = if other = value then some key else u.table.find? other)
    (other : String) (k : Key) :
    table.find? other = some k ↔ ⟨other, k⟩ ∈ u.answers ++ [⟨value, key⟩] := by
  rw [hfind, List.mem_append, List.mem_singleton, ← h.find?_iff, Answer.mk.injEq]
  split
  · next heq =>
    subst heq
    simp [new, eq_comm]
  · next hne => simp [hne]

/-- A new text gets the next key. -/
theorem inserted (h : u.Faithful) (new : u.table.find? value = none) {table : KeyTable}
    (answered : u.table.insert value = some (key, table)) :
    Faithful ⟨table, u.answers ++ [⟨value, key⟩]⟩ := by
  obtain ⟨rfl, hroom, hsize, hfind⟩ := insert_eq_some new answered
  have hnumber : (Key.ofNat u.table.size).toNat = u.table.size := Key.toNat_ofNat hroom.le
  have hfresh : u.table.size ∉ u.answers.map (·.key.toNat) := by
    rw [← List.mem_eraseDups, h.keys_eq, List.mem_range]
    exact lt_irrefl _
  refine ⟨hsize.trans_le hroom, ?_, h.find?_iff_append new hfind, ?_⟩
  · change _ = List.range table.size
    rw [hsize, List.range_succ, List.map_append, List.map_singleton, hnumber, eraseDups_concat,
      if_neg hfresh, h.keys_eq]
  · intro other
    rw [get?_of_insert new answered, h.get?_eq, List.find?_append]
    by_cases heq : other.toNat = u.table.size
    · -- nothing was answered with the next key up to now
      have hother : other = Key.ofNat u.table.size := by rw [← heq, Key.ofNat_toNat]
      have hnone : u.answers.find? (·.key == other) = none := by
        refine List.find?_eq_none.2 fun a ha hkey => hfresh ?_
        rw [← heq, ← beq_iff_eq.1 hkey]
        exact List.mem_map_of_mem (f := fun a : Answer => a.key.toNat) ha
      rw [if_pos heq, hnone, hother]
      simp
    · have hne : Key.ofNat u.table.size ≠ other := by
        rintro rfl
        exact heq hnumber
      rw [if_neg heq]
      simp [hne]

/-- A text that is new becomes an alias of a key that is there. -/
theorem aliased (h : u.Faithful) (new : u.table.find? value = none)
    (handed : key ∈ u.answers.map (·.key)) :
    Faithful ⟨(u.table.insertAlias value key).2, u.answers ++ [⟨value, key⟩]⟩ := by
  have hkey := h.handed_iff.1 handed
  refine ⟨?_, ?_, h.find?_iff_append new fun other => ?_, ?_⟩
  · exact (size_insertAlias ..).trans_le h.size_le
  · rw [size_insertAlias]
    exact h.eraseDups_append hkey
  · rw [find?_insertAlias]
    split
    · next heq => rw [heq, new, Option.none_or]
    · rw [Option.or_none]
  · intro other
    rw [get?_insertAlias, h.get?_eq, h.find?_append hkey]

/-- **A table stays faithful**, whatever it is asked. -/
theorem step (h : u.Faithful) (hstep : Step u u') : u'.Faithful := by
  cases hstep with
  | @insert value key table answered =>
    cases hfind : u.table.find? value with
    | some known =>
      rw [insert_of_known hfind] at answered
      cases answered
      exact h.again hfind
    | none => exact h.inserted hfind answered
  | refuse => exact h
  | @insertAlias key value handed =>
    cases hfind : u.table.find? value with
    | some known =>
      have halias : u.table.insertAlias value key = (known, u.table) := by
        rw [KeyTable.insertAlias, hfind]
      rw [halias]
      exact h.again hfind
    | none =>
      have halias : (u.table.insertAlias value key).1 = key := by
        rw [KeyTable.insertAlias, hfind]
      rw [halias]
      exact h.aliased hfind handed

theorem steps (h : u.Faithful) (hsteps : Relation.ReflTransGen Step u u') : u'.Faithful := by
  induction hsteps with
  | refl => exact h
  | tail _ hstep ih => exact ih.step hstep

/-- The text of a key is found with it. -/
theorem find?_of_get? (h : u.Faithful) (hget : u.table.get? key = some value) :
    u.table.find? value = some key := by
  rw [h.get?_eq] at hget
  obtain ⟨a, ha, rfl⟩ := Option.map_eq_some_iff.1 hget
  have hkey : a.key = key := beq_iff_eq.1 (List.find?_some (p := fun a : Answer => a.key == key) ha)
  rw [h.find?_iff, ← hkey]
  exact List.mem_of_find?_eq_some ha

end Faithful

/-- No answer is taken back. -/
theorem answers_subset_of_steps {u u' : Use} (h : Relation.ReflTransGen Step u u') :
    u.answers ⊆ u'.answers := by
  induction h with
  | refl => exact List.Subset.refl _
  | tail _ hstep ih =>
    refine List.Subset.trans ih ?_
    cases hstep with
    | insert => exact List.subset_append_left ..
    | refuse => exact List.Subset.refl _
    | insertAlias => exact List.subset_append_left ..

end Use

/-- **The keys of a table**, whatever it has been asked for. Without repeats they have come out as
0, 1, 2 … up to the size of the table, which a half can hold. Each of them has a text, the one for
which it came out first; different keys have different texts, and the text of a key is found with
it. A text is found just with the key that was answered for it, which is one of these keys, and
whatever the table is asked for later, the text keeps it. A text that is known is not inserted once
more, and any other one is, unless all keys have been handed out. -/
theorem answers_of_steps {u : Use} (h : Relation.ReflTransGen Use.Step Use.new u) :
    (u.answers.map (·.key.toNat)).eraseDups = List.range u.table.size ∧ u.table.size ≤ 65535 ∧
      (∀ key, u.table.get? key = (u.answers.find? (·.key == key)).map (·.value)) ∧
      (∀ key, key.toNat < u.table.size →
        ∃ value, u.table.get? key = some value ∧ u.table.find? value = some key) ∧
      (∀ key other value, u.table.get? key = some value → u.table.get? other = some value →
        key = other) ∧
      (∀ value key, u.table.find? value = some key ↔ ⟨value, key⟩ ∈ u.answers) ∧
      (∀ value key, u.table.find? value = some key → key.toNat < u.table.size) ∧
      (∀ u', Relation.ReflTransGen Use.Step u u' → ∀ value key,
        u.table.find? value = some key → u'.table.find? value = some key) ∧
      (∀ value key, u.table.find? value = some key → u.table.insert value = some (key, u.table)) ∧
      ∀ value, u.table.insert value = none ↔
        u.table.find? value = none ∧ u.table.size = 65535 := by
  have hu := Use.faithful_new.steps h
  refine ⟨hu.keys_eq, hu.size_le, hu.get?_eq, ?_, ?_, hu.find?_iff, ?_, ?_, ?_, ?_⟩
  · intro key hkey
    have hget : u.table.get? key = some u.table.values[key.toNat] := Array.getElem?_eq_getElem hkey
    exact ⟨_, hget, hu.find?_of_get? hget⟩
  · intro key other value hkey hother
    exact Option.some.inj ((hu.find?_of_get? hkey).symm.trans (hu.find?_of_get? hother))
  · intro value key hfind
    exact hu.handed_iff.1 (List.mem_map_of_mem (f := Answer.key) ((hu.find?_iff value key).1 hfind))
  · intro u' hsteps value key hfind
    refine ((hu.steps hsteps).find?_iff value key).2 ?_
    exact Use.answers_subset_of_steps hsteps ((hu.find?_iff value key).1 hfind)
  · exact fun value key => insert_of_known
  · intro value
    rw [insert_eq_none_iff]
    exact and_congr_right fun _ => ⟨fun hfull => hu.size_le.antisymm hfull, fun hsize => hsize.ge⟩

/-! ### A table that is full -/

/-- A text of so many letters. -/
def letters (n : Nat) : String := String.ofList (List.replicate n 'a')

theorem length_letters (n : Nat) : (letters n).length = n := by
  rw [letters, String.length_ofList, List.length_replicate]

theorem letters_injective : Function.Injective letters := by
  intro m n heq
  rw [← length_letters m, heq, length_letters]

/-- A table that has been asked for the keys of shorter texts only can be asked for one more. -/
theorem exists_steps_letters {n : Nat} (h : n ≤ capacity) :
    ∃ u, Relation.ReflTransGen Use.Step Use.new u ∧ u.table.size = n ∧
      ∀ a ∈ u.answers, a.value.length < n := by
  induction n with
  | zero => exact ⟨Use.new, .refl, rfl, fun a ha => absurd ha List.not_mem_nil⟩
  | succ n ih =>
    obtain ⟨u, hsteps, hsize, hshort⟩ := ih (Nat.le_of_succ_le h)
    have hnew : u.table.find? (letters n) = none := by
      refine Option.eq_none_iff_forall_ne_some.2 fun key hkey => ?_
      have hlt := hshort _ (((Use.faithful_new.steps hsteps).find?_iff _ _).1 hkey)
      exact absurd hlt (by rw [length_letters]; exact lt_irrefl n)
    obtain ⟨t', ht'⟩ := exists_insert_of_new hnew (hsize ▸ h)
    refine ⟨_, hsteps.tail (.insert ht'), ?_, fun a ha => ?_⟩
    · rw [(insert_eq_some hnew ht').2.2.1, hsize]
    · rcases List.mem_append.1 ha with ha | ha
      · exact (hshort a ha).trans n.lt_succ_self
      · rw [List.mem_singleton.1 ha, length_letters]
        exact n.lt_succ_self

/-- **In a full table**, a text that is an alias has its key, whether it is inserted or aliased once
more, and a text that is new gets none. -/
theorem answers_of_steps_full : ∃ u, Relation.ReflTransGen Use.Step Use.new u ∧
    u.table.size = 65535 ∧ u.table.insert (letters 65535) = some (Key.ofNat 7, u.table) ∧
      u.table.insert (letters 65536) = none := by
  obtain ⟨u, hsteps, hsize, hshort⟩ := exists_steps_letters (n := 65535) le_rfl
  have hunknown : ∀ n, 65535 ≤ n → ∀ key, ⟨letters n, key⟩ ∉ u.answers := by
    intro n hn key hmem
    have hlt := hshort _ hmem
    rw [length_letters] at hlt
    exact absurd hn (not_le.2 hlt)
  have hhanded : Key.ofNat 7 ∈ u.answers.map (·.key) := by
    rw [(Use.faithful_new.steps hsteps).handed_iff, hsize]
    decide
  have hnew : u.table.find? (letters 65535) = none := by
    refine Option.eq_none_iff_forall_ne_some.2 fun key hkey => hunknown 65535 le_rfl key ?_
    exact ((Use.faithful_new.steps hsteps).find?_iff _ _).1 hkey
  have halias : (u.table.insertAlias (letters 65535) (Key.ofNat 7)).1 = Key.ofNat 7 := by
    rw [insertAlias, hnew]
  have hlast := hsteps.tail (.insertAlias (letters 65535) hhanded)
  rw [halias] at hlast
  obtain ⟨-, -, -, -, -, hfind, -, -, hknown, hnone⟩ := answers_of_steps hlast
  have hsize' := (size_insertAlias u.table (letters 65535) (Key.ofNat 7)).trans hsize
  refine ⟨_, hlast, hsize', hknown _ _ ((hfind _ _).2 ?_), (hnone _).2 ⟨?_, hsize'⟩⟩
  · exact List.mem_append_right _ (List.mem_singleton_self _)
  · refine Option.eq_none_iff_forall_ne_some.2 fun key hkey => ?_
    rcases List.mem_append.1 ((hfind _ _).1 hkey) with hmem | hmem
    · exact hunknown 65536 (by decide) key hmem
    · -- the alias has one letter less
      have hletters := letters_injective (Answer.mk.inj (List.mem_singleton.1 hmem)).1
      exact absurd hletters (by decide)

end ElfLoader.KeyTable
