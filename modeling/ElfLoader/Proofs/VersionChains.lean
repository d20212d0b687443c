import ElfLoader.Image.Layout
import ElfLoader.Proofs.Decoding

/-!
# Chains of version records

The versions that an object defines form a chain of records, and so do the files that it needs
versions from, each of them with a chain of its own. A chain that is written is read back: all
records are met in turn, and each of them gives its version index a meaning
(`ElfLoader.VersionTable.readDefinitions_of_holds`, `ElfLoader.VersionTable.readNeeds_of_holds`).
-/

namespace ElfLoader.VersionTable

variable {f : ObjectFile} {offset strings : Nat}

/-! ### Indexes -/

/-- Halves are read back. -/
theorem readHalves_of_holds {values : List UInt16} (h : f.Holds offset (f.order.halves values)) :
    readHalves f values.length offset = .ok values := by
  induction values generalizing offset with
  | nil => rfl
  | cons v values ih =>
    have hsplit : f.Holds offset (f.order.halfBytes v ++ f.order.halves values) := h
    have hrest := hsplit.right
    rw [ByteOrder.length_halfBytes] at hrest
    refine bind_eq_ok_iff.2 ⟨v, hsplit.left.half, ?_⟩
    exact bind_eq_ok_iff.2 ⟨values, ih hrest, rfl⟩

/-- **Version indexes are read back.** -/
theorem readSymbols_of_holds {values : List UInt16} (h : f.Holds offset (f.order.halves values)) :
    readSymbols f offset values.length = .ok values.toArray := by
  have hslice : f.slice offset (values.length * 2) = .ok _ :=
    h.slice (by rw [ByteOrder.length_halves, Nat.mul_comm])
  refine bind_eq_ok_iff.2 ⟨_, hslice, ?_⟩
  exact bind_eq_ok_iff.2 ⟨values, readHalves_of_holds h, rfl⟩

/-! ### Definitions -/

/-- A version that is defined at a position, the object's own name being the first, with its
index. -/
def definitionAt (n : String × Nat) : UInt16 × VersionDefinition :=
  (UInt16.ofNat (n.2 + 1), ⟨n.1, n.2 == 0⟩)

theorem length_definitionBytes (order : ByteOrder) (position : Nat) (isLast : Bool)
    (name : UInt32) : (definitionBytes order position isLast name).length = 28 := by
  simp [definitionBytes]

/-- The record of a definition is read back. -/
theorem DefinitionRecord.read_of_holds {position : Nat} {isLast : Bool} {name : UInt32}
    (h : f.Holds offset (definitionBytes f.order position isLast name)) :
    DefinitionRecord.read f offset =
      .ok ⟨if position = 0 then baseFlag else 0, UInt16.ofNat (position + 1), 1, 20,
        link isLast 28⟩ ∧ f.word (offset + 20) = .ok name := by
  have hwords := h.right
  rw [ByteOrder.length_halves] at hwords
  refine ⟨?_, hwords.words (i := 3) rfl⟩
  unfold DefinitionRecord.read
  refine bind_eq_ok_iff.2 ⟨_, h.left.halves (i := 0) rfl, ?_⟩
  refine bind_eq_ok_iff.2 ⟨_, h.left.halves (i := 1) rfl, ?_⟩
  refine bind_eq_ok_iff.2 ⟨_, h.left.halves (i := 2) rfl, ?_⟩
  refine bind_eq_ok_iff.2 ⟨_, h.left.halves (i := 3) rfl, ?_⟩
  refine bind_eq_ok_iff.2 ⟨_, hwords.words (i := 0) rfl, ?_⟩
  refine bind_eq_ok_iff.2 ⟨_, hwords.words (i := 1) rfl, ?_⟩
  refine bind_eq_ok_iff.2 ⟨_, hwords.words (i := 2) rfl, ?_⟩
  exact bind_eq_ok_iff.2 ⟨(), (ensure_eq_ok_iff ..).2 rfl, rfl⟩

/-- **A chain of definitions is read back.** -/
theorem readDefinitions_of_holds {names : List String} {first count : Nat}
    (nameAt : Nat → UInt32) (known : VersionDefinitions) (hcount : count = first + names.length)
    (h : f.Holds offset ((names.zipIdx first).flatMap fun n =>
      definitionBytes f.order n.2 (n.2 + 1 == count) (nameAt n.2)))
    (hnames : ∀ n ∈ names.zipIdx first, f.string (strings + (nameAt n.2).toNat) = .ok n.1) :
    readDefinitions f strings names.length offset known =
      .ok (known.insertMany ((names.zipIdx first).map definitionAt)) := by
  induction names generalizing first offset known with
  | nil => rfl
  | cons name names ih =>
    rw [List.zipIdx_cons] at h hnames ⊢
    rw [List.flatMap_cons] at h
    obtain ⟨hrecord, hname⟩ := DefinitionRecord.read_of_holds h.left
    have htext := hnames _ List.mem_cons_self
    have hflag : ((if first = 0 then baseFlag else 0) &&& baseFlag != 0) = (first == 0) := by
      cases first with
      | zero => rfl
      | succ n => rw [if_neg (Nat.succ_ne_zero n)]; rfl
    have hrest := h.right
    rw [length_definitionBytes] at hrest
    refine bind_eq_ok_iff.2 ⟨_, hrecord, ?_⟩
    dsimp only
    rw [if_neg (by decide)]
    refine bind_eq_ok_iff.2 ⟨nameAt first, hname, ?_⟩
    refine bind_eq_ok_iff.2 ⟨name, htext, ?_⟩
    refine bind_eq_ok_iff.2 ⟨known.insert (UInt16.ofNat (first + 1)) ⟨name, first == 0⟩,
      by rw [hflag]; rfl, ?_⟩
    rw [List.map_cons, definitionAt, Std.TreeMap.insertMany_cons]
    cases names with
    | nil =>
      -- the last record has no successor
      subst hcount
      rw [if_pos (by simp [link])]
      rfl
    | cons name' names =>
      have hnext : (first + 1 == count) = false := by
        rw [hcount, beq_eq_false_iff_ne]
        simp only [List.length_cons]
        omega
      rw [hnext, if_neg (by decide)]
      exact ih _ (by rw [hcount, List.length_cons, Nat.add_right_comm, Nat.add_assoc]) hrest
        fun n hn => hnames n (List.mem_cons_of_mem _ hn)

/-! ### Needs -/

section Needs

variable {p : ImagePlan}

/-- A version that is needed, with its index. -/
def needEntry (p : ImagePlan) (n : VersionNeed) : UInt16 × VersionNeed :=
  (p.needIndex n.file n.name, n)

/-- The offsets of texts among the strings lead to these texts. -/
def Leads (f : ObjectFile) (strings : Nat) (t : StringTable) : Prop :=
  ∀ i text, t.texts[i]? = some text → f.string (strings + (t.offset i).toNat) = .ok text

theorem length_needRecord (order : ByteOrder) (weak : Bool) (index : UInt16) (isLast : Bool)
    (name : UInt32) : (needBytes order weak index isLast name).length = 16 := by
  simp [needBytes]

theorem length_needBytes (versions : List VersionNeed) (position : Nat) :
    (p.needBytes position versions).length = 16 * versions.length := by
  induction versions generalizing position with
  | nil => rfl
  | cons n versions ih =>
    rw [ImagePlan.needBytes, List.length_append, length_needRecord, ih, List.length_cons]
    omega

/-- **The versions needed from a file are read back.** -/
theorem readNeedsOf_of_holds (horder : p.order = f.order) (hleads : Leads f strings p.strings)
    {file : String} {versions : List VersionNeed} {position : Nat} (known : VersionNeeds)
    (h : f.Holds offset (p.needBytes position versions)) (hfile : ∀ n ∈ versions, n.file = file)
    (htexts : StandsAt (versions.map (·.name)) position p.strings.texts) :
    readNeedsOf f strings file versions.length offset known =
      .ok (known.insertMany (versions.map (needEntry p))) := by
  induction versions generalizing offset position known with
  | nil => rfl
  | cons n versions ih =>
    rw [ImagePlan.needBytes] at h
    have hfirst := h.left
    have hrest := h.right
    rw [length_needRecord] at hrest
    rw [needBytes, horder] at hfirst
    have hhalves := hfirst.left.right
    have hwords := hfirst.right
    rw [ByteOrder.length_words] at hhalves
    rw [List.length_append, ByteOrder.length_words, ByteOrder.length_halves] at hwords
    have hname := hleads position n.name htexts.head
    have hflag : ((if n.weak then weakFlag else 0) &&& weakFlag != 0) = n.weak := by
      cases n.weak <;> rfl
    have hneed : (⟨file, n.name, n.weak⟩ : VersionNeed) = n := by
      rw [← hfile n List.mem_cons_self]
    refine bind_eq_ok_iff.2 ⟨_, hfirst.left.left.words (i := 0) rfl, ?_⟩
    refine bind_eq_ok_iff.2 ⟨_, hhalves.halves (i := 0) rfl, ?_⟩
    refine bind_eq_ok_iff.2 ⟨_, hhalves.halves (i := 1) rfl, ?_⟩
    refine bind_eq_ok_iff.2 ⟨_, hwords.words (i := 0) rfl, ?_⟩
    refine bind_eq_ok_iff.2 ⟨_, hwords.words (i := 1) rfl, ?_⟩
    refine bind_eq_ok_iff.2 ⟨_, hname, ?_⟩
    dsimp only
    rw [hflag, hneed, List.map_cons, needEntry, Std.TreeMap.insertMany_cons]
    cases versions with
    | nil => rfl
    | cons n' versions =>
      rw [show link (n' :: versions).isEmpty 16 = 16 from rfl, if_neg (by decide)]
      exact ih _ hrest (fun m hm => hfile m (List.mem_cons_of_mem n hm)) htexts.tail

theorem length_fileBytes (order : ByteOrder) (count : Nat) (isLast : Bool) (file : UInt32) :
    (fileBytes order count isLast file).length = 16 := by
  simp [fileBytes]

/-- **The versions needed from all files are read back.** -/
theorem readNeeds_of_holds (horder : p.order = f.order) (hleads : Leads f strings p.strings)
    {groups : List NeedGroup} {position : Nat} (known : VersionNeeds)
    (h : f.Holds offset (p.groupBytes position groups))
    (hgroups : ∀ g ∈ groups, g.versions.length < 65536 ∧ ∀ n ∈ g.versions, n.file = g.file)
    (htexts : StandsAt (groups.flatMap ImagePlan.groupTexts) position p.strings.texts) :
    readNeeds f strings groups.length offset known =
      .ok (known.insertMany ((groups.flatMap NeedGroup.versions).map (needEntry p))) := by
  induction groups generalizing offset position known with
  | nil => rfl
  | cons g groups ih =>
    rw [List.flatMap_cons] at htexts
    obtain ⟨hcount, hfile⟩ := hgroups g List.mem_cons_self
    have hcount' : (UInt16.ofNat g.versions.length).toNat = g.versions.length := by
      rw [UInt16.toNat_ofNat']
      exact Nat.mod_eq_of_lt hcount
    rw [ImagePlan.groupBytes] at h
    have hfirst := h.left.left
    have hneeds := h.left.right
    have hrest := h.right
    rw [length_fileBytes] at hneeds
    rw [List.length_append, length_fileBytes, length_needBytes] at hrest
    rw [fileBytes, horder] at hfirst
    have hwords := hfirst.right
    rw [ByteOrder.length_halves] at hwords
    have hname := hleads position g.file htexts.head
    have hversions := readNeedsOf_of_holds horder hleads known hneeds hfile htexts.left.tail
    refine bind_eq_ok_iff.2 ⟨_, hfirst.left.halves (i := 0) rfl, ?_⟩
    refine bind_eq_ok_iff.2 ⟨_, hfirst.left.halves (i := 1) rfl, ?_⟩
    refine bind_eq_ok_iff.2 ⟨_, hwords.words (i := 0) rfl, ?_⟩
    refine bind_eq_ok_iff.2 ⟨_, hwords.words (i := 1) rfl, ?_⟩
    refine bind_eq_ok_iff.2 ⟨_, hwords.words (i := 2) rfl, ?_⟩
    refine bind_eq_ok_iff.2 ⟨(), (ensure_eq_ok_iff ..).2 rfl, ?_⟩
    refine bind_eq_ok_iff.2 ⟨_, hname, ?_⟩
    rw [hcount']
    refine bind_eq_ok_iff.2 ⟨_, hversions, ?_⟩
    rw [List.flatMap_cons, List.map_append, Std.TreeMap.insertMany_append]
    cases groups with
    | nil => rfl
    | cons g' groups =>
      have hlink : link (g' :: groups).isEmpty (16 + 16 * UInt32.ofNat g.versions.length) =
          16 + 16 * UInt32.ofNat g.versions.length := rfl
      have hnext : (16 + 16 * UInt32.ofNat g.versions.length).toNat =
          16 + 16 * g.versions.length := by
        simp only [UInt32.toNat_add, UInt32.toNat_mul, UInt32.toNat_ofNat']
        change (16 + 16 * (g.versions.length % 2 ^ 32) % 2 ^ 32) % 2 ^ 32 = _
        omega
      have hne : 16 + 16 * UInt32.ofNat g.versions.length ≠ 0 := by
        intro heq
        rw [heq] at hnext
        exact absurd hnext (by change 0 ≠ _; omega)
      rw [hlink, if_neg hne, hnext]
      exact ih _ hrest (fun g hg => hgroups g (List.mem_cons_of_mem _ hg)) htexts.right

end Needs

end ElfLoader.VersionTable
