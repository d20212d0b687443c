import ElfLoader.Object.Basic
import ElfLoader.Proofs.Alignment
import ElfLoader.Proofs.Outcomes

/-!
# Objects that make sense

An object that has been opened is sound (`ElfLoader.Object.sound_of_open`): the bytes of
its segments are in the file, the segments do not wrap around, and all of them lie within
its extent.
-/

namespace ElfLoader

/-! ### Segments -/

/-- **A segment makes sense** in a file. -/
structure LoadSegment.Sound (f : ObjectFile) (s : LoadSegment) : Prop where
  /-- Its bytes are in the file. -/
  file_within : s.file.start.toNat + s.file.size.toNat ≤ f.size
  /-- It has room in memory for them. -/
  file_le_memory : s.file.size ≤ s.memory.size
  /-- It does not reach the top of the address space. -/
  memory_within : s.memory.start.toNat + s.memory.size.toNat < 4294967296

theorem ObjectFile.slice_eq_ok_iff (f : ObjectFile) (offset size : Nat) (bytes : ByteArray) :
    f.slice offset size = .ok bytes ↔
      offset + size ≤ f.size ∧ f.bytes.extract offset (offset + size) = bytes := by
  unfold slice
  split <;> simp_all

/-- A segment that is accepted makes sense. -/
theorem ProgramHeader.sound_of_toLoad {f : ObjectFile} {h : ProgramHeader} {s : LoadSegment}
    (hs : h.toLoad f = .ok s) : s.Sound f := by
  unfold toLoad at hs
  obtain ⟨_, hle, hs⟩ := bind_eq_ok_iff.1 hs
  obtain ⟨_, hwraps, hs⟩ := bind_eq_ok_iff.1 hs
  obtain ⟨_, hslice, hs⟩ := bind_eq_ok_iff.1 hs
  rw [ensure_eq_ok_iff] at hle hwraps
  rw [f.slice_eq_ok_iff] at hslice
  cases hs
  exact ⟨hslice.1, hle, hwraps⟩

namespace Object

/-- All segments that are loaded make sense. -/
theorem sound_of_mem_loadsOf {f : ObjectFile} {headers : List ProgramHeader}
    {loads : List LoadSegment} (h : loadsOf f headers = .ok loads) :
    ∀ s ∈ loads, s.Sound f := by
  induction headers generalizing loads with
  | nil =>
    cases h
    simp
  | cons header rest ih =>
    unfold loadsOf at h
    split at h
    · obtain ⟨s, hs, h⟩ := bind_eq_ok_iff.1 h
      obtain ⟨others, hothers, h⟩ := bind_eq_ok_iff.1 h
      cases h
      intro t ht
      rcases List.mem_cons.1 ht with rfl | ht
      · exact ProgramHeader.sound_of_toLoad hs
      · exact ih hothers t ht
    · exact ih h

/-! ### Extents -/

theorem lowest_le {loads : List LoadSegment} {s : LoadSegment} (h : s ∈ loads) :
    lowest loads ≤ s.memory.start.toNat :=
  List.min?_getD_le_of_mem (List.mem_map.2 ⟨s, h, rfl⟩)

theorem lowest_lt (loads : List LoadSegment) : lowest loads < 4294967296 := by
  cases loads with
  | nil => decide
  | cons s rest => exact (lowest_le List.mem_cons_self).trans_lt s.memory.start.toNat_lt

theorem le_highest {loads : List LoadSegment} {s : LoadSegment} (h : s ∈ loads) :
    s.memory.start.toNat + s.memory.size.toNat ≤ highest loads :=
  List.le_max?_getD_of_mem (List.mem_map.2 ⟨s, h, rfl⟩)

theorem lowest_le_highest (loads : List LoadSegment) : lowest loads ≤ highest loads := by
  cases loads with
  | nil => exact Nat.le_refl 0
  | cons s rest =>
    have hmem : s ∈ s :: rest := List.mem_cons_self
    exact (lowest_le hmem).trans ((Nat.le_add_right ..).trans (le_highest hmem))

/-- **A span holds segments** if it starts before the first of them and ends behind the
last. -/
def Holds (extent : Span) (loads : List LoadSegment) : Prop :=
  ∀ s ∈ loads, extent.start.toNat ≤ s.memory.start.toNat ∧
    s.memory.start.toNat + s.memory.size.toNat ≤ extent.start.toNat + extent.size.toNat

variable {f : ObjectFile} {loads : List LoadSegment} {pageSize : Nat} {extent : Span}

/-- The start of the extent is kept in full when it becomes a word: it is below a segment. -/
theorem toNat_start_of_extentOf (h : extentOf f loads pageSize = .ok extent) :
    extent.start.toNat = alignDown (lowest loads) pageSize := by
  obtain ⟨_, -, h⟩ := bind_eq_ok_iff.1 h
  cases h
  exact UInt32.toNat_ofNat_of_lt' ((alignDown_le _ _).trans_lt (lowest_lt loads))

/-- So is its end: the size has been checked. -/
theorem toNat_stop_of_extentOf (hpage : 0 < pageSize)
    (h : extentOf f loads pageSize = .ok extent) :
    extent.start.toNat + extent.size.toNat = alignUp (highest loads) pageSize := by
  have hstart := toNat_start_of_extentOf h
  obtain ⟨_, hspan, h⟩ := bind_eq_ok_iff.1 h
  rw [ensure_eq_ok_iff] at hspan
  cases h
  have hsize := UInt32.toNat_ofNat_of_lt' hspan
  have hle : alignDown (lowest loads) pageSize ≤ alignUp (highest loads) pageSize :=
    (alignDown_le _ _).trans ((lowest_le_highest loads).trans (le_alignUp hpage))
  rw [hstart, hsize, Nat.add_sub_of_le hle]

/-- The whole pages that segments take hold the segments. -/
theorem holds_of_extentOf (hpage : 0 < pageSize) (h : extentOf f loads pageSize = .ok extent) :
    Holds extent loads := by
  intro s hs
  rw [toNat_stop_of_extentOf hpage h, toNat_start_of_extentOf h]
  exact ⟨(alignDown_le _ _).trans (lowest_le hs), (le_highest hs).trans (le_alignUp hpage)⟩

/-- The extent of segments starts with a whole page. -/
theorem dvd_start_of_extentOf (h : extentOf f loads pageSize = .ok extent) :
    pageSize ∣ extent.start.toNat := by
  rw [toNat_start_of_extentOf h]
  exact dvd_alignDown _ _

/-! ### Opened objects -/

/-- **An object is sound**: its segments make sense and lie within its extent. -/
structure Sound (o : Object) : Prop where
  /-- The segments make sense. -/
  segment : ∀ s ∈ o.loads, s.Sound o.file
  /-- They lie within the extent. -/
  holds : Holds o.extent o.loads

/-- What the segments and the extent of an object have been read from. There is at least one
segment. -/
theorem loadsOf_of_ofFile {o : Object} (h : (ofFile f pageSize).result = .ok o) :
    o.file = f ∧ (∃ headers, loadsOf f headers = .ok o.loads) ∧
      extentOf f o.loads pageSize = .ok o.extent ∧ o.loads ≠ [] := by
  unfold ofFile at h
  obtain ⟨header, -, h⟩ := Report.result_bind_eq_ok_iff.1 h
  obtain ⟨headers, -, h⟩ := Report.result_bind_eq_ok_iff.1 h
  obtain ⟨loads, hloads, h⟩ := Report.result_bind_eq_ok_iff.1 h
  obtain ⟨_, hsome, h⟩ := Report.result_bind_eq_ok_iff.1 h
  obtain ⟨extent, hextent, h⟩ := Report.result_bind_eq_ok_iff.1 h
  obtain ⟨interpreter, -, h⟩ := Report.result_bind_eq_ok_iff.1 h
  obtain ⟨dynamic, -, h⟩ := Report.result_bind_eq_ok_iff.1 h
  have hne : ¬ loads.isEmpty := (ensure_eq_ok_iff _ _ _).1 hsome
  -- what the dynamic section leads to makes no difference to the segments
  cases dynamic <;>
  · obtain ⟨content, -, h⟩ := Report.result_bind_eq_ok_iff.1 h
    cases h
    exact ⟨rfl, ⟨headers, hloads⟩, hextent, fun hnil => hne (List.isEmpty_iff.2 hnil)⟩

/-- **An object that has been opened is sound.** -/
theorem sound_of_open {fs : FileSystem} {path : String} {pageSize : Nat} {o : Object}
    (hpage : 0 < pageSize) (h : (Object.open fs path pageSize).result = .ok o) : o.Sound := by
  obtain ⟨f, -, h⟩ := Report.result_bind_eq_ok_iff.1 h
  obtain ⟨rfl, ⟨headers, hloads⟩, hextent, -⟩ := loadsOf_of_ofFile h
  exact ⟨sound_of_mem_loadsOf hloads, holds_of_extentOf hpage hextent⟩

/-- **The extent of an object starts with a whole page.** -/
theorem dvd_start_of_open {fs : FileSystem} {path : String} {pageSize : Nat} {o : Object}
    (h : (Object.open fs path pageSize).result = .ok o) : pageSize ∣ o.extent.start.toNat := by
  obtain ⟨f, -, h⟩ := Report.result_bind_eq_ok_iff.1 h
  obtain ⟨-, -, hextent, -⟩ := loadsOf_of_ofFile h
  exact dvd_start_of_extentOf hextent

end Object

end ElfLoader
