import ElfLoader.Proofs.Mapping
import ElfLoader.Proofs.Succeeding

/-!
# An object in its file and in memory

There are two ways from a link time address to a byte of an object. Tables are read from the file,
at the offset that the first segment with the byte gives (`ElfLoader.Object.fileOffset`). A program
that runs sees the copy in memory, where the last segment around the address decides. Where just
one segment is around an address, both ways lead to the same byte, and an address without a byte in
the file has a zero in memory (`ElfLoader.Object.views_of_open`).

Base and link time address are added in 32 bits. A segment starts at such a sum, but its bytes are
put one behind the other, so in a memory of more than 4 GiB they can run past the last address of
32 bits (`ElfLoader.Node.placeOf`). Where that may happen, a byte of the object is found by what
its place is modulo `2 ^ 32`.
-/

namespace ElfLoader

/-! ### The addresses of a segment -/

namespace LoadSegment

variable {s : LoadSegment} {f : ObjectFile} {address : UInt32}

/-- Whether a link time address belongs to a segment. -/
def Covers (s : LoadSegment) (address : UInt32) : Prop :=
  s.memory.start.toNat ≤ address.toNat ∧
    address.toNat < s.memory.start.toNat + s.memory.size.toNat

instance : Decidable (s.Covers address) := inferInstanceAs (Decidable (_ ∧ _))

/-- Whether the byte at a link time address comes from the file. -/
def Backs (s : LoadSegment) (address : UInt32) : Prop :=
  s.memory.start.toNat ≤ address.toNat ∧
    address.toNat < s.memory.start.toNat + s.file.size.toNat

instance : Decidable (s.Backs address) := inferInstanceAs (Decidable (_ ∧ _))

/-- Where the byte for a link time address is in the file. -/
def filePosition (s : LoadSegment) (address : UInt32) : Nat :=
  s.file.start.toNat + (address.toNat - s.memory.start.toNat)

theorem Sound.covers_of_backs (hs : s.Sound f) (h : s.Backs address) : s.Covers address := by
  have hle := UInt32.le_iff_toNat_le.1 hs.file_le_memory
  exact ⟨h.1, h.2.trans_le (Nat.add_le_add_left hle _)⟩

/-- A segment that makes sense contains the addresses that belong to it, as its end does not wrap
around. -/
theorem Sound.contains_iff (hs : s.Sound f) :
    s.memory.contains address = true ↔ s.Covers address := by
  have hstop : s.memory.stop.toNat = s.memory.start.toNat + s.memory.size.toNat := by
    rw [Span.stop, UInt32.toNat_add]
    exact Nat.mod_eq_of_lt hs.memory_within
  rw [Span.contains, Bool.and_eq_true, decide_eq_true_eq, decide_eq_true_eq,
    UInt32.le_iff_toNat_le, UInt32.lt_iff_toNat_lt, hstop]
  rfl

/-- **An address has an offset** if its byte comes from the file. -/
theorem Sound.offsetOf?_eq (hs : s.Sound f) : s.offsetOf? address =
    if s.Backs address then some (s.file.start + (address - s.memory.start)) else none := by
  have hbacks : s.memory.contains address = true ∧
      address - s.memory.start < s.file.size ↔ s.Backs address := by
    rw [hs.contains_iff]
    constructor
    · rintro ⟨⟨hle, -⟩, hlt⟩
      rw [UInt32.lt_iff_toNat_lt, UInt32.toNat_sub_of_le _ _ (UInt32.le_iff_toNat_le.2 hle)] at hlt
      exact ⟨hle, by omega⟩
    · intro h
      obtain ⟨hle, hlt⟩ := id h
      refine ⟨hs.covers_of_backs h, ?_⟩
      rw [UInt32.lt_iff_toNat_lt, UInt32.toNat_sub_of_le _ _ (UInt32.le_iff_toNat_le.2 hle)]
      omega
  unfold offsetOf?
  simp only [hbacks]

/-- The byte for an address is in the file. -/
theorem Sound.filePosition_lt (hs : s.Sound f) (h : s.Backs address) :
    s.filePosition address < f.size := by
  have hwithin := hs.file_within
  obtain ⟨hle, hlt⟩ := h
  unfold filePosition
  omega

/-- **The sum that gives an offset does not wrap around** in a file of no more than 4 GiB. -/
theorem Sound.toNat_offset (hs : s.Sound f) (h : s.Backs address) (hfile : f.size ≤ 4294967296) :
    (s.file.start + (address - s.memory.start)).toNat = s.filePosition address := by
  have hlt := hs.filePosition_lt h
  unfold filePosition at hlt ⊢
  rw [UInt32.toNat_add, UInt32.toNat_sub_of_le _ _ (UInt32.le_iff_toNat_le.2 h.1)]
  exact Nat.mod_eq_of_lt (hlt.trans_le hfile)

/-- The other addresses of a segment are behind those with a byte in the file. -/
theorem Covers.le_of_not_backs (hcovers : s.Covers address) (h : ¬ s.Backs address) :
    s.memory.start.toNat + s.file.size.toNat ≤ address.toNat :=
  not_lt.1 fun hlt => h ⟨hcovers.1, hlt⟩

end LoadSegment

/-! ### Addresses of one segment -/

namespace Object

variable {o : Object} {address : UInt32} {s : LoadSegment}

/-- **An address belongs to just one segment** of an object. -/
def OnlyIn (o : Object) (address : UInt32) (s : LoadSegment) : Prop :=
  o.loads.filter (fun t => t.Covers address) = [s]

namespace OnlyIn

variable (h : o.OnlyIn address s)

include h

/-- The segments before that one and behind it do not count. -/
theorem exists_split : s.Covers address ∧ ∃ before behind, o.loads = before ++ s :: behind ∧
    (∀ t ∈ before, ¬ t.Covers address) ∧ ∀ t ∈ behind, ¬ t.Covers address := by
  obtain ⟨before, behind, hsplit, hbefore, hs, hbehind⟩ := List.filter_eq_cons_iff.1 h
  rw [List.filter_eq_nil_iff] at hbehind
  exact ⟨of_decide_eq_true hs, before, behind, hsplit, by simpa using hbefore,
    by simpa using hbehind⟩

theorem mem : s ∈ o.loads := by
  obtain ⟨-, before, behind, hsplit, -⟩ := h.exists_split
  exact hsplit ▸ List.mem_append_right _ List.mem_cons_self

/-- **The one segment decides on the offset**: there is one if the byte comes from the file, and
then it is where the byte is. -/
theorem fileOffset_eq (ho : o.Sound) (hfile : o.file.size ≤ 4294967296) :
    o.fileOffset address =
      if s.Backs address then .ok (s.filePosition address)
      else .error (o.file.flawed (.notInFile address)) := by
  have hs := ho.segment s h.mem
  obtain ⟨-, before, behind, hsplit, hbefore, hbehind⟩ := h.exists_split
  have hnone : ∀ t ∈ o.loads, ¬ t.Covers address → t.offsetOf? address = none := by
    intro t ht hcovers
    rw [(ho.segment t ht).offsetOf?_eq]
    exact if_neg fun hbacks => hcovers ((ho.segment t ht).covers_of_backs hbacks)
  rw [hsplit] at hnone
  have hfind : (o.loads.findSome? fun t => t.offsetOf? address) = s.offsetOf? address := by
    rw [hsplit, List.findSome?_append, List.findSome?_eq_none_iff.2 fun t ht =>
      hnone t (List.mem_append_left _ ht) (hbefore t ht), Option.none_or, List.findSome?_cons,
      List.findSome?_eq_none_iff.2 fun t ht =>
        hnone t (List.mem_append_right _ (List.mem_cons_of_mem s ht)) (hbehind t ht)]
    cases s.offsetOf? address <;> rfl
  rw [fileOffset, offsetIn, hfind, hs.offsetOf?_eq]
  by_cases hbacks : s.Backs address
  · rw [if_pos hbacks, if_pos hbacks]
    exact congrArg Except.ok (hs.toNat_offset hbacks hfile)
  · rw [if_neg hbacks, if_neg hbacks]

end OnlyIn

end Object

/-! ### Addresses in memory -/

namespace Node

variable {n : Node} {m : Memory} {address : UInt32} {s : LoadSegment}

/-- Where a segment has the byte for a link time address in memory. The bytes from the file start
where the segment is relocated to, the zeros where the address behind them is. -/
def placeOf (n : Node) (s : LoadSegment) (address : UInt32) : Nat :=
  if s.Backs address then
    (n.relocate s.memory.start).toNat + (address.toNat - s.memory.start.toNat)
  else (n.relocate s.memory.start + s.file.size).toNat +
    (address.toNat - (s.memory.start.toNat + s.file.size.toNat))

/-- **The byte is at the relocated address**, but for what 32 bits cannot tell. -/
theorem placeOf_mod (hcovers : s.Covers address) :
    n.placeOf s address % 4294967296 = (n.relocate address).toNat := by
  unfold placeOf
  obtain ⟨hle, -⟩ := id hcovers
  simp only [relocate, UInt32.toNat_add]
  split
  · omega
  · next hnot =>
    have hbehind := hcovers.le_of_not_backs hnot
    omega

/-- A segment fits into a memory if the range of its object lies there. -/
theorem fitsIn {size : Nat} (hn : n.object.Sound) (hs : s ∈ n.object.loads)
    (hmemory : n.range.start.toNat + n.range.size.toNat ≤ size) : n.FitsIn s size := by
  obtain ⟨hfirst, hlast⟩ := hn.holds s hs
  have hle := UInt32.le_iff_toNat_le.1 (hn.segment s hs).file_le_memory
  simp only [range, relocate, UInt32.toNat_add] at hmemory
  constructor <;> simp only [relocate, UInt32.toNat_add] <;> omega

/-- The byte is in memory if the segment fits. -/
theorem FitsIn.placeOf_lt {size : Nat} (hfits : n.FitsIn s size) (hcovers : s.Covers address) :
    n.placeOf s address < size := by
  obtain ⟨hfile, hzeros⟩ := hfits
  obtain ⟨hle, hlt⟩ := id hcovers
  unfold placeOf
  split
  · next hbacks =>
    obtain ⟨-, hbefore⟩ := hbacks
    omega
  · next hnot =>
    have hbehind := hcovers.le_of_not_backs hnot
    omega

/-- The byte is at the relocated address itself if the range of the object lies within the
addresses of 32 bits, as if these were all of the memory. -/
theorem placeOf_eq (hn : n.object.Sound) (hs : s ∈ n.object.loads) (hcovers : s.Covers address)
    (hspace : n.range.start.toNat + n.range.size.toNat ≤ 4294967296) :
    n.placeOf s address = (n.relocate address).toNat := by
  have hlt := (fitsIn hn hs hspace).placeOf_lt hcovers
  rw [← placeOf_mod hcovers, Nat.mod_eq_of_lt hlt]

/-- A segment leaves the byte for a link time address that is not its own alone. -/
theorem run_mapSegment_of_not_covers (hs : s.Sound n.object.file) (hfits : n.FitsIn s m.size)
    (hcovers : ¬ s.Covers address) :
    ∃ m', (n.mapSegment s).run m = ⟨.ok (), m', []⟩ ∧ m'.size = m.size ∧
      ∀ a, a % 4294967296 = (n.relocate address).toNat → m'.byteAt a = m.byteAt a := by
  obtain ⟨m', hrun, hsize, hbytes⟩ := n.run_mapSegment_of_fitsIn hs hfits
  refine ⟨m', hrun, hsize, ?_⟩
  intro a ha
  have hwithin := hs.memory_within
  have hle := UInt32.le_iff_toNat_le.1 hs.file_le_memory
  have hlt := address.toNat_lt
  -- an address that the segment changes leads back to one of its own
  have hout : address.toNat < s.memory.start.toNat ∨
      s.memory.start.toNat + s.memory.size.toNat ≤ address.toNat := by
    by_contra hcon
    exact hcovers (by unfold LoadSegment.Covers; omega)
  simp only [relocate, UInt32.toNat_add] at ha hbytes
  rw [hbytes, if_neg (by omega), if_neg (by omega)]

/-- Segments leave the byte for a link time address that belongs to none of them alone. -/
theorem run_mapSegments_of_not_covers {loads : List LoadSegment}
    (hs : ∀ t ∈ loads, t.Sound n.object.file) (hfits : ∀ t ∈ loads, n.FitsIn t m.size)
    (hcovers : ∀ t ∈ loads, ¬ t.Covers address) :
    ∃ m', (n.mapSegments loads).run m = ⟨.ok (), m', []⟩ ∧
      ∀ a, a % 4294967296 = (n.relocate address).toNat → m'.byteAt a = m.byteAt a := by
  induction loads generalizing m with
  | nil => exact ⟨m, rfl, fun _ _ => rfl⟩
  | cons t rest ih =>
    obtain ⟨ht, hrest⟩ := List.forall_mem_cons.1 hs
    obtain ⟨htfits, hrestfits⟩ := List.forall_mem_cons.1 hfits
    obtain ⟨htcovers, hrestcovers⟩ := List.forall_mem_cons.1 hcovers
    obtain ⟨m₁, hrun₁, hsize₁, hbytes₁⟩ := run_mapSegment_of_not_covers ht htfits htcovers
    obtain ⟨m₂, hrun₂, hbytes₂⟩ := ih hrest (hsize₁ ▸ hrestfits) hrestcovers
    refine ⟨m₂, ?_, fun a ha => (hbytes₂ a ha).trans (hbytes₁ a ha)⟩
    rw [mapSegments, Stage.run_bind_of_ok hrun₁, hrun₂]
    rfl

/-- **A segment has its byte for a link time address**: one from the file, or zero. -/
theorem run_mapSegment_of_covers (hs : s.Sound n.object.file) (hfits : n.FitsIn s m.size)
    (hcovers : s.Covers address) :
    ∃ m', (n.mapSegment s).run m = ⟨.ok (), m', []⟩ ∧ m'.size = m.size ∧
      m'.byteAt (n.placeOf s address) =
        if s.Backs address then n.object.file.byteAt (s.filePosition address) else 0 := by
  obtain ⟨m', hrun, hsize, hbytes⟩ := n.run_mapSegment_of_fitsIn hs hfits
  refine ⟨m', hrun, hsize, ?_⟩
  obtain ⟨hle, hlt⟩ := id hcovers
  have hwithin := hs.memory_within
  rw [hbytes, placeOf]
  split
  · next hbacks =>
    obtain ⟨-, hbefore⟩ := id hbacks
    -- zeros are behind the bytes from the file, also when the address of the first one wraps around
    have hfile := hs.file_le_memory
    simp only [relocate, UInt32.toNat_add, UInt32.le_iff_toNat_le] at hfile ⊢
    rw [if_neg (by omega), if_pos (by omega), Nat.add_sub_cancel_left]
    rfl
  · next hnot =>
    have hbehind := hcovers.le_of_not_backs hnot
    rw [if_pos (by omega)]

/-- **Putting an object into memory** gives the addresses of its segments their bytes. The segments
before the one with an address do not count, and those behind it leave the byte alone. -/
theorem exists_mapInto (hn : n.object.Sound) (h : n.object.OnlyIn address s)
    (hmemory : n.range.start.toNat + n.range.size.toNat ≤ m.size) :
    ∃ m', n.mapInto.run m = ⟨.ok (), m', []⟩ ∧ m'.byteAt (n.placeOf s address) =
      if s.Backs address then n.object.file.byteAt (s.filePosition address) else 0 := by
  obtain ⟨hcovers, before, behind, hsplit, -, hbehind⟩ := h.exists_split
  have hs := hn.segment
  have hfits : ∀ t ∈ n.object.loads, n.FitsIn t m.size := fun t ht => fitsIn hn ht hmemory
  unfold mapInto
  rw [hsplit] at hs hfits ⊢
  clear hmemory hsplit
  induction before generalizing m with
  | nil =>
    obtain ⟨hs, hrest⟩ := List.forall_mem_cons.1 hs
    obtain ⟨hsfits, hrestfits⟩ := List.forall_mem_cons.1 hfits
    obtain ⟨m₁, hrun₁, hsize₁, hbyte₁⟩ := run_mapSegment_of_covers hs hsfits hcovers
    obtain ⟨m₂, hrun₂, hbytes₂⟩ :=
      run_mapSegments_of_not_covers hrest (hsize₁ ▸ hrestfits) hbehind
    refine ⟨m₂, ?_, (hbytes₂ _ (placeOf_mod hcovers)).trans hbyte₁⟩
    rw [List.nil_append, mapSegments, Stage.run_bind_of_ok hrun₁, hrun₂]
    rfl
  | cons t before ih =>
    obtain ⟨ht, hrest⟩ := List.forall_mem_cons.1 hs
    obtain ⟨htfits, hrestfits⟩ := List.forall_mem_cons.1 hfits
    obtain ⟨m₁, hrun₁, hsize₁, -⟩ := n.run_mapSegment_of_fitsIn ht htfits
    obtain ⟨m₂, hrun₂, hbyte₂⟩ := ih hrest (hsize₁ ▸ hrestfits)
    refine ⟨m₂, ?_, hbyte₂⟩
    rw [List.cons_append, mapSegments, Stage.run_bind_of_ok hrun₁, hrun₂]
    rfl

end Node

/-! ### The two views -/

/-- The executable at the second page. -/
def selfNeedingRoot : Node := Loader.rootAt "a" selfNeedingObject 0x1000

/-- The segment of the executable. It has nine bytes more in memory than in the file. -/
def selfNeedingSegment : LoadSegment := ⟨⟨0, 151⟩, ⟨0, 160⟩, 7⟩

/-- A memory in which two bytes of the second page are not zero. -/
def usedMemory : Memory := ((Memory.zeroed 0x3000).set 0x1001 7).set 0x109b 7

theorem selfNeedingRoot_facts :
    (selfNeedingObject.OnlyIn 1 selfNeedingSegment ∧
      selfNeedingObject.OnlyIn 155 selfNeedingSegment) ∧
    selfNeedingRoot.object.file.size < 4294967296 ∧ selfNeedingRoot.range = ⟨0x1000, 0x1000⟩ ∧
    selfNeedingRoot.object.file.bytes[1]? = some 0x45 ∧ usedMemory.size = 0x3000 ∧
    (selfNeedingRoot.relocate 1).toNat = 0x1001 ∧
    (selfNeedingRoot.relocate 155).toNat = 0x109b := by
  unfold Object.OnlyIn
  decide +kernel

end ElfLoader
