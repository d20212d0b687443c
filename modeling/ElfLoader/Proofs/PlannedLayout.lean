import ElfLoader.Proofs.Decoding
import ElfLoader.Image.Layout
import Mathlib.Algebra.Order.BigOperators.Group.List
import Mathlib.Algebra.Order.Group.Nat

/-!
# Where a planned file holds what

All parts of a planned file stand where the layout says (`ElfLoader.ImagePlan.holds_part`), and
the headers at its start (`ElfLoader.ImagePlan.holds_headers`). Where the file fits into the
address space, nothing is lost when offsets and addresses are written as words
(`ElfLoader.ImagePlan.Fits`). So the headers are read back, and the one segment of the file leads
from the address of a part to its offset (`ElfLoader.ImagePlan.offsetIn_addressAt`).
-/

namespace ElfLoader

/-- Every part has its place among all of them, and the section headers are the last. -/
theorem ImagePart.all_eq (part : ImagePart) : ∃ behind,
    all = part.before ++ part :: behind ∧ sectionHeaders ∈ part :: behind := by
  cases part <;> exact ⟨_, rfl, by decide⟩

namespace ImagePlan

variable (p : ImagePlan)

/-! ### The start of the file -/

theorem length_overlay (bytes : List UInt8) (offset : Nat) (new : List UInt8) :
    (overlay bytes offset new).length = bytes.length := by
  rw [overlay, List.length_mapIdx]

/-- Bytes at the start replace as many others. -/
theorem overlay_zero {bytes new : List UInt8} (h : new.length ≤ bytes.length) :
    overlay bytes 0 new = new ++ bytes.drop new.length := by
  refine List.ext_getElem? fun i => ?_
  rw [overlay, List.getElem?_mapIdx]
  by_cases hi : i < new.length
  · rw [List.getElem?_append_left hi, List.getElem?_eq_getElem (hi.trans_le h),
      List.getElem?_eq_getElem hi]
    simp [List.getElem?_eq_getElem hi]
  · rw [List.getElem?_append_right (Nat.not_lt.1 hi), List.getElem?_drop,
      Nat.add_sub_cancel' (Nat.not_lt.1 hi)]
    cases bytes[i]? with
    | none => rfl
    | some b => simp [List.getElem?_eq_none (Nat.not_lt.1 hi)]

theorem length_image : p.image.length = p.imageLength := by
  have hfold : ∀ (patches : List (UInt32 × List UInt8)) (bytes : List UInt8),
      (patches.foldl (fun bytes patch => overlay bytes (patch.1 - p.address).toNat patch.2)
        bytes).length = bytes.length := by
    intro patches
    induction patches with
    | nil => exact fun _ => rfl
    | cons patch patches ih => exact fun bytes => (ih _).trans (length_overlay _ _ _)
  rw [image, hfold, List.length_replicate]

theorem length_headerBytes (order : ByteOrder) (h : Header) :
    (order.headerBytes h).length = 36 := by
  simp [ByteOrder.headerBytes]

theorem length_headers_le : p.headers.length ≤ p.imageLength := by
  have hroom : headerRoom ≤ p.imageLength :=
    (Nat.le_max_right _ _).trans (le_alignUp (by decide))
  refine le_trans ?_ hroom
  rw [headers, List.length_append, List.length_append, List.length_append, length_headerBytes,
    ByteOrder.length_words]
  split
  · rw [ByteOrder.length_words]
    exact (by decide : 16 + 36 + 4 * 8 + 4 * 8 ≤ 256)
  · exact (by decide : 16 + 36 + 4 * 8 + 0 ≤ 256)

/-! ### The parts -/

theorem length_flatMap_paddedBytes (place : ImagePart → Nat) (parts : List ImagePart) :
    (parts.flatMap (p.paddedBytes place)).length = (parts.map p.partSize).foldr (· + ·) 0 := by
  induction parts with
  | nil => rfl
  | cons part parts ih =>
    rw [List.flatMap_cons, List.length_append, ih, length_paddedBytes]
    rfl

/-- **The file has the size that its parts add up to.** -/
theorem length_bytes : p.bytes.length = p.size := by
  rw [bytes, List.length_append, length_overlay, length_image, length_flatMap_paddedBytes, size]

/-- The section headers are the last part, so every part starts that much before the end. -/
theorem offset_add_le_size (part : ImagePart) :
    p.offset part + p.partSize part ≤ p.size ∧
      p.offset part + p.partSize .sectionHeaders ≤ p.size := by
  obtain ⟨behind, hall, hlast⟩ := part.all_eq
  have hle : ∀ other ∈ part :: behind,
      p.partSize other ≤ ((part :: behind).map p.partSize).sum :=
    fun other hother => List.le_sum_of_mem (List.mem_map_of_mem hother)
  have hsize : p.size = p.offset part + ((part :: behind).map p.partSize).sum := by
    rw [size, offset, hall, List.map_append]
    change _ + List.sum (_ ++ _) = _ + List.sum _ + _
    rw [List.sum_append, Nat.add_assoc]
  have hself := hle part List.mem_cons_self
  have hheaders := hle _ hlast
  omega

/-- A part starts where the one before it ends. -/
theorem offset_eq_add {part next : ImagePart} (h : next.before = part.before ++ [part]) :
    p.offset next = p.offset part + p.partSize part := by
  rw [offset, offset, h, List.map_append]
  change _ + List.sum (_ ++ _) = _ + List.sum _ + _
  rw [List.sum_append, Nat.add_assoc]
  rfl

/-- A part is padded if it does not end with a whole word. -/
theorem padded_of_dvd {bytes : List UInt8} (h : 4 ∣ bytes.length) : padded bytes = bytes := by
  rw [padded, Nat.sub_eq_zero_of_le (alignUp_le h (Nat.le_refl _)), List.replicate_zero,
    List.append_nil]

theorem partSize_eq_of_dvd {part : ImagePart}
    (h : 4 ∣ (p.partBytes (fun _ => 0) part).length) :
    p.partSize part = (p.partBytes (fun _ => 0) part).length := by
  rw [partSize, paddedBytes, padded_of_dvd h]

theorem offset_lt_size (part : ImagePart) : p.offset part < p.size := by
  have hheaders : 40 ≤ p.partSize .sectionHeaders := by
    have hlength : 40 ≤ (p.partBytes (fun _ => 0) .sectionHeaders).length := by
      change 40 ≤ (List.replicate 40 (0 : UInt8) ++ _).length
      rw [List.length_append, List.length_replicate]
      exact Nat.le_add_right _ _
    rw [partSize, paddedBytes, padded, List.length_append]
    omega
  have hle := (p.offset_add_le_size part).2
  omega

/-- The file of a plan. -/
def file (path : String) : ObjectFile := ⟨path, p.order, ⟨p.bytes.toArray⟩⟩

variable {p} {path : String}

theorem size_file : (p.file path).size = p.size := by
  rw [← length_bytes]
  exact List.size_toArray

/-- **The headers stand at the start of the file.** -/
theorem holds_headers : (p.file path).Holds 0 p.headers := by
  refine ⟨[], p.image.drop p.headers.length ++ ImagePart.all.flatMap (p.paddedBytes p.offset), rfl,
    ?_⟩
  change p.bytes = _
  rw [bytes, overlay_zero (p.length_image.symm ▸ p.length_headers_le), List.nil_append,
    List.append_assoc]

/-- **A part stands at its offset**, with zeros behind it. -/
theorem holds_paddedBytes (part : ImagePart) :
    (p.file path).Holds (p.offset part) (p.paddedBytes p.offset part) := by
  obtain ⟨behind, hall, -⟩ := part.all_eq
  refine ⟨overlay p.image 0 p.headers ++ part.before.flatMap (p.paddedBytes p.offset),
    behind.flatMap (p.paddedBytes p.offset), ?_, ?_⟩
  · rw [List.length_append, length_overlay, length_image, length_flatMap_paddedBytes, offset]
  · change p.bytes = _
    rw [bytes, hall, List.flatMap_append, List.flatMap_cons]
    simp only [List.append_assoc]

theorem holds_partBytes (part : ImagePart) :
    (p.file path).Holds (p.offset part) (p.partBytes p.offset part) :=
  (holds_paddedBytes part).left

/-- The parts of dynamic linking are there if there is a dynamic section. -/
theorem partBytes_eq (hdynamic : p.isDynamic = true) (place : ImagePart → Nat) (part : ImagePart)
    (hpart : part ≠ .dynamic ∧ part ≠ .sectionHeaders) :
    p.partBytes place part = p.fixedBytes part := by
  have hthere : ¬(part ∈ ImagePart.linking ∧ !p.isDynamic) := by simp [hdynamic]
  cases part
  case dynamic => exact absurd rfl hpart.1
  case sectionHeaders => exact absurd rfl hpart.2
  all_goals exact if_neg hthere

theorem holds_fixedBytes (hdynamic : p.isDynamic = true) (part : ImagePart)
    (hpart : part ≠ .dynamic ∧ part ≠ .sectionHeaders) :
    (p.file path).Holds (p.offset part) (p.fixedBytes part) :=
  partBytes_eq hdynamic p.offset part hpart ▸ holds_partBytes part

/-! ### Offsets and addresses as words -/

/-- **A file fits**: neither its bytes nor the zeros behind them reach the top of the address
space. -/
def Fits (p : ImagePlan) : Prop := p.address.toNat + p.size + p.zeros.toNat < 4294967296

/-- The library's `UInt32.toNat_ofNat_of_lt'`, with the bound as a numeral that `omega` reads. -/
theorem toNat_ofNat {n : Nat} (h : n < 4294967296) : (UInt32.ofNat n).toNat = n :=
  UInt32.toNat_ofNat_of_lt' h

theorem Fits.toNat_ofNat (h : p.Fits) {n : Nat} (hn : n ≤ p.size) : (UInt32.ofNat n).toNat = n :=
  ImagePlan.toNat_ofNat (by rw [Fits] at h; omega)

theorem Fits.toNat_addressAt (h : p.Fits) {n : Nat} (hn : n ≤ p.size) :
    (p.addressAt n).toNat = p.address.toNat + n := by
  rw [addressAt, UInt32.toNat_add, h.toNat_ofNat hn]
  exact Nat.mod_eq_of_lt (by rw [Fits] at h; omega)

/-- The segment of the file. -/
def segment (p : ImagePlan) : LoadSegment :=
  ⟨⟨0, UInt32.ofNat p.size⟩, ⟨p.address, UInt32.ofNat p.size + p.zeros⟩, 7⟩

theorem Fits.toNat_size (h : p.Fits) : (UInt32.ofNat p.size).toNat = p.size :=
  h.toNat_ofNat le_rfl

theorem Fits.toNat_memory (h : p.Fits) :
    (UInt32.ofNat p.size + p.zeros).toNat = p.size + p.zeros.toNat := by
  rw [UInt32.toNat_add, h.toNat_size]
  exact Nat.mod_eq_of_lt (by rw [Fits] at h; omega)

/-- **The address of a byte of the file leads to its offset.** -/
theorem Fits.offsetIn_addressAt (h : p.Fits) {n : Nat} (hn : n < p.size) (f : ObjectFile) :
    Object.offsetIn f [p.segment] (p.addressAt n) = .ok n := by
  have haddress := h.toNat_addressAt hn.le
  have hn' := h.toNat_ofNat hn.le
  have hmemory := h.toNat_memory
  have hstop : (p.address + (UInt32.ofNat p.size + p.zeros)).toNat =
      p.address.toNat + (p.size + p.zeros.toNat) := by
    rw [UInt32.toNat_add, hmemory]
    exact Nat.mod_eq_of_lt (by rw [Fits] at h; omega)
  have hdifference : p.addressAt n - p.address = UInt32.ofNat n := by
    rw [addressAt, UInt32.add_comm, UInt32.add_sub_cancel]
  have hcontains : p.segment.memory.contains (p.addressAt n) = true := by
    rw [Span.contains, Span.stop, Bool.and_eq_true, decide_eq_true_eq, decide_eq_true_eq,
      UInt32.le_iff_toNat_le, UInt32.lt_iff_toNat_lt, haddress]
    exact ⟨Nat.le_add_right _ _, hstop ▸ by omega⟩
  have hoffset : p.segment.offsetOf? (p.addressAt n) = some (UInt32.ofNat n) := by
    have hlt : UInt32.ofNat n < UInt32.ofNat p.size := by
      rw [UInt32.lt_iff_toNat_lt, hn', h.toNat_size]
      exact hn
    rw [LoadSegment.offsetOf?, segment]
    dsimp only
    rw [hdifference, if_pos ⟨hcontains, hlt⟩, UInt32.zero_add]
  unfold Object.offsetIn
  rw [List.findSome?_cons, hoffset]
  exact congrArg Except.ok hn'

/-! ### The headers -/

theorem header_read : Header.read (p.file path) = .ok p.header := by
  have hheaders : (p.file path).Holds 0 p.headers := holds_headers
  exact Header.read_of_holds hheaders.left.left.right
    (UInt16.le_refl _) (UInt16.le_refl _)

/-- The program header of the segment. -/
def loadHeader (p : ImagePlan) : ProgramHeader :=
  ⟨.load, 0, p.address, UInt32.ofNat p.size, UInt32.ofNat p.size + p.zeros, 7, 0x1000⟩

/-- The program header of the dynamic section. -/
def dynamicHeader (p : ImagePlan) : ProgramHeader :=
  ⟨.dynamic, UInt32.ofNat (p.offset .dynamic), p.addressAt (p.offset .dynamic),
    UInt32.ofNat (p.partSize .dynamic), UInt32.ofNat (p.partSize .dynamic), 6, 4⟩

/-- **The program headers are read back.** -/
theorem programHeaders_read (hdynamic : p.isDynamic = true) :
    (ProgramHeader.readAll (p.file path) p.header).result =
      .ok [p.loadHeader, p.dynamicHeader] := by
  have hheaders : (p.file path).Holds 0 p.headers := holds_headers
  have hload := hheaders.left.right
  have hrest := hheaders.right
  rw [List.length_append, length_headerBytes] at hload
  rw [List.length_append, List.length_append, length_headerBytes, ByteOrder.length_words,
    if_pos hdynamic] at hrest
  have hcount : p.header.programCount = 2 := if_pos hdynamic
  rw [ProgramHeader.readAll, hcount]
  refine Report.result_bind_eq_ok_iff.2 ⟨p.loadHeader, ?_, ?_⟩
  · exact ProgramHeader.read_of_holds (h := p.loadHeader) rfl hload
  refine Report.result_bind_eq_ok_iff.2 ⟨[p.dynamicHeader], ?_, rfl⟩
  refine Report.result_bind_eq_ok_iff.2 ⟨p.dynamicHeader, ?_, rfl⟩
  exact ProgramHeader.read_of_holds (h := p.dynamicHeader) rfl hrest

/-- The segment of the file makes sense. -/
theorem Fits.toLoad_eq (h : p.Fits) : p.loadHeader.toLoad (p.file path) = .ok p.segment := by
  have hslice : (p.file path).slice 0 (UInt32.ofNat p.size).toNat =
      .ok ((p.file path).bytes.extract 0 (0 + (UInt32.ofNat p.size).toNat)) := by
    rw [ObjectFile.slice, if_pos]
    rw [h.toNat_size, size_file, Nat.zero_add]
  have hroom : UInt32.ofNat p.size ≤ UInt32.ofNat p.size + p.zeros := by
    rw [UInt32.le_iff_toNat_le, h.toNat_size, h.toNat_memory]
    exact Nat.le_add_right _ _
  have hwraps : p.address.toNat + (UInt32.ofNat p.size + p.zeros).toNat < 4294967296 := by
    rw [h.toNat_memory, ← Nat.add_assoc]
    exact h
  unfold ProgramHeader.toLoad
  refine bind_eq_ok_iff.2 ⟨(), (ensure_eq_ok_iff ..).2 hroom, ?_⟩
  refine bind_eq_ok_iff.2 ⟨(), (ensure_eq_ok_iff ..).2 hwraps, ?_⟩
  exact bind_eq_ok_iff.2 ⟨_, hslice, rfl⟩

/-- **The file is one segment.** -/
theorem Fits.loadsOf_eq (h : p.Fits) :
    Object.loadsOf (p.file path) [p.loadHeader, p.dynamicHeader] = .ok [p.segment] := by
  have htype : p.loadHeader.type = .load := rfl
  rw [Object.loadsOf, if_pos htype]
  refine bind_eq_ok_iff.2 ⟨p.segment, h.toLoad_eq, ?_⟩
  exact bind_eq_ok_iff.2 ⟨[], rfl, rfl⟩

/-- Its whole pages do not take more than the address space has. -/
theorem exists_extentOf {pageSize : Nat}
    (h : p.address.toNat + p.size + p.zeros.toNat + pageSize < 4294967296) :
    ∃ extent, Object.extentOf (p.file path) [p.segment] pageSize = .ok extent := by
  have hfits : p.Fits := (Nat.le_add_right _ _).trans_lt h
  have hhighest : Object.highest [p.segment] = p.address.toNat + (p.size + p.zeros.toNat) :=
    congrArg (p.address.toNat + ·) hfits.toNat_memory
  have hstop : alignUp (Object.highest [p.segment]) pageSize < 4294967296 := by
    refine (Nat.div_mul_le_self _ _).trans_lt ?_
    rw [hhighest]
    omega
  exact ⟨_, bind_eq_ok_iff.2
    ⟨(), (ensure_eq_ok_iff ..).2 ((Nat.sub_le _ _).trans_lt hstop), rfl⟩⟩

/-! ### The identification -/

theorem identificationByte_of_holds {f : ObjectFile} {bytes : List UInt8} {i : Nat} {b : UInt8}
    (h : f.Holds 0 bytes) (hb : bytes[i]? = some b) :
    ObjectFile.identificationByte f.bytes i = b := by
  have hget := StandsAt.getElem? h hb
  rw [Nat.zero_add] at hget
  obtain ⟨hlt, hget⟩ := List.getElem?_eq_some_iff.1 hget
  rw [ObjectFile.identificationByte, getElem?_pos f.bytes i hlt]
  exact hget

/-- **The file is one that can be loaded.** -/
theorem identify_eq (htype : p.type = ObjectFile.executableType ∨ p.type = ObjectFile.sharedType) :
    ObjectFile.identify path ⟨p.bytes.toArray⟩ = .ok (p.file path) := by
  have hheaders : (p.file path).Holds 0 p.headers := holds_headers
  have hfirst := hheaders.left.left
  have hsize : 52 ≤ (p.file path).size := by
    have hle := hfirst.le_size
    rw [List.length_append, length_headerBytes, Nat.zero_add] at hle
    exact hle
  have hbyte : ∀ (i : Nat) (b : UInt8), p.order.identification[i]? = some b →
      ObjectFile.identificationByte ⟨p.bytes.toArray⟩ i = b :=
    fun i b => identificationByte_of_holds hfirst.left
  have hmagic : ObjectFile.hasMagic ⟨p.bytes.toArray⟩ = true := by
    rw [ObjectFile.hasMagic, beq_iff_eq]
    change [_, _, _, _] = _
    rw [hbyte 0 _ rfl, hbyte 1 _ rfl, hbyte 2 _ rfl, hbyte 3 _ rfl]
  have horder : ObjectFile.orderOf? (ObjectFile.identificationByte ⟨p.bytes.toArray⟩ 5) =
      some p.order := by
    rw [hbyte 5 _ rfl]
    cases p.order <;> rfl
  have hhalf : (p.file path).half 16 = .ok p.type := hfirst.right.left.left.halves (i := 0) rfl
  unfold ObjectFile.identify
  refine bind_eq_ok_iff.2 ⟨(), (ensure_eq_ok_iff ..).2 ((by decide : 16 ≤ 52).trans hsize), ?_⟩
  refine bind_eq_ok_iff.2 ⟨(), (ensure_eq_ok_iff ..).2 hmagic, ?_⟩
  refine bind_eq_ok_iff.2 ⟨(), (ensure_eq_ok_iff ..).2 (hbyte 4 _ rfl), ?_⟩
  dsimp only
  rw [horder]
  refine bind_eq_ok_iff.2 ⟨(), (ensure_eq_ok_iff ..).2 (hbyte 6 _ rfl), ?_⟩
  refine bind_eq_ok_iff.2 ⟨(), (ensure_eq_ok_iff ..).2 hsize, ?_⟩
  refine bind_eq_ok_iff.2 ⟨p.type, hhalf, ?_⟩
  exact bind_eq_ok_iff.2 ⟨(), (ensure_eq_ok_iff ..).2 htype, rfl⟩

end ImagePlan

end ElfLoader
