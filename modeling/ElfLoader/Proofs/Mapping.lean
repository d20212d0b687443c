import ElfLoader.Program.Graph
import ElfLoader.Proofs.Contents
import ElfLoader.Proofs.Extent
import ElfLoader.Proofs.Memory
import ElfLoader.Space.AddressMap

/-!
# Objects in memory

An object that has been given addresses is put into memory segment by segment. Here it
is said what memory then holds: at an address of the object there is the byte that the
last of the segments around it asks for (`ElfLoader.Node.byteAt?`), and nothing else has
changed. Nothing can go wrong on the way, once the addresses are there
(`ElfLoader.Node.run_mapInto`).
-/

namespace ElfLoader

/-! ### The bytes that an object asks for -/

/-- The byte that a segment has at a link time address, if the address belongs to it: one
from the file, or zero behind those. -/
def LoadSegment.byteAt? (f : ObjectFile) (s : LoadSegment) (address : UInt32) : Option UInt8 :=
  let first := s.memory.start.toNat
  if first ≤ address.toNat ∧ address.toNat < first + s.memory.size.toNat then
    if address.toNat < first + s.file.size.toNat then
      some (f.byteAt (s.file.start.toNat + (address.toNat - first)))
    else some 0
  else none

/-- **The byte that an object has at a link time address**: the last segment that the
address belongs to decides. -/
def Object.byteAt? (o : Object) (address : UInt32) : Option UInt8 :=
  (o.loads.filterMap fun s => s.byteAt? o.file address).getLast?

namespace Node

variable (n : Node)

/-- Whether an address in memory belongs to an object. Even an object of no size has an
address of its own. -/
def Holds (address : Nat) : Prop :=
  n.range.start.toNat ≤ address ∧
    address < n.range.start.toNat + AddressMap.room n.range.size

instance (address : Nat) : Decidable (n.Holds address) :=
  inferInstanceAs (Decidable (_ ∧ _))

/-- The link time address of an address in memory. -/
def linkAddress (address : Nat) : UInt32 := UInt32.ofNat address - n.base

/-- The byte that segments of an object ask for at an address in memory. -/
def byteIn? (loads : List LoadSegment) (address : Nat) : Option UInt8 :=
  (loads.filterMap fun s => s.byteAt? n.object.file (n.linkAddress address)).getLast?

/-! ### One segment -/

/-- The bytes of a slice of a file. -/
theorem getElem?_toList_extract (f : ObjectFile) {offset size i : Nat} (hi : i < size)
    (h : offset + size ≤ f.size) :
    (f.bytes.extract offset (offset + size)).data.toList[i]? = some (f.byteAt (offset + i)) := by
  have hlt : offset + i < f.bytes.size := by
    unfold ObjectFile.size at h
    omega
  have hbyte : f.bytes.data[offset + i]? = some (f.byteAt (offset + i)) := by
    rw [ObjectFile.byteAt, getElem?_pos f.bytes (offset + i) hlt]
    exact getElem?_pos f.bytes.data (offset + i) hlt
  rw [ByteArray.data_extract, Array.getElem?_toList, Array.getElem?_extract, if_pos, hbyte]
  have hsize : f.bytes.data.size = f.size := rfl
  omega

theorem length_toList_extract (f : ObjectFile) {offset size : Nat} (h : offset + size ≤ f.size) :
    (f.bytes.extract offset (offset + size)).data.toList.length = size := by
  have hsize : f.bytes.data.size = f.size := rfl
  rw [ByteArray.data_extract, Array.length_toList, Array.size_extract]
  omega

/-- **The two parts of a segment lie in a memory**, the bytes from the file and the zeros. Both
start at an address of 32 bits; where they end, there may be more than 32 bits. -/
structure FitsIn (s : LoadSegment) (size : Nat) : Prop where
  /-- There is room for the bytes from the file. -/
  file : (n.relocate s.memory.start).toNat + s.file.size.toNat ≤ size
  /-- There is room for the zeros. -/
  zeros : (n.relocate s.memory.start + s.file.size).toNat +
    (s.memory.size.toNat - s.file.size.toNat) ≤ size

/-- The bytes from the file go into memory. -/
theorem write_slice {s : LoadSegment} {m : Memory} {start : UInt32} (hs : s.Sound n.object.file)
    (hsize : start.toNat + s.file.size.toNat ≤ m.size) :
    ∃ m', m.write start (n.object.file.bytes.extract s.file.start.toNat
        (s.file.start.toNat + s.file.size.toNat)).data.toList = .ok m' ∧ m'.size = m.size ∧
      ∀ a, m'.byteAt a =
        if start.toNat ≤ a ∧ a < start.toNat + s.file.size.toNat then
          n.object.file.byteAt (s.file.start.toNat + (a - start.toNat))
        else m.byteAt a := by
  have hlength := length_toList_extract n.object.file hs.file_within
  refine ⟨_, Memory.write_eq_ok_iff.2 ⟨by rwa [hlength], rfl⟩, Memory.size_store .., ?_⟩
  intro a
  split
  · next hin =>
    rw [Memory.byteAt_store, if_pos hin.1, getElem?_toList_extract n.object.file (by omega)
      hs.file_within, Option.getD_some]
  · next hout => exact Memory.byteAt_store_of_outside m (by rw [hlength]; omega)

/-- **Putting one segment into memory**, wherever its two parts fit, gives each of them its bytes
and leaves the rest alone. -/
theorem run_mapSegment_of_fitsIn {s : LoadSegment} {m : Memory} (hs : s.Sound n.object.file)
    (hfits : n.FitsIn s m.size) :
    ∃ m', (n.mapSegment s).run m = ⟨.ok (), m', []⟩ ∧ m'.size = m.size ∧
      ∀ a, m'.byteAt a =
        if (n.relocate s.memory.start + s.file.size).toNat ≤ a ∧
            a < (n.relocate s.memory.start + s.file.size).toNat +
              (s.memory.size.toNat - s.file.size.toNat) then 0
        else if (n.relocate s.memory.start).toNat ≤ a ∧
            a < (n.relocate s.memory.start).toNat + s.file.size.toNat then
          n.object.file.byteAt (s.file.start.toNat + (a - (n.relocate s.memory.start).toNat))
        else m.byteAt a := by
  obtain ⟨hfile, hzeros⟩ := hfits
  unfold mapSegment
  dsimp only
  generalize n.relocate s.memory.start = start at *
  obtain ⟨m₁, hwrite, hsize₁, hbytes₁⟩ := n.write_slice hs hfile
  have hslice := (n.object.file.slice_eq_ok_iff _ _ _).2 ⟨hs.file_within, rfl⟩
  have hcount : (s.memory.size - s.file.size).toNat = s.memory.size.toNat - s.file.size.toNat :=
    UInt32.toNat_sub_of_le _ _ hs.file_le_memory
  rw [Stage.run_bind_of_ok (a := n.object.file.bytes.extract _ _) (by rw [hslice]; rfl),
    Stage.run_bind_of_ok (Stage.run_attempt_of_ok hwrite)]
  split
  · next hnone =>
    -- the bytes from the file fill the segment
    rw [hnone, UInt32.toNat_zero] at hcount
    refine ⟨m₁, rfl, hsize₁, ?_⟩
    intro a
    rw [hbytes₁]
    exact (if_neg fun hin => by omega).symm
  · have hfill : m₁.fill (start + s.file.size) (s.memory.size - s.file.size).toNat 0 = .ok _ :=
      Memory.fill_zero_eq_ok_iff.2 ⟨by rwa [hcount, hsize₁], rfl⟩
    rw [Stage.run_attempt_of_ok hfill]
    refine ⟨_, rfl, by rw [Memory.size_clear, hsize₁], ?_⟩
    intro a
    rw [Memory.byteAt_clear, hbytes₁, hcount]

/-- **Putting one segment into memory** whose addresses have 32 bits gives it its bytes and leaves
the rest alone. -/
theorem run_mapSegment {s : LoadSegment} {m : Memory} (hs : s.Sound n.object.file)
    (hsize : (n.relocate s.memory.start).toNat + s.memory.size.toNat ≤ m.size)
    (hspace : (n.relocate s.memory.start).toNat + s.memory.size.toNat ≤ 4294967296) :
    ∃ m', (n.mapSegment s).run m = ⟨.ok (), m', []⟩ ∧ m'.size = m.size ∧
      ∀ a, m'.byteAt a =
        if (n.relocate s.memory.start).toNat ≤ a ∧
            a < (n.relocate s.memory.start).toNat + s.memory.size.toNat then
          if a < (n.relocate s.memory.start).toNat + s.file.size.toNat then
            n.object.file.byteAt
              (s.file.start.toNat + (a - (n.relocate s.memory.start).toNat))
          else 0
        else m.byteAt a := by
  have hle := UInt32.le_iff_toNat_le.1 hs.file_le_memory
  -- zeros start where the bytes from the file end; if that is behind all addresses, there are none
  have hzeros : (n.relocate s.memory.start + s.file.size).toNat =
      (n.relocate s.memory.start).toNat + s.file.size.toNat ∨
        s.memory.size.toNat = s.file.size.toNat ∧
          (n.relocate s.memory.start + s.file.size).toNat = 0 := by
    rw [UInt32.toNat_add]
    omega
  obtain ⟨m', hrun, hsize', hbytes⟩ := n.run_mapSegment_of_fitsIn (m := m) hs
    ⟨by omega, by omega⟩
  refine ⟨m', hrun, hsize', ?_⟩
  intro a
  rw [hbytes]
  split_ifs <;> first | rfl | omega

/-! ### From addresses in memory to link time addresses -/

section Placed

variable {n} {s : LoadSegment} {m : Memory} {loads : List LoadSegment}

/-- A segment within an extent keeps its distance from the start of the extent. -/
theorem relocate_within (hmem : n.object.extent.start.toNat ≤ s.memory.start.toNat ∧
      s.memory.start.toNat + s.memory.size.toNat ≤
        n.object.extent.start.toNat + n.object.extent.size.toNat)
    (hspace : n.range.start.toNat + AddressMap.room n.range.size ≤ 4294967296)
    (hne : 0 < s.memory.size.toNat) :
    (n.relocate s.memory.start).toNat =
      n.range.start.toNat + (s.memory.start.toNat - n.object.extent.start.toNat) := by
  have hlt := s.memory.start.toNat_lt
  simp only [range, relocate, AddressMap.room, UInt32.toNat_add] at hspace ⊢
  omega

/-- What a segment asks for at an address in memory. -/
theorem byteAt?_linkAddress (hs : s.Sound n.object.file)
    (hspace : (n.relocate s.memory.start).toNat + s.memory.size.toNat ≤ 4294967296)
    {a : Nat} (ha : a < 4294967296) :
    s.byteAt? n.object.file (n.linkAddress a) =
      if (n.relocate s.memory.start).toNat ≤ a ∧
          a < (n.relocate s.memory.start).toNat + s.memory.size.toNat then
        some (if a < (n.relocate s.memory.start).toNat + s.file.size.toNat then
          n.object.file.byteAt (s.file.start.toNat + (a - (n.relocate s.memory.start).toNat))
          else 0)
      else none := by
  have hwithin := hs.memory_within
  have hle := UInt32.le_iff_toNat_le.1 hs.file_le_memory
  have hbase := n.base.toNat_lt
  have hlink : (n.linkAddress a).toNat = (4294967296 - n.base.toNat + a) % 4294967296 := by
    rw [linkAddress, UInt32.toNat_sub, UInt32.toNat_ofNat', Nat.mod_eq_of_lt ha]
  have hstart : (n.relocate s.memory.start).toNat =
      (n.base.toNat + s.memory.start.toNat) % 4294967296 := by
    rw [relocate, UInt32.toNat_add]
  unfold LoadSegment.byteAt?
  dsimp only
  by_cases hin : (n.relocate s.memory.start).toNat ≤ a ∧
      a < (n.relocate s.memory.start).toNat + s.memory.size.toNat
  · -- wrapping around does not change how far the address is from the segment's start
    have hdist : (n.linkAddress a).toNat =
        s.memory.start.toNat + (a - (n.relocate s.memory.start).toNat) := by omega
    rw [if_pos hin, if_pos (by omega), hdist, Nat.add_sub_cancel_left]
    split_ifs <;> first | rfl | omega
  · rw [if_neg hin, if_neg (by omega)]

/-! ### All segments -/

theorem byteIn?_cons (s : LoadSegment) (loads : List LoadSegment) (a : Nat) :
    n.byteIn? (s :: loads) a =
      (n.byteIn? loads a).or (s.byteAt? n.object.file (n.linkAddress a)) := by
  unfold byteIn?
  rw [List.filterMap_cons]
  cases s.byteAt? n.object.file (n.linkAddress a) with
  | none => rw [Option.or_none]
  | some b =>
    rw [List.getLast?_cons]
    cases (loads.filterMap _).getLast? <;> rfl

/-- **A segment within the extent of its object** goes into the memory of the object. -/
theorem run_mapSegment_of_within (hs : s.Sound n.object.file)
    (hmem : n.object.extent.start.toNat ≤ s.memory.start.toNat ∧
      s.memory.start.toNat + s.memory.size.toNat ≤
        n.object.extent.start.toNat + n.object.extent.size.toNat)
    (hsize : n.range.start.toNat + AddressMap.room n.range.size ≤ m.size)
    (hspace : n.range.start.toNat + AddressMap.room n.range.size ≤ 4294967296) :
    ∃ m', (n.mapSegment s).run m = ⟨.ok (), m', []⟩ ∧ m'.size = m.size ∧
      ∀ a, m'.byteAt a =
        if n.Holds a then (s.byteAt? n.object.file (n.linkAddress a)).getD (m.byteAt a)
        else m.byteAt a := by
  have hend : (n.relocate s.memory.start).toNat + s.memory.size.toNat ≤
      n.range.start.toNat + AddressMap.room n.range.size := by
    have hlt := s.memory.start.toNat_lt
    simp only [range, relocate, AddressMap.room, UInt32.toNat_add] at hspace ⊢
    omega
  obtain ⟨m', hrun, hsize', hbytes⟩ :=
    n.run_mapSegment hs (hend.trans hsize) (hend.trans hspace)
  refine ⟨m', hrun, hsize', ?_⟩
  intro a
  rw [hbytes]
  by_cases ha : n.Holds a
  · rw [if_pos ha, byteAt?_linkAddress hs (hend.trans hspace) (ha.2.trans_le hspace)]
    split <;> rfl
  · rw [if_neg ha, if_neg]
    -- a segment of no size has no addresses, any other starts within the object
    rintro ⟨hfirst, hlast⟩
    rw [relocate_within hmem hspace (by omega)] at hfirst
    exact ha ⟨by omega, by omega⟩

/-- **Putting segments into memory**, of which the last one counts. -/
theorem run_mapSegments (hs : ∀ s ∈ loads, s.Sound n.object.file)
    (hmem : Object.Holds n.object.extent loads)
    (hsize : n.range.start.toNat + AddressMap.room n.range.size ≤ m.size)
    (hspace : n.range.start.toNat + AddressMap.room n.range.size ≤ 4294967296) :
    ∃ m', (n.mapSegments loads).run m = ⟨.ok (), m', []⟩ ∧ m'.size = m.size ∧
      ∀ a, m'.byteAt a =
        if n.Holds a then (n.byteIn? loads a).getD (m.byteAt a) else m.byteAt a := by
  induction loads generalizing m with
  | nil => exact ⟨m, rfl, rfl, fun a => by simp [byteIn?]⟩
  | cons s rest ih =>
    obtain ⟨m₁, hrun₁, hsize₁, hbytes₁⟩ :=
      run_mapSegment_of_within (hs s List.mem_cons_self) (hmem s List.mem_cons_self) hsize hspace
    obtain ⟨m₂, hrun₂, hsize₂, hbytes₂⟩ := ih (fun t ht => hs t (List.mem_cons_of_mem s ht))
      (fun t ht => hmem t (List.mem_cons_of_mem s ht)) (hsize₁ ▸ hsize)
    refine ⟨m₂, ?_, hsize₂.trans hsize₁, ?_⟩
    · rw [mapSegments, Stage.run_bind_of_ok hrun₁, hrun₂]
      rfl
    · intro a
      -- a later segment goes before this one, and this one before what was there
      rw [hbytes₂, hbytes₁, byteIn?_cons]
      split
      · cases n.byteIn? rest a <;> rfl
      · rfl

/-- **Putting an object into memory** always succeeds where its addresses lie within the
memory. They then have the bytes that the object asks for, and all other addresses the
bytes they had. -/
theorem run_mapInto (hn : n.object.Sound)
    (hsize : n.range.start.toNat + AddressMap.room n.range.size ≤ m.size)
    (hspace : n.range.start.toNat + AddressMap.room n.range.size ≤ 4294967296) :
    ∃ m', n.mapInto.run m = ⟨.ok (), m', []⟩ ∧ m'.size = m.size ∧
      ∀ a, m'.byteAt a =
        if n.Holds a then (n.object.byteAt? (n.linkAddress a)).getD (m.byteAt a)
        else m.byteAt a :=
  run_mapSegments hn.segment hn.holds hsize hspace

end Placed

end Node

end ElfLoader
