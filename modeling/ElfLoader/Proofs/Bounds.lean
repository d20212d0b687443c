import ElfLoader.Proofs.Conditions
import ElfLoader.Proofs.Mapping

/-!
# The bounds of an object

An object that has been opened has segments, and its extent is the tightest one in whole pages
(`ElfLoader.Object.Bounded`): it starts at the greatest page that is not above any segment, and it
ends at the least one that is not below the end of any. The bounds are found in natural numbers and
kept as words, and nothing is cut off on the way.

At any place with room for the extent (`ElfLoader.Node.PlacedAt`), addresses keep their distance
from the start of the extent although the base is added in 32 bits, and putting the object into
memory changes no byte outside the place, whether it succeeds or not
(`ElfLoader.Node.preserves_mapInto`). An empty segment may lie at the end of the extent, so that its
address wraps around; it has no bytes to be written.
-/

namespace ElfLoader

namespace Object

variable {loads : List LoadSegment} {pageSize m : Nat}

/-! ### The first and the last address -/

theorem le_lowest_iff (hne : loads ≠ []) :
    m ≤ lowest loads ↔ ∀ s ∈ loads, m ≤ s.memory.start.toNat := by
  cases hmin : (loads.map fun s => s.memory.start.toNat).min? with
  | none => exact absurd (List.map_eq_nil_iff.1 (List.min?_eq_none_iff.1 hmin)) hne
  | some a => rw [lowest, hmin, Option.getD_some, List.le_min?_iff hmin, List.forall_mem_map]

theorem highest_le_iff :
    highest loads ≤ m ↔ ∀ s ∈ loads, s.memory.start.toNat + s.memory.size.toNat ≤ m := by
  cases hmax : (loads.map fun s => s.memory.start.toNat + s.memory.size.toNat).max? with
  | none =>
    obtain rfl := List.map_eq_nil_iff.1 (List.max?_eq_none_iff.1 hmax)
    simp [highest]
  | some a => rw [highest, hmax, Option.getD_some, List.max?_le_iff hmax, List.forall_mem_map]

/-! ### The extent -/

/-- **An object with tight bounds**: it has segments, they make sense, and its extent is the least
one in whole pages that holds them. -/
structure Bounded (o : Object) (pageSize : Nat) : Prop where
  /-- There is something to be loaded. -/
  loads_ne_nil : o.loads ≠ []
  /-- The segments make sense. -/
  segment : ∀ s ∈ o.loads, s.Sound o.file
  /-- The extent starts at the last page boundary in front of all segments. -/
  start : IsGreatest {m | pageSize ∣ m ∧ ∀ s ∈ o.loads, m ≤ s.memory.start.toNat}
    o.extent.start.toNat
  /-- It ends at the first page boundary behind all segments. -/
  stop : IsLeast
    {m | pageSize ∣ m ∧ ∀ s ∈ o.loads, s.memory.start.toNat + s.memory.size.toNat ≤ m}
    (o.extent.start.toNat + o.extent.size.toNat)

namespace Bounded

variable {o : Object}

theorem dvd_start (h : o.Bounded pageSize) : pageSize ∣ o.extent.start.toNat := h.start.1.1

/-- The extent is a number of whole pages. -/
theorem dvd_size (h : o.Bounded pageSize) : pageSize ∣ o.extent.size.toNat :=
  (Nat.dvd_add_right h.dvd_start).1 h.stop.1.1

/-- All segments lie within the extent. -/
theorem sound (h : o.Bounded pageSize) : o.Sound :=
  ⟨h.segment, fun s hs => ⟨h.start.1.2 s hs, h.stop.1.2 s hs⟩⟩

end Bounded

/-- **An object that has been opened has tight bounds.** -/
theorem bounded_of_open {fs : FileSystem} {path : String} {o : Object} (hpage : 0 < pageSize)
    (h : (Object.open fs path pageSize).result = .ok o) : o.Bounded pageSize := by
  obtain ⟨f, -, h⟩ := Report.result_bind_eq_ok_iff.1 h
  obtain ⟨rfl, ⟨headers, hloads⟩, hextent, hne⟩ := loadsOf_of_ofFile h
  have hstart := toNat_start_of_extentOf hextent
  have hstop := toNat_stop_of_extentOf hpage hextent
  refine ⟨hne, sound_of_mem_loadsOf hloads, ?_, ?_⟩
  · simpa only [hstart, le_lowest_iff hne] using isGreatest_alignDown (lowest o.loads) pageSize
  · have hleast : IsLeast {m | pageSize ∣ m ∧ highest o.loads ≤ m} _ := isLeast_alignUp hpage
    simpa only [hstop, highest_le_iff] using hleast

end Object

/-! ### An object at its place -/

namespace Node

variable {n : Node} {p : UInt32}

/-- **A place for an object**: the extent fits behind the address, and the base takes its start
there. -/
structure PlacedAt (n : Node) (p : UInt32) : Prop where
  /-- The base is the distance, in 32 bits. -/
  base : n.base = p - n.object.extent.start
  /-- The extent fits below the top of the address space. -/
  room : p.toNat + n.object.extent.size.toNat ≤ 4294967296

/-- An address outside a place. -/
def Outside (n : Node) (p : UInt32) (a : Nat) : Prop :=
  a < p.toNat ∨ p.toNat + n.object.extent.size.toNat ≤ a

/-- **An address of the extent keeps its distance from the start.** -/
theorem PlacedAt.toNat_relocate (h : n.PlacedAt p) {v : UInt32}
    (hfirst : n.object.extent.start.toNat ≤ v.toNat)
    (hlast : v.toNat < n.object.extent.start.toNat + n.object.extent.size.toNat) :
    (n.relocate v).toNat = p.toNat + (v.toNat - n.object.extent.start.toNat) := by
  have hroom := h.room
  have hv := v.toNat_lt
  have hstart := n.object.extent.start.toNat_lt
  rw [relocate, h.base, UInt32.toNat_add, UInt32.toNat_sub]
  omega

variable {s : LoadSegment}

/-- A segment that is not empty lies within the place of its object. -/
theorem PlacedAt.toNat_relocate_segment (h : n.PlacedAt p)
    (hmem : n.object.extent.start.toNat ≤ s.memory.start.toNat ∧
      s.memory.start.toNat + s.memory.size.toNat ≤
        n.object.extent.start.toNat + n.object.extent.size.toNat)
    (hne : 0 < s.memory.size.toNat) :
    p.toNat ≤ (n.relocate s.memory.start).toNat ∧
      (n.relocate s.memory.start).toNat + s.memory.size.toNat ≤
        p.toNat + n.object.extent.size.toNat := by
  rw [h.toNat_relocate hmem.1 (by omega)]
  omega

/-- **Putting a segment into memory** leaves all bytes outside the place alone, whether it succeeds
or not. -/
theorem preserves_mapSegment (h : n.PlacedAt p) (hs : s.Sound n.object.file)
    (hmem : n.object.extent.start.toNat ≤ s.memory.start.toNat ∧
      s.memory.start.toNat + s.memory.size.toNat ≤
        n.object.extent.start.toNat + n.object.extent.size.toNat) (m : Memory) :
    (n.mapSegment s).Preserves fun m' => ∀ a, n.Outside p a → m'.byteAt a = m.byteAt a := by
  have hle := UInt32.le_iff_toNat_le.1 hs.file_le_memory
  have hroom := h.room
  have hplace := h.toNat_relocate_segment hmem
  intro m₀ hm₀
  unfold mapSegment
  dsimp only
  generalize n.relocate s.memory.start = start at *
  refine Stage.ensures_bind (Stage.ensures_ofExcept
    (Q := fun bytes m' => bytes.data.toList.length = s.file.size.toNat ∧
      ∀ a, n.Outside p a → m'.byteAt a = m.byteAt a) ?_ hm₀) ?_
  · intro bytes hbytes
    obtain ⟨hwithin, rfl⟩ := (n.object.file.slice_eq_ok_iff _ _ _).1 hbytes
    exact ⟨length_toList_extract n.object.file hwithin, hm₀⟩
  rintro bytes m₁ ⟨hlength, hm₁⟩
  refine Stage.Preserves.bind (Stage.preserves_attempt ?_) (fun _ => ?_) m₁ hm₁
  · -- the bytes from the file
    intro m₂ m₃ hm₂ hwrite a ha
    obtain ⟨-, rfl⟩ := Memory.write_eq_ok_iff.1 hwrite
    rw [Memory.byteAt_store_of_outside m₂ (by unfold Outside at ha; omega), hm₂ a ha]
  · split
    · exact Stage.preserves_pure ()
    · next hsome =>
      -- the zeros, which start where the bytes from the file end, without wrapping around
      refine Stage.preserves_attempt ?_
      intro m₂ m₃ hm₂ hfill a ha
      obtain ⟨-, rfl⟩ := Memory.fill_zero_eq_ok_iff.1 hfill
      have hzeros := UInt32.toNat_sub_of_le _ _ hs.file_le_memory
      have hlt : (s.memory.size - s.file.size).toNat ≠ 0 := fun h0 => hsome (UInt32.toNat_inj.1 h0)
      have hend : (start + s.file.size).toNat = start.toNat + s.file.size.toNat := by
        rw [UInt32.toNat_add]
        exact Nat.mod_eq_of_lt (by omega)
      rw [Memory.byteAt_clear, if_neg (by unfold Outside at ha; omega), hm₂ a ha]

/-- Putting segments into memory leaves all bytes outside the place alone. -/
theorem preserves_mapSegments (h : n.PlacedAt p) {loads : List LoadSegment}
    (hs : ∀ s ∈ loads, s.Sound n.object.file) (hmem : Object.Holds n.object.extent loads)
    (m : Memory) :
    (n.mapSegments loads).Preserves fun m' => ∀ a, n.Outside p a → m'.byteAt a = m.byteAt a := by
  induction loads with
  | nil => exact Stage.preserves_pure ()
  | cons s rest ih =>
    rw [mapSegments]
    exact (preserves_mapSegment h (hs s List.mem_cons_self) (hmem s List.mem_cons_self) m).bind
      fun _ => ih (fun t ht => hs t (List.mem_cons_of_mem s ht))
        (fun t ht => hmem t (List.mem_cons_of_mem s ht))

/-- **Putting an object into memory changes nothing outside its place**, also when it fails. -/
theorem preserves_mapInto (h : n.PlacedAt p) (hn : n.object.Sound) (m : Memory) :
    n.mapInto.Preserves fun m' => ∀ a, n.Outside p a → m'.byteAt a = m.byteAt a :=
  preserves_mapSegments h hn.segment hn.holds m

end Node

namespace Object

/-- **An opened object stays within its bounds.** They are tight, in whole pages and without a
loss. At each place with room for the extent, the addresses of the extent keep their distance from
its start, the number of zeros behind a segment's bytes is not negative, and whatever memory the
object is put into, only bytes at its place are changed. -/
theorem within_bounds_of_open {fs : FileSystem} {path : String} {pageSize : Nat} {o : Object}
    (hpage : isPowerOfTwo pageSize) (h : (Object.open fs path pageSize).result = .ok o) :
    o.Bounded pageSize ∧ pageSize ∣ o.extent.start.toNat ∧ pageSize ∣ o.extent.size.toNat ∧
      ∀ (n : Node) (p : UInt32), n.object = o → n.PlacedAt p →
        (∀ v : UInt32, o.extent.start.toNat ≤ v.toNat →
          v.toNat < o.extent.start.toNat + o.extent.size.toNat →
          (n.relocate v).toNat = p.toNat + (v.toNat - o.extent.start.toNat)) ∧
        (∀ s ∈ o.loads,
          (s.memory.size - s.file.size).toNat + s.file.size.toNat = s.memory.size.toNat) ∧
        ∀ (m : Memory) (a : Nat), n.Outside p a →
          (n.mapInto.run m).state.byteAt a = m.byteAt a := by
  have hbounded := bounded_of_open (pos_of_isPowerOfTwo hpage) h
  refine ⟨hbounded, hbounded.dvd_start, hbounded.dvd_size, ?_⟩
  rintro n p rfl hplaced
  refine ⟨fun v => hplaced.toNat_relocate, ?_, ?_⟩
  · intro s hs
    have hle := (hbounded.segment s hs).file_le_memory
    rw [UInt32.toNat_sub_of_le _ _ hle, Nat.sub_add_cancel (UInt32.le_iff_toNat_le.1 hle)]
  · intro m a ha
    exact (Node.preserves_mapInto hplaced hbounded.sound m m fun _ _ => rfl).state a ha

/-- A shared object of three segments: one that goes over a page boundary and on into a third page,
a word in a page of its own, and an empty one at the end of that. -/
def scatteredFile : ByteArray := ⟨#[
  0x7f, 0x45, 0x4c, 0x46, 1, 1, 1, 0, 0, 0, 0, 0, 0, 0, 0, 0,
  3, 0, 40, 0, 1, 0, 0, 0, 0, 0, 0, 0, 52, 0, 0, 0, 0, 0, 0, 0, 0, 0, 0, 0,
  52, 0, 32, 0, 3, 0, 40, 0, 0, 0, 0, 0,
  1, 0, 0, 0, 0, 0, 0, 0, 0xf0, 0x1f, 0, 0, 0, 0, 0, 0,
  32, 0, 0, 0, 0x20, 0x10, 0, 0, 6, 0, 0, 0, 1, 0, 0, 0,
  1, 0, 0, 0, 148, 0, 0, 0, 8, 0x50, 0, 0, 0, 0, 0, 0,
  4, 0, 0, 0, 4, 0, 0, 0, 4, 0, 0, 0, 1, 0, 0, 0,
  1, 0, 0, 0, 0, 0, 0, 0, 0, 0x60, 0, 0, 0, 0, 0, 0,
  0, 0, 0, 0, 0, 0, 0, 0, 4, 0, 0, 0, 1, 0, 0, 0,
  0x77, 0x6f, 0x72, 0x64]⟩

/-- The object in the file, as it is placed at `0x10000`. -/
def scatteredNode : Node where
  key := Key.ofNat 0
  name := "a"
  object := (Object.open ⟨[(["a"], .file scatteredFile)], [], []⟩ "a" 4096).result.toOption.get
    (by decide +kernel)
  base := 0xf000
  deps := []

/-- **An object of three segments**: its extent starts with the page of the first one and ends where
the empty one lies. At its place, the words of the other two keep their distances from the start,
and the bytes on both sides stay. -/
theorem within_bounds_of_open_scattered : isPowerOfTwo 4096 ∧
    (Object.open ⟨[(["a"], .file scatteredFile)], [], []⟩ "a" 4096).result =
      .ok scatteredNode.object ∧
    scatteredNode.object.loads.length = 3 ∧ scatteredNode.object.extent = ⟨0x1000, 0x5000⟩ ∧
    scatteredNode.PlacedAt 0x10000 ∧ scatteredNode.object.Bounded 4096 ∧
    (scatteredNode.relocate 0x1ff0).toNat = 0x10ff0 ∧
    (scatteredNode.relocate 0x5008).toNat = 0x14008 ∧
    ∀ a, a = 0xffff ∨ a = 0x15000 → (scatteredNode.mapInto.run
      (((Memory.zeroed 0x20000).set 0xffff 7).set 0x15000 7)).state.byteAt a = 7 := by
  have hpage : isPowerOfTwo 4096 := by decide
  have hopen : (Object.open ⟨[(["a"], .file scatteredFile)], [], []⟩ "a" 4096).result =
      .ok scatteredNode.object := eq_ok_get _
  obtain ⟨hlength, hextent⟩ : scatteredNode.object.loads.length = 3 ∧
      scatteredNode.object.extent = ⟨0x1000, 0x5000⟩ := by decide +kernel
  have hplaced : scatteredNode.PlacedAt 0x10000 :=
    ⟨by rw [hextent]; rfl, by rw [hextent]; decide⟩
  obtain ⟨hbounded, -, -, hplace⟩ := within_bounds_of_open hpage hopen
  obtain ⟨hrelocate, -, houtside⟩ := hplace scatteredNode 0x10000 rfl hplaced
  refine ⟨hpage, hopen, hlength, hextent, hplaced, hbounded, ?_, ?_, ?_⟩
  · rw [hrelocate 0x1ff0 (by rw [hextent]; decide) (by rw [hextent]; decide), hextent]
    decide
  · rw [hrelocate 0x5008 (by rw [hextent]; decide) (by rw [hextent]; decide), hextent]
    decide
  · intro a ha
    rw [houtside]
    · rcases ha with rfl | rfl <;> simp [Memory.byteAt_set]
    · unfold Node.Outside
      rw [hextent]
      rcases ha with rfl | rfl <;> decide

end Object

end ElfLoader
