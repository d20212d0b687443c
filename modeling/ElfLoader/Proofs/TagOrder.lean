import ElfLoader.Object.Dynamic
import Mathlib.Data.List.Basic

/-!
# What a dynamic section depends on

The tags of a dynamic section may come in any order, as long as those with the same tag keep theirs
(`ElfLoader.TagList.Reordered`): what a list of tags says is made of look-ups, and of the tags of
one kind, and each of these is left alone by such a change. This holds of the errors as well, and
of which one is reported.

The list ends with its end mark, or with the last tag that fits into the size of the section. What
stands behind that in the file does not count (`ElfLoader.SameTags`).
-/

namespace ElfLoader

/-! ### Tags in another order -/

namespace TagList

variable {tags tags' : TagList} {t u : UInt32 × UInt32}

/-- **The same tags in another order**, in which all values of one tag keep theirs. -/
structure Reordered (tags tags' : TagList) : Prop where
  /-- The tags and their values are the same. -/
  perm : tags.Perm tags'
  /-- The order of the values of one tag is the same. -/
  filter_eq : ∀ tag, (tags.filter fun t => t.1 == tag) = tags'.filter fun t => t.1 == tag

/-- Two tags that are not the same may change places. -/
theorem reordered_swap (before behind : TagList) (h : t.1 ≠ u.1) :
    Reordered (before ++ t :: u :: behind) (before ++ u :: t :: behind) := by
  refine ⟨(List.Perm.swap u t behind).append_left before, fun tag => ?_⟩
  rw [List.filter_append, List.filter_append]
  by_cases ht : t.1 = tag
  · have hu : u.1 ≠ tag := fun hu => h (ht.trans hu.symm)
    simp [ht, hu]
  · simp [ht, List.filter_cons]

/-- A look-up finds the first of the tags that it is for. -/
theorem lookup_eq_head? (tags : TagList) (tag : UInt32) :
    tags.lookup tag = (tags.filter fun t => t.1 == tag).head?.map Prod.snd := by
  induction tags with
  | nil => rfl
  | cons t rest ih =>
    rw [List.lookup_cons, List.filter_cons, BEq.comm]
    cases t.1 == tag with
    | true => rfl
    | false => exact ih

theorem Reordered.lookup_eq (h : Reordered tags tags') (tag : UInt32) :
    tags.lookup tag = tags'.lookup tag := by
  rw [lookup_eq_head?, lookup_eq_head?, h.filter_eq]

end TagList

/-- **The order of tags does not matter** to what they say. -/
theorem Dynamic.ofTags_reordered {tags tags' : TagList} (f : ObjectFile)
    (h : TagList.Reordered tags tags') : ofTags f tags = ofTags f tags' := by
  have hlookup : ∀ tag, tags.lookup tag = tags'.lookup tag := h.lookup_eq
  simp only [ofTags, pltTable?, table?, hlookup, h.filter_eq]

/-! ### Tags in two files -/

variable {f g : ObjectFile} {offset : Nat}

/-- The end mark of a list of tags stands at an offset. Its value does not matter. -/
def ObjectFile.EndMark (f : ObjectFile) (offset : Nat) : Prop :=
  f.word offset = .ok Tag.null ∧ ∃ value, f.word (offset + 4) = .ok value

/-- **Two files have the same tags** at an offset, in sections of two sizes. The bytes are the same
up to an end mark that lies in both sections, or as far as whole tags fit into them. -/
structure SameTags (f g : ObjectFile) (offset size size' : Nat) : Prop where
  /-- The files are in the same place. -/
  path_eq : f.path = g.path
  /-- They are for the same kind of processor. -/
  order_eq : f.order = g.order
  /-- Up to some tag they do not differ. -/
  exists_count : ∃ count,
    (∀ i < 8 * count, f.bytes[offset + i]? = g.bytes[offset + i]?) ∧
      (size / 8 = count ∧ size' / 8 = count ∨
        count < size / 8 ∧ count < size' / 8 ∧
          f.EndMark (offset + 8 * count) ∧ g.EndMark (offset + 8 * count))

/-- A byte that is in one of two files is in the other one, where they do not differ. -/
theorem ByteArray.lt_size_of_getElem?_eq {a b : ByteArray} {i : Nat} (hi : i < a.size)
    (h : a[i]? = b[i]?) : i < b.size := by
  by_contra hnot
  rw [getElem?_pos a i hi, getElem?_neg b i hnot] at h
  cases h

/-- **A word depends on its four bytes only.** -/
theorem ObjectFile.word_congr (hpath : f.path = g.path) (horder : f.order = g.order)
    (h : ∀ i < 4, f.bytes[offset + i]? = g.bytes[offset + i]?) :
    f.word offset = g.word offset := by
  have hlast := h 3 (by decide)
  unfold word
  by_cases hf : offset + 4 ≤ f.bytes.size
  · have hg : offset + 3 < g.bytes.size := ByteArray.lt_size_of_getElem?_eq (by omega) hlast
    have hbyte : ∀ i (hi : i < 4), f.bytes[offset + i] = g.bytes[offset + i] := by
      intro i hi
      have hsame := h i hi
      rw [getElem?_pos f.bytes _ (by omega), getElem?_pos g.bytes _ (by omega)] at hsame
      exact Option.some.inj hsame
    rw [dif_pos hf, dif_pos (by omega), horder, hbyte 1 (by decide), hbyte 2 (by decide),
      hbyte 3 (by decide)]
    exact congrArg (fun b => Except.ok (g.order.word b _ _ _)) (hbyte 0 (by decide))
  · have hg : ¬ offset + 4 ≤ g.bytes.size := by
      intro hle
      have := ByteArray.lt_size_of_getElem?_eq (by omega) hlast.symm
      omega
    rw [dif_neg hf, dif_neg hg, flawed, flawed, hpath]

namespace Dynamic

/-- **Reading tags goes on alike** behind tags that are the same. -/
theorem readTags_congr (hpath : f.path = g.path) (horder : f.order = g.order)
    {count more more' : Nat} (h : ∀ i < 8 * count, f.bytes[offset + i]? = g.bytes[offset + i]?)
    (hmore : readTags f more (offset + 8 * count) = readTags g more' (offset + 8 * count)) :
    readTags f (count + more) offset = readTags g (count + more') offset := by
  induction count generalizing offset with
  | zero => simpa using hmore
  | succ count ih =>
    have htag : f.word offset = g.word offset :=
      ObjectFile.word_congr hpath horder fun i hi => h i (by omega)
    have hvalue : f.word (offset + 4) = g.word (offset + 4) := by
      refine ObjectFile.word_congr hpath horder fun i hi => ?_
      rw [Nat.add_assoc]
      exact h (4 + i) (by omega)
    have hrest : readTags f (count + more) (offset + 8) =
        readTags g (count + more') (offset + 8) := by
      refine ih (fun i hi => ?_) ?_
      · rw [Nat.add_assoc]
        exact h (8 + i) (by omega)
      · rwa [show offset + 8 + 8 * count = offset + 8 * (count + 1) by omega]
    rw [show count + 1 + more = count + more + 1 by omega,
      show count + 1 + more' = count + more' + 1 by omega, readTags, readTags, htag, hvalue, hrest]

/-- Reading tags stops at an end mark. -/
theorem readTags_of_endMark {count : Nat} (h : f.EndMark offset) (hcount : 0 < count) :
    readTags f count offset = .ok [] := by
  obtain ⟨htag, value, hvalue⟩ := h
  cases count with
  | zero => exact absurd hcount (Nat.lt_irrefl 0)
  | succ count =>
    rw [readTags, htag, hvalue]
    rfl

/-- A file is needed only for its messages to make sense of tags. -/
theorem ofTags_congr (hpath : f.path = g.path) (tags : TagList) :
    ofTags f tags = ofTags g tags := by
  have hflawed : f.flawed = g.flawed := by
    funext flaw
    rw [ObjectFile.flawed, ObjectFile.flawed, hpath]
  simp only [ofTags, pltTable?, table?, checkEntrySize, hflawed]

/-- **What stands behind the tags does not count.** -/
theorem read_of_sameTags {size size' : Nat} (h : SameTags f g offset size size') :
    read f offset size = read g offset size' := by
  obtain ⟨count, hbytes, hend⟩ := h.exists_count
  have htags : readTags f (size / 8) offset = readTags g (size' / 8) offset := by
    rcases hend with ⟨rfl, hsize⟩ | ⟨hlt, hlt', hmark, hmark'⟩
    · rw [hsize]
      have hnil : readTags f 0 (offset + 8 * (size / 8)) =
          readTags g 0 (offset + 8 * (size / 8)) := rfl
      exact readTags_congr h.path_eq h.order_eq hbytes hnil
    · rw [← Nat.add_sub_cancel' (Nat.le_of_lt hlt), ← Nat.add_sub_cancel' (Nat.le_of_lt hlt')]
      refine readTags_congr h.path_eq h.order_eq hbytes ?_
      rw [readTags_of_endMark hmark (by omega), readTags_of_endMark hmark' (by omega)]
  rw [read, read, htags]
  exact congrArg _ (funext (ofTags_congr h.path_eq))

/-- **What a dynamic section depends on.** The order of its tags does not matter, as long as those
with the same tag keep theirs: the section is the same, or the error is. And nothing but the tags
in front of the end mark counts of a file, nor does what is left of the size of the section behind
the last whole tag. -/
theorem ofTags_eq_and_read_eq (f : ObjectFile) :
    (∀ tags tags', TagList.Reordered tags tags' → ofTags f tags = ofTags f tags') ∧
      ∀ g offset size size', SameTags f g offset size size' →
        read f offset size = read g offset size' :=
  ⟨fun _ _ h => ofTags_reordered f h, fun _ _ _ _ h => read_of_sameTags h⟩

/-- A file of one tag, its end mark, and another tag behind that. -/
def endedFile : ObjectFile := ⟨"a", .little, ⟨#[
  1, 0, 0, 0, 5, 0, 0, 0, 0, 0, 0, 0, 0, 0, 0, 0, 1, 0, 0, 0, 7, 0, 0, 0]⟩⟩

/-- The same file with another value of the end mark and other bytes behind it. -/
def changedFile : ObjectFile := ⟨"a", .little, ⟨#[
  1, 0, 0, 0, 5, 0, 0, 0, 0, 0, 0, 0, 9, 9, 9, 9, 17, 0, 0, 0, 3, 0, 0, 0, 1, 1, 1]⟩⟩

/-- The size of a table may come before its address, and what is behind an end mark may be
changed. -/
theorem ofTags_eq_and_read_eq_endedFile :
    ofTags endedFile [(Tag.rel, 0x300), (Tag.relSize, 8), (Tag.needed, 5)] =
        ofTags endedFile [(Tag.relSize, 8), (Tag.rel, 0x300), (Tag.needed, 5)] ∧
      read endedFile 0 24 = read changedFile 0 27 := by
  obtain ⟨htags, hfiles⟩ := ofTags_eq_and_read_eq endedFile
  refine ⟨htags _ _ (TagList.reordered_swap [] _ (by decide)), hfiles _ _ _ _ ?_⟩
  refine ⟨rfl, rfl, 1, by decide, .inr ⟨by decide, by decide, ?_, ?_⟩⟩
  · exact ⟨rfl, _, rfl⟩
  · exact ⟨rfl, _, rfl⟩

end Dynamic

end ElfLoader
