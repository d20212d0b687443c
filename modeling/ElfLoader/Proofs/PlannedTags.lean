import ElfLoader.Proofs.PlannedLayout
import Mathlib.Data.List.Forall2
import Mathlib.Data.List.Nodup

/-!
# The dynamic section of a planned file

The tags of a plan fall into groups, one for each thing that the section tells of
(`ElfLoader.ImagePlan.tagGroups`). No tag belongs to two groups, so a look-up needs to consider
just one of them (`ElfLoader.ImagePlan.lookup_tags`). This is enough to say what the whole
section is read as (`ElfLoader.ImagePlan.dynamicSection`, `ElfLoader.ImagePlan.dynamic_read`).
-/

namespace ElfLoader

/-! ### Look-ups in groups -/

section Groups

variable {α β : Type}

/-- The tags of all groups are among those that belong to the groups. -/
theorem mem_keys_of_mem_flatten {groups : List (List (UInt32 × α))} {keys : List (List UInt32)}
    (h : List.Forall₂ (fun group keys => ∀ t ∈ group, t.1 ∈ keys) groups keys) :
    ∀ t ∈ groups.flatten, t.1 ∈ keys.flatten := by
  induction h with
  | nil => exact fun t ht => absurd ht List.not_mem_nil
  | @cons first firstKeys groups keys hfirst _ ih =>
    intro t ht
    rw [List.flatten_cons] at ht ⊢
    rcases List.mem_append.1 ht with ht | ht
    · exact List.mem_append_left _ (hfirst t ht)
    · exact List.mem_append_right _ (ih t ht)

theorem lookup_eq_none_of_notMem {tags : List (UInt32 × α)} {keys : List UInt32} {tag : UInt32}
    (hkeys : ∀ t ∈ tags, t.1 ∈ keys) (htag : tag ∉ keys) : tags.lookup tag = none := by
  rw [List.lookup_eq_none_iff]
  intro t ht
  rw [bne_iff_ne]
  rintro rfl
  exact htag (hkeys t ht)

/-- **Only the group of a tag counts**, if no tag belongs to two groups. -/
theorem lookup_flatten {groups : List (List (UInt32 × α))} {keys : List (List UInt32)}
    (h : List.Forall₂ (fun group keys => ∀ t ∈ group, t.1 ∈ keys) groups keys)
    (hkeys : keys.flatten.Nodup) {i : Nat} {group : List (UInt32 × α)} {own : List UInt32}
    {tag : UInt32} (hgroup : groups[i]? = some group) (hown : keys[i]? = some own)
    (htag : tag ∈ own) : groups.flatten.lookup tag = group.lookup tag := by
  induction h generalizing i with
  | nil => cases hgroup
  | @cons first firstKeys groups keys hfirst hrest ih =>
    rw [List.flatten_cons] at hkeys ⊢
    rw [List.lookup_append]
    have hdisjoint := List.disjoint_of_nodup_append hkeys
    cases i with
    | zero =>
      cases hgroup
      cases hown
      have hnone : groups.flatten.lookup tag = none :=
        lookup_eq_none_of_notMem (mem_keys_of_mem_flatten hrest) (hdisjoint htag)
      rw [hnone, Option.or_none]
    | succ i =>
      have hnone : first.lookup tag = none :=
        lookup_eq_none_of_notMem hfirst fun hmem =>
          hdisjoint hmem (List.mem_flatten.2 ⟨own, List.mem_of_getElem? hown, htag⟩)
      rw [hnone, Option.none_or]
      exact ih hkeys.of_append_right hgroup hown

/-- Values may be changed before or after a look-up. -/
theorem lookup_map_snd (g : α → β) (tags : List (UInt32 × α)) (tag : UInt32) :
    (tags.map fun t => (t.1, g t.2)).lookup tag = (tags.lookup tag).map g := by
  induction tags with
  | nil => rfl
  | cons t tags ih =>
    rw [List.map_cons, List.lookup_cons, List.lookup_cons, ih]
    split <;> rfl

end Groups

namespace ImagePlan

/-! ### The tags of a plan -/

variable {p : ImagePlan}

/-- The tags of a plan, in groups. -/
def tagGroups (p : ImagePlan) : List (List (UInt32 × PlannedValue)) :=
  [p.needed.zipIdx.map fun n => (Tag.needed, .number (p.strings.offset n.2)),
    p.soname.toList.map fun _ => (Tag.soname, .number (p.strings.offset p.sonamePosition)),
    tagsUnless (!p.hasHash) [(Tag.hash, .addressOf .hash)],
    [(Tag.symbols, .addressOf .symbols), (Tag.symbolEntry, .number 16)],
    tagsUnless (!p.isVersioned) [(Tag.versions, .addressOf .versions)],
    tagsUnless p.definitions.isEmpty
      [(Tag.definitions, .addressOf .definitions),
        (Tag.definitionCount, .number (UInt32.ofNat p.definitionNames.length))],
    tagsUnless p.needs.isEmpty
      [(Tag.needs, .addressOf .needs),
        (Tag.needCount, .number (UInt32.ofNat p.needGroups.length))],
    tagsUnless p.rel.isEmpty
      [(Tag.rel, .addressOf .rel), (Tag.relSize, .number (UInt32.ofNat (8 * p.rel.length))),
        (Tag.relEntry, .number 8)],
    tagsUnless p.rela.isEmpty
      [(Tag.rela, .addressOf .rela), (Tag.relaSize, .number p.relaSize),
        (Tag.relaEntry, .number 12)],
    tagsUnless p.plt.isEmpty
      [(Tag.plt, .addressOf .plt), (Tag.pltSize, .number (UInt32.ofNat (12 * p.plt.length))),
        (Tag.pltForm, .number Tag.rela)],
    arrayTags Tag.preinitArray Tag.preinitArraySize .preinitArray p.preinitArray,
    arrayTags Tag.initArray Tag.initArraySize .initArray p.initArray,
    arrayTags Tag.finiArray Tag.finiArraySize .finiArray p.finiArray,
    p.initCode.toList.map fun code => (Tag.initCode, .number code),
    p.finiCode.toList.map fun code => (Tag.finiCode, .number code),
    [(Tag.strings, .addressOf .strings),
      (Tag.stringsSize, .number (UInt32.ofNat p.strings.bytes.length))]]

theorem tags_eq_flatten : p.tags = p.tagGroups.flatten := by
  simp only [tags, tagGroups, List.flatten_cons, List.flatten_nil, List.append_assoc,
    List.append_nil]

/-- The tags that belong to each group. -/
def tagKeys : List (List UInt32) :=
  [[Tag.needed], [Tag.soname], [Tag.hash], [Tag.symbols, Tag.symbolEntry], [Tag.versions],
    [Tag.definitions, Tag.definitionCount], [Tag.needs, Tag.needCount],
    [Tag.rel, Tag.relSize, Tag.relEntry], [Tag.rela, Tag.relaSize, Tag.relaEntry],
    [Tag.plt, Tag.pltSize, Tag.pltForm], [Tag.preinitArray, Tag.preinitArraySize],
    [Tag.initArray, Tag.initArraySize], [Tag.finiArray, Tag.finiArraySize], [Tag.initCode],
    [Tag.finiCode], [Tag.strings, Tag.stringsSize]]

theorem nodup_tagKeys : tagKeys.flatten.Nodup := by decide

theorem mem_keys_tagsUnless (isAbsent : Bool) (tags : List (UInt32 × PlannedValue)) :
    ∀ t ∈ tagsUnless isAbsent tags, t.1 ∈ tags.map (·.1) := by
  intro t ht
  cases isAbsent with
  | true => exact absurd ht List.not_mem_nil
  | false => exact List.mem_map_of_mem ht

theorem mem_keys_map {α : Type} (key : UInt32) (value : α → PlannedValue) (l : List α) :
    ∀ t ∈ l.map fun a => (key, value a), t.1 ∈ [key] := by
  intro t ht
  obtain ⟨a, -, rfl⟩ := List.mem_map.1 ht
  exact List.mem_singleton_self key

theorem tagGroups_keys : List.Forall₂ (fun group keys => ∀ t ∈ group, t.1 ∈ keys)
    p.tagGroups tagKeys := by
  refine .cons (mem_keys_map _ _ _) (.cons (mem_keys_map _ _ _) ?_)
  refine .cons (mem_keys_tagsUnless _ _) (.cons (mem_keys_tagsUnless false _) ?_)
  refine .cons (mem_keys_tagsUnless _ _) (.cons (mem_keys_tagsUnless _ _) ?_)
  refine .cons (mem_keys_tagsUnless _ _) (.cons (mem_keys_tagsUnless _ _) ?_)
  refine .cons (mem_keys_tagsUnless _ _) (.cons (mem_keys_tagsUnless _ _) ?_)
  refine .cons (mem_keys_tagsUnless _ _) (.cons (mem_keys_tagsUnless _ _) ?_)
  refine .cons (mem_keys_tagsUnless _ _) (.cons (mem_keys_map _ _ _) ?_)
  exact .cons (mem_keys_map _ _ _) (.cons (mem_keys_tagsUnless false _) .nil)

/-- The tags of a plan with the words that they say. -/
def tagList (p : ImagePlan) : TagList := p.tags.map fun t => (t.1, p.resolve p.offset t.2)

/-- **A look-up finds what the group of the tag has.** -/
theorem lookup_tagList (i : Nat) {group : List (UInt32 × PlannedValue)} {own : List UInt32}
    {tag : UInt32} (hgroup : p.tagGroups[i]? = some group) (hown : tagKeys[i]? = some own)
    (htag : tag ∈ own) : p.tagList.lookup tag = (group.lookup tag).map (p.resolve p.offset) := by
  rw [tagList, lookup_map_snd, tags_eq_flatten,
    lookup_flatten tagGroups_keys nodup_tagKeys hgroup hown htag]

/-! ### What the tags say -/

/-- Something that may be absent. -/
def unlessAbsent {α : Type} (isAbsent : Bool) (a : α) : Option α :=
  if isAbsent then none else some a

theorem lookup_tagsUnless (i : Nat) {isAbsent : Bool} {tags : List (UInt32 × PlannedValue)}
    {own : List UInt32} {tag : UInt32} {v : PlannedValue}
    (hgroup : p.tagGroups[i]? = some (tagsUnless isAbsent tags)) (hown : tagKeys[i]? = some own)
    (htag : tag ∈ own) (hv : tags.lookup tag = some v) :
    p.tagList.lookup tag = unlessAbsent isAbsent (p.resolve p.offset v) := by
  rw [lookup_tagList i hgroup hown htag]
  cases isAbsent with
  | true => rfl
  | false => exact congrArg (Option.map (p.resolve p.offset)) hv

/-- The address of a part. -/
def partAddress (p : ImagePlan) (part : ImagePart) : UInt32 := p.addressAt (p.offset part)

/-- **What the dynamic section of a plan says.** -/
def dynamicSection (p : ImagePlan) : Dynamic where
  needed := p.needed.zipIdx.map fun n => p.strings.offset n.2
  soname := p.soname.map fun _ => p.strings.offset p.sonamePosition
  strings := some ⟨p.partAddress .strings, UInt32.ofNat p.strings.bytes.length⟩
  symbols := some (p.partAddress .symbols)
  symbolSize := some 16
  hash := unlessAbsent (!p.hasHash) (p.partAddress .hash)
  rel := unlessAbsent p.rel.isEmpty ⟨p.partAddress .rel, UInt32.ofNat (8 * p.rel.length)⟩
  rela := unlessAbsent p.rela.isEmpty ⟨p.partAddress .rela, p.relaSize⟩
  plt := unlessAbsent p.plt.isEmpty
    ⟨⟨p.partAddress .plt, UInt32.ofNat (12 * p.plt.length)⟩, .explicit⟩
  versions := unlessAbsent (!p.isVersioned) (p.partAddress .versions)
  definitions := unlessAbsent p.definitions.isEmpty
    (p.partAddress .definitions, UInt32.ofNat p.definitionNames.length)
  needs := unlessAbsent p.needs.isEmpty
    (p.partAddress .needs, UInt32.ofNat p.needGroups.length)
  initCode := p.initCode
  finiCode := p.finiCode
  preinitArray := unlessAbsent p.preinitArray.isEmpty
    ⟨p.partAddress .preinitArray, UInt32.ofNat (4 * p.preinitArray.length)⟩
  initArray := unlessAbsent p.initArray.isEmpty
    ⟨p.partAddress .initArray, UInt32.ofNat (4 * p.initArray.length)⟩
  finiArray := unlessAbsent p.finiArray.isEmpty
    ⟨p.partAddress .finiArray, UInt32.ofNat (4 * p.finiArray.length)⟩

section OfTags

variable (f : ObjectFile)

/-- A table is found if its address and its size are in one group. -/
theorem table?_tagList (i : Nat) {isAbsent : Bool} {part : ImagePart} {size : UInt32}
    {address sizeTag : UInt32} {more : List (UInt32 × PlannedValue)} {own : List UInt32}
    (hgroup : p.tagGroups[i]? =
      some (tagsUnless isAbsent ((address, .addressOf part) :: (sizeTag, .number size) :: more)))
    (hown : tagKeys[i]? = some own) (haddress : address ∈ own) (hsize : sizeTag ∈ own)
    (hne : (sizeTag == address) = false) : Dynamic.table? f p.tagList address sizeTag =
      .ok (unlessAbsent isAbsent ⟨p.partAddress part, size⟩) := by
  have hsizeLookup : List.lookup sizeTag
      ((address, PlannedValue.addressOf part) :: (sizeTag, .number size) :: more) =
        some (.number size) := by
    rw [List.lookup_cons, hne]
    exact List.lookup_cons_self
  rw [Dynamic.table?, lookup_tagsUnless i hgroup hown haddress List.lookup_cons_self,
    lookup_tagsUnless i hgroup hown hsize hsizeLookup]
  cases isAbsent <;> rfl

theorem pltTable?_tagList : Dynamic.pltTable? f p.tagList = .ok p.dynamicSection.plt := by
  have hform : p.tagList.lookup Tag.pltForm = unlessAbsent p.plt.isEmpty Tag.rela :=
    lookup_tagsUnless 9 (v := .number Tag.rela) rfl rfl (by decide) rfl
  have htable : Dynamic.table? f p.tagList Tag.plt Tag.pltSize =
      .ok (unlessAbsent p.plt.isEmpty
        ⟨p.partAddress .plt, UInt32.ofNat (12 * p.plt.length)⟩) :=
    table?_tagList f 9 rfl rfl (by decide) (by decide) (by decide)
  refine bind_eq_ok_iff.2 ⟨_, htable, ?_⟩
  rw [hform, dynamicSection]
  cases p.plt.isEmpty <;> rfl

/-- The needed libraries are those that the first group tells of. -/
theorem needed_tagList : (p.tagList.filter fun t => t.1 == Tag.needed).map (·.2) =
    p.dynamicSection.needed := by
  have hrest : ∀ t ∈ p.tagGroups.tail.flatten, t.1 ∈ tagKeys.tail.flatten := by
    cases tagGroups_keys (p := p) with
    | cons _ h => exact mem_keys_of_mem_flatten h
  have hothers : Tag.needed ∉ tagKeys.tail.flatten := by decide
  have htags : p.tags = (p.needed.zipIdx.map fun n =>
      (Tag.needed, PlannedValue.number (p.strings.offset n.2))) ++ p.tagGroups.tail.flatten :=
    tags_eq_flatten
  rw [tagList, htags, List.map_append, List.filter_append, List.map_map, List.filter_eq_self.2,
    List.filter_eq_nil_iff.2, List.append_nil, List.map_map]
  · rfl
  · intro t ht
    obtain ⟨t', ht', rfl⟩ := List.mem_map.1 ht
    rw [beq_iff_eq]
    rintro hneeded
    exact hothers (hneeded ▸ hrest t' ht')
  · intro t ht
    obtain ⟨n, -, rfl⟩ := List.mem_map.1 ht
    rfl

theorem checkEntrySize_of_eq {name : String} {isAbsent : Bool} {size : UInt32} {expected : Nat}
    (h : size.toNat = expected) :
    Dynamic.checkEntrySize f name (unlessAbsent isAbsent size) expected = .ok () := by
  cases isAbsent with
  | true => rfl
  | false => exact (ensure_eq_ok_iff ..).2 h

/-- The tables that have an address and a size, apart from those of relocations. -/
theorem tables_tagList :
    Dynamic.table? f p.tagList Tag.strings Tag.stringsSize = .ok p.dynamicSection.strings ∧
    Dynamic.table? f p.tagList Tag.preinitArray Tag.preinitArraySize =
      .ok p.dynamicSection.preinitArray ∧
    Dynamic.table? f p.tagList Tag.initArray Tag.initArraySize = .ok p.dynamicSection.initArray ∧
    Dynamic.table? f p.tagList Tag.finiArray Tag.finiArraySize =
      .ok p.dynamicSection.finiArray := by
  have hstrings : p.tagGroups[15]? = some (tagsUnless false [(Tag.strings, .addressOf .strings),
      (Tag.stringsSize, .number (UInt32.ofNat p.strings.bytes.length))]) := rfl
  refine ⟨?_, ?_, ?_, ?_⟩
  · exact table?_tagList f 15 hstrings rfl (by decide) (by decide) (by decide)
  · exact table?_tagList f 10 rfl rfl (by decide) (by decide) (by decide)
  · exact table?_tagList f 11 rfl rfl (by decide) (by decide) (by decide)
  · exact table?_tagList f 12 rfl rfl (by decide) (by decide) (by decide)

/-- The tables of relocations, with the sizes of their entries. -/
theorem relocationTables_tagList :
    Dynamic.table? f p.tagList Tag.rel Tag.relSize = .ok p.dynamicSection.rel ∧
    Dynamic.table? f p.tagList Tag.rela Tag.relaSize = .ok p.dynamicSection.rela ∧
    p.tagList.lookup Tag.relEntry = unlessAbsent p.rel.isEmpty 8 ∧
    p.tagList.lookup Tag.relaEntry = unlessAbsent p.rela.isEmpty 12 := by
  refine ⟨?_, ?_, ?_, ?_⟩
  · exact table?_tagList f 7 rfl rfl (by decide) (by decide) (by decide)
  · exact table?_tagList f 8 rfl rfl (by decide) (by decide) (by decide)
  · exact lookup_tagsUnless 7 (v := .number 8) rfl rfl (by decide) rfl
  · exact lookup_tagsUnless 8 (v := .number 12) rfl rfl (by decide) rfl

/-- The name of the object and the functions to run. -/
theorem settings_tagList : p.tagList.lookup Tag.soname = p.dynamicSection.soname ∧
    p.tagList.lookup Tag.initCode = p.initCode ∧ p.tagList.lookup Tag.finiCode = p.finiCode := by
  refine ⟨?_, ?_, ?_⟩
  · rw [lookup_tagList 1 rfl rfl (by decide), dynamicSection]
    cases p.soname <;> rfl
  · rw [lookup_tagList 13 rfl rfl (by decide)]
    cases p.initCode <;> rfl
  · rw [lookup_tagList 14 rfl rfl (by decide)]
    cases p.finiCode <;> rfl

/-- The symbols, and what counts them. -/
theorem symbols_tagList : p.tagList.lookup Tag.hash = p.dynamicSection.hash ∧
    p.tagList.lookup Tag.symbols = p.dynamicSection.symbols ∧
    p.tagList.lookup Tag.symbolEntry = some 16 := by
  have hsymbols : p.tagGroups[3]? = some (tagsUnless false [(Tag.symbols, .addressOf .symbols),
      (Tag.symbolEntry, .number 16)]) := rfl
  refine ⟨?_, ?_, ?_⟩
  · exact lookup_tagsUnless 2 (v := .addressOf .hash) rfl rfl (by decide) rfl
  · exact lookup_tagsUnless 3 (v := .addressOf .symbols) hsymbols rfl (by decide) rfl
  · exact lookup_tagsUnless 3 (v := .number 16) hsymbols rfl (by decide) rfl

/-- The versions, and how many of them there are. -/
theorem versions_tagList : p.tagList.lookup Tag.versions = p.dynamicSection.versions ∧
    (p.tagList.lookup Tag.definitions).map
      (fun a => (a, (p.tagList.lookup Tag.definitionCount).getD 0)) =
        p.dynamicSection.definitions ∧
    (p.tagList.lookup Tag.needs).map (fun a => (a, (p.tagList.lookup Tag.needCount).getD 0)) =
      p.dynamicSection.needs := by
  have hdefinitionCount : p.tagList.lookup Tag.definitionCount =
      unlessAbsent p.definitions.isEmpty (UInt32.ofNat p.definitionNames.length) :=
    lookup_tagsUnless 5 (v := .number _) rfl rfl (by decide) rfl
  have hneedCount : p.tagList.lookup Tag.needCount =
      unlessAbsent p.needs.isEmpty (UInt32.ofNat p.needGroups.length) :=
    lookup_tagsUnless 6 (v := .number _) rfl rfl (by decide) rfl
  refine ⟨?_, ?_, ?_⟩
  · exact lookup_tagsUnless 4 (v := .addressOf .versions) rfl rfl (by decide) rfl
  · rw [hdefinitionCount,
      lookup_tagsUnless 5 (v := .addressOf .definitions) rfl rfl (by decide) rfl, dynamicSection]
    cases p.definitions.isEmpty <;> rfl
  · rw [hneedCount, lookup_tagsUnless 6 (v := .addressOf .needs) rfl rfl (by decide) rfl,
      dynamicSection]
    cases p.needs.isEmpty <;> rfl

/-- **The tags of a plan are understood.** -/
theorem ofTags_tagList : Dynamic.ofTags f p.tagList = .ok p.dynamicSection := by
  obtain ⟨hstrings, hpreinit, hinit, hfini⟩ := tables_tagList (p := p) f
  obtain ⟨hrel, hrela, hrelEntry, hrelaEntry⟩ := relocationTables_tagList (p := p) f
  obtain ⟨hsoname, hinitCode, hfiniCode⟩ := settings_tagList (p := p)
  obtain ⟨hhash, hsymbols, hsymbolEntry⟩ := symbols_tagList (p := p)
  obtain ⟨hversions, hdefinitions, hneeds⟩ := versions_tagList (p := p)
  unfold Dynamic.ofTags
  refine bind_eq_ok_iff.2 ⟨_, pltTable?_tagList f, ?_⟩
  refine bind_eq_ok_iff.2 ⟨_, hstrings, ?_⟩
  refine bind_eq_ok_iff.2 ⟨_, hrel, ?_⟩
  refine bind_eq_ok_iff.2 ⟨_, hrela, ?_⟩
  refine bind_eq_ok_iff.2 ⟨_, hpreinit, ?_⟩
  refine bind_eq_ok_iff.2 ⟨_, hinit, ?_⟩
  refine bind_eq_ok_iff.2 ⟨_, hfini, ?_⟩
  dsimp only
  rw [hsoname, hinitCode, hfiniCode, needed_tagList, hhash, hsymbols, hsymbolEntry, hversions,
    hdefinitions, hneeds, hrelEntry, hrelaEntry]
  refine bind_eq_ok_iff.2 ⟨(), checkEntrySize_of_eq f rfl, ?_⟩
  refine bind_eq_ok_iff.2 ⟨(), checkEntrySize_of_eq f rfl, ?_⟩
  exact bind_eq_ok_iff.2 ⟨(), (ensure_eq_ok_iff ..).2 rfl, rfl⟩

end OfTags

/-! ### Reading the section -/

/-- **Tags are read back**, up to the end mark. -/
theorem readTags_of_holds {f : ObjectFile} {tags : TagList} {offset : Nat}
    (h : f.Holds offset ((tags.flatMap fun t => f.order.words [t.1, t.2]) ++
      f.order.words [Tag.null, 0])) (hnull : ∀ t ∈ tags, t.1 ≠ Tag.null) :
    Dynamic.readTags f (tags.length + 1) offset = .ok tags := by
  induction tags generalizing offset with
  | nil =>
    have hwords : f.Holds offset (f.order.words [Tag.null, 0]) := h
    refine bind_eq_ok_iff.2 ⟨Tag.null, hwords.words (i := 0) rfl, ?_⟩
    exact bind_eq_ok_iff.2 ⟨0, hwords.words (i := 1) rfl, rfl⟩
  | cons t tags ih =>
    rw [List.flatMap_cons, List.append_assoc] at h
    have hrest := h.right
    rw [ByteOrder.length_words] at hrest
    refine bind_eq_ok_iff.2 ⟨t.1, h.left.words (i := 0) rfl, ?_⟩
    refine bind_eq_ok_iff.2 ⟨t.2, h.left.words (i := 1) rfl, ?_⟩
    rw [if_neg (hnull t List.mem_cons_self)]
    exact bind_eq_ok_iff.2 ⟨tags, ih hrest fun t' ht' => hnull t' (List.mem_cons_of_mem t ht'), rfl⟩

theorem ne_null_of_mem_tagList : ∀ t ∈ p.tagList, t.1 ≠ Tag.null := by
  have hkeys : Tag.null ∉ tagKeys.flatten := by decide
  intro t ht
  obtain ⟨t', ht', rfl⟩ := List.mem_map.1 ht
  rintro hnull
  rw [tags_eq_flatten] at ht'
  exact hkeys (hnull ▸ mem_keys_of_mem_flatten tagGroups_keys t' ht')

theorem partBytes_dynamic (hdynamic : p.isDynamic = true) (place : ImagePart → Nat) :
    p.partBytes place .dynamic = p.dynamicBytes place := by
  rw [partBytes, if_neg (by simp [hdynamic])]

theorem partSize_dynamic (hdynamic : p.isDynamic = true) :
    p.partSize .dynamic = 8 * (p.tags.length + 1) := by
  have hlength := congrArg List.length (partBytes_dynamic hdynamic fun _ => 0)
  rw [length_dynamicBytes] at hlength
  rw [partSize_eq_of_dvd, hlength]
  rw [hlength]
  exact (by decide : 4 ∣ 8).mul_right _

/-- **The dynamic section is read back.** -/
theorem Fits.dynamicOf_eq (h : p.Fits) (hdynamic : p.isDynamic = true) (path : String) :
    Object.dynamicOf (p.file path) [p.loadHeader, p.dynamicHeader] =
      .ok (some p.dynamicSection) := by
  have hle := p.offset_add_le_size .dynamic
  have hoffset : p.dynamicHeader.offset.toNat = p.offset .dynamic :=
    h.toNat_ofNat (p.offset_lt_size .dynamic).le
  have hsize : p.dynamicHeader.fileSize.toNat / 8 = p.tagList.length + 1 := by
    have hfileSize : p.dynamicHeader.fileSize.toNat = p.partSize .dynamic :=
      h.toNat_ofNat (by omega)
    rw [hfileSize, partSize_dynamic hdynamic, Nat.mul_div_cancel_left _ (by decide), tagList,
      List.length_map]
  have hbytes : (p.file path).Holds (p.offset .dynamic)
      ((p.tagList.flatMap fun t => (p.file path).order.words [t.1, t.2]) ++
        (p.file path).order.words [Tag.null, 0]) := by
    have hpart : (p.file path).Holds (p.offset .dynamic) (p.partBytes p.offset .dynamic) :=
      holds_partBytes .dynamic
    rw [partBytes_dynamic hdynamic] at hpart
    rw [tagList, List.flatMap_map]
    exact hpart
  refine bind_eq_ok_iff.2 ⟨p.dynamicSection, ?_, rfl⟩
  refine bind_eq_ok_iff.2 ⟨p.tagList, ?_, ofTags_tagList _⟩
  rw [hoffset, hsize]
  exact readTags_of_holds hbytes ne_null_of_mem_tagList

end ImagePlan

end ElfLoader
