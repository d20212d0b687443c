import ElfLoader.Proofs.PlannedVersions

/-!
# Plans that can be made

A plan starts empty and grows by additions (`ElfLoader.ImagePlan.Drafted`). Whatever is added, and
in whatever order, the plan makes sense (`ElfLoader.ImagePlan.Drafted.wellFormed`): a symbol with a
version brings the version with it, no version is added twice, and each table of relocations gets
only what belongs there.
-/

namespace ElfLoader

namespace ImagePlan

/-- **A plan that can be made**: it starts as that of a shared object or an executable, its
settings may be anything, and all else is added. -/
inductive Drafted : ImagePlan → Prop where
  /-- The plan of a shared object in which nothing is. -/
  | shared (soname : String) : Drafted (.shared soname)
  /-- The plan of an executable in which nothing is. -/
  | executable (address : UInt32) : Drafted (.executable address)
  /-- Settings that are chosen freely. -/
  | settings {p : ImagePlan} (h : Drafted p) (type machine : UInt16) (order : ByteOrder)
      (address entry imageSize zeros : UInt32)
      (isDynamic hasHash hasSymbolTable relaCoversPlt : Bool) (soname : Option String)
      (initCode finiCode : Option UInt32) :
      Drafted {
        p with
        type, machine, order, address, entry, imageSize, zeros, isDynamic, hasHash
        hasSymbolTable, relaCoversPlt, soname, initCode, finiCode }
  /-- A needed library. -/
  | addNeeded {p : ImagePlan} (h : Drafted p) (name : String) : Drafted (p.addNeeded name)
  /-- A symbol that the object defines. -/
  | define {p : ImagePlan} (h : Drafted p) (binding : Binding) (name : String)
      (value size : UInt32) : Drafted (p.define binding name value size).1
  /-- A symbol of the full symbol table only. -/
  | defineStatic {p : ImagePlan} (h : Drafted p) (name : String) (value size : UInt32) :
      Drafted (p.defineStatic name value size)
  /-- A symbol that the object defines in a version. -/
  | defineVersion {p : ImagePlan} (h : Drafted p) (name : String) (value : UInt32)
      (version : String) (hidden : Bool) : Drafted (p.defineVersion name value version hidden).1
  /-- A symbol from elsewhere. -/
  | importSymbol {p : ImagePlan} (h : Drafted p) (binding : Binding) (name : String) :
      Drafted (p.importSymbol binding name).1
  /-- A symbol from elsewhere in a version. -/
  | importVersion {p : ImagePlan} (h : Drafted p) (name file version : String) :
      Drafted (p.importVersion name file version).1
  /-- A version that is needed from another file. -/
  | needVersion {p : ImagePlan} (h : Drafted p) (file version : String) (weak : Bool) :
      Drafted (p.needVersion file version weak)
  /-- An implicit relocation. -/
  | addRel {p : ImagePlan} (h : Drafted p) (offset : UInt32) (symbol : Nat) (type : UInt32) :
      Drafted (p.addRel offset symbol type)
  /-- An explicit relocation. -/
  | addRela {p : ImagePlan} (h : Drafted p) (offset : UInt32) (symbol : Nat)
      (type addend : UInt32) : Drafted (p.addRela offset symbol type addend)
  /-- A relocation of the procedure linkage. -/
  | addPlt {p : ImagePlan} (h : Drafted p) (offset : UInt32) (symbol : Nat) (type : UInt32) :
      Drafted (p.addPlt offset symbol type)
  /-- Bytes at an address. -/
  | putBytes {p : ImagePlan} (h : Drafted p) (address : UInt32) (bytes : List UInt8) :
      Drafted (p.putBytes address bytes)
  /-- A word at an address. -/
  | putWord {p : ImagePlan} (h : Drafted p) (address value : UInt32) :
      Drafted (p.putWord address value)
  /-- Functions to run before anything else, at the start and at the end. -/
  | arrays {p : ImagePlan} (h : Drafted p) (preinitArray initArray finiArray : List UInt32) :
      Drafted { p with preinitArray, initArray, finiArray }

variable {p : ImagePlan}

/-! ### What is added makes sense -/

theorem wellFormed_bare (type : UInt16) (address : UInt32) : (bare type address).WellFormed where
  nodup_needs := List.nodup_nil
  defined _ hs := absurd hs List.not_mem_nil
  needed _ hs := absurd hs List.not_mem_nil
  rel _ he := absurd he List.not_mem_nil
  rela _ he := absurd he List.not_mem_nil
  plt _ he := absurd he List.not_mem_nil

/-- A symbol makes sense if its version is there. -/
theorem WellFormed.addSymbol (h : p.WellFormed) {s : PlannedSymbol}
    (hdefined : ∀ name hidden, s.version = .defined name hidden → name ∈ p.definitions)
    (hneeded : ∀ file name, s.version = .needed file name →
      (file, name) ∈ p.needs.map fun n => (n.file, n.name)) : (p.addSymbol s).1.WellFormed where
  nodup_needs := h.nodup_needs
  defined := by
    intro t ht
    rcases List.mem_append.1 ht with ht | ht
    · exact h.defined t ht
    · obtain rfl := List.mem_singleton.1 ht
      exact hdefined
  needed := by
    intro t ht
    rcases List.mem_append.1 ht with ht | ht
    · exact h.needed t ht
    · obtain rfl := List.mem_singleton.1 ht
      exact hneeded
  rel := h.rel
  rela := h.rela
  plt := h.plt

/-- A symbol without a version makes sense. -/
theorem WellFormed.addSymbol_unversioned (h : p.WellFormed) {s : PlannedSymbol}
    (hs : s.version = .unversioned) : (p.addSymbol s).1.WellFormed := by
  refine h.addSymbol ?_ ?_
  · intro name hidden hv
    rw [hs] at hv
    cases hv
  · intro file name hv
    rw [hs] at hv
    cases hv

theorem mem_definitions_addDefinition (version : String) :
    version ∈ (p.addDefinition version).definitions := by
  rw [addDefinition]
  split
  · assumption
  · exact List.mem_append_right _ (List.mem_singleton_self version)

theorem WellFormed.addDefinition (h : p.WellFormed) (version : String) :
    (p.addDefinition version).WellFormed := by
  rw [ImagePlan.addDefinition]
  split
  · exact h
  · exact { h with defined := fun s hs name hidden hv =>
      List.mem_append_left _ (h.defined s hs name hidden hv) }

/-- A version is needed once it has been added. -/
theorem mem_needs_needVersion (file version : String) (weak : Bool) :
    (file, version) ∈ (p.needVersion file version weak).needs.map fun n => (n.file, n.name) := by
  rw [needVersion]
  split
  · next hany =>
    obtain ⟨n, hn, hsame⟩ := List.any_eq_true.1 hany
    rw [Bool.and_eq_true, beq_iff_eq, beq_iff_eq] at hsame
    exact List.mem_map.2 ⟨n, hn, by rw [hsame.1, hsame.2]⟩
  · exact List.mem_map.2
      ⟨⟨file, version, weak⟩, List.mem_append_right _ (List.mem_singleton_self _), rfl⟩

/-- No version is added twice. -/
theorem WellFormed.needVersion (h : p.WellFormed) (file version : String) (weak : Bool) :
    (p.needVersion file version weak).WellFormed := by
  rw [ImagePlan.needVersion]
  split
  · exact h
  · next hany =>
    have hnew : (file, version) ∉ p.needs.map fun n => (n.file, n.name) := by
      intro hmem
      obtain ⟨n, hn, heq⟩ := List.mem_map.1 hmem
      cases heq
      exact hany (List.any_eq_true.2 ⟨n, hn, by simp⟩)
    exact {
      h with
      nodup_needs := by
        rw [List.map_append]
        exact h.nodup_needs.append (List.nodup_singleton _)
          (List.disjoint_singleton.2 hnew)
      needed := fun s hs file name hv => by
        rw [List.map_append]
        exact List.mem_append_left _ (h.needed s hs file name hv) }

/-- An entry of the right form may be added to a table. -/
theorem isSome_addend_append {entries : List RelocationEntry} {e : RelocationEntry} {form : Bool}
    (h : ∀ e ∈ entries, e.addend.isSome = form) (he : e.addend.isSome = form) :
    ∀ e' ∈ entries ++ [e], e'.addend.isSome = form := by
  intro e' he'
  rcases List.mem_append.1 he' with he' | he'
  · exact h e' he'
  · rw [List.mem_singleton.1 he']
    exact he

/-- **A plan that can be made makes sense.** -/
theorem Drafted.wellFormed (h : p.Drafted) : p.WellFormed := by
  induction h with
  | shared soname => exact { wellFormed_bare ObjectFile.sharedType 0 with }
  | executable address => exact wellFormed_bare _ _
  | settings _ _ _ _ _ _ _ _ _ _ _ _ _ _ _ ih => exact { ih with }
  | addNeeded _ _ ih => exact { ih with }
  | define _ _ _ _ _ ih => exact ih.addSymbol_unversioned rfl
  | defineStatic _ _ _ _ ih => exact ih.addSymbol_unversioned rfl
  | importSymbol _ _ _ ih => exact ih.addSymbol_unversioned rfl
  | defineVersion _ name value version hidden ih =>
    refine (ih.addDefinition version).addSymbol ?_ ?_
    · rintro _ _ ⟨⟩
      exact mem_definitions_addDefinition version
    · rintro _ _ ⟨⟩
  | importVersion _ name file version ih =>
    refine (ih.needVersion file version false).addSymbol ?_ ?_
    · rintro _ _ ⟨⟩
    · rintro _ _ ⟨⟩
      exact mem_needs_needVersion file version false
  | needVersion _ file version weak ih => exact ih.needVersion file version weak
  | addRel _ _ _ _ ih => exact { ih with rel := isSome_addend_append ih.rel rfl }
  | addRela _ _ _ _ _ ih => exact { ih with rela := isSome_addend_append ih.rela rfl }
  | addPlt _ _ _ _ ih => exact { ih with plt := isSome_addend_append ih.plt rfl }
  | putBytes _ _ _ ih => exact { ih with }
  | putWord _ _ _ ih => exact { ih with }
  | arrays _ _ _ _ ih => exact { ih with }

end ImagePlan

end ElfLoader
