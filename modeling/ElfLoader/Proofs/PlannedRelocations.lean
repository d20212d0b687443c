import ElfLoader.Proofs.PlannedContent

/-!
# The relocations of a planned file

The tables of relocations are read back with the planned entries, each of them once
(`ElfLoader.ImagePlan.Readable.relocations_eq`), also where the dynamic section says that the
explicit ones run on over those of the procedure linkage
(`ElfLoader.ImagePlan.Readable.withoutPlt_rela`).
-/

namespace ElfLoader.ImagePlan

variable {p : ImagePlan} {path : String} {extent : Span}

/-! ### One table -/

/-- The reference to a table of relocations, unless it is empty. -/
def tableRef (p : ImagePlan) (part : ImagePart) (form : RelocationForm)
    (entries : List RelocationEntry) : List RelocationRef :=
  (unlessAbsent entries.isEmpty
    ⟨⟨p.partAddress part, UInt32.ofNat (form.entrySize * entries.length)⟩, form⟩).toList

/-- **A table of relocations is read back.** -/
theorem Fits.relocationTables_eq (h : p.Fits) {part : ImagePart} {form : RelocationForm}
    {entries : List RelocationEntry}
    (hbytes : (p.file path).Holds (p.offset part) (entries.flatMap (·.bytes p.order)))
    (hform : ∀ e ∈ entries, e.addend.isSome = true ↔ form = .explicit) :
    ∃ tables, ((p.object path extent).tablesOf (p.tableRef part form entries)).result =
      .ok tables ∧ tables.flatMap (·.entries) = entries := by
  rw [tableRef]
  cases hnone : entries.isEmpty with
  | true =>
    refine ⟨[], rfl, ?_⟩
    rw [List.isEmpty_iff.1 hnone]
    rfl
  | false =>
    have hle := hbytes.le_size
    rw [RelocationTable.length_flatMap_bytes p.order hform, size_file] at hle
    have hsize := h.toNat_ofNat (n := form.entrySize * entries.length) (by omega)
    rw [← List.append_nil (entries.flatMap _)] at hbytes
    obtain ⟨t, ht, -, hentries⟩ := RelocationTable.bind_of_holds path hbytes hform
      (by cases form <;> decide) hsize
    refine ⟨[t], ?_, ?_⟩
    · refine Report.result_bind_eq_ok_iff.2 ⟨t, ?_, rfl⟩
      exact Report.result_bind_eq_ok_iff.2 ⟨_, h.offsetIn_part part _, ht⟩
    · rw [List.flatMap_cons, List.flatMap_nil, List.append_nil, hentries]

/-! ### Tables that run on -/

/-- A table is applied if it is not empty, without the part that belongs to another one. -/
theorem Fits.trimmed_eq (h : p.Fits) {part : ImagePart} {form : RelocationForm}
    {entries : List RelocationEntry} {t : TableRef}
    (hle : form.entrySize * entries.length ≤ p.size)
    (ht : p.dynamicSection.withoutPlt form t =
      ⟨p.partAddress part, UInt32.ofNat (form.entrySize * entries.length)⟩) :
    p.dynamicSection.trimmed form (unlessAbsent entries.isEmpty t) =
      p.tableRef part form entries := by
  rw [tableRef]
  cases hnone : entries.isEmpty with
  | true => rfl
  | false =>
    have hpos : 0 < entries.length := List.length_pos_iff.2 (List.isEmpty_eq_false_iff.1 hnone)
    have hsize : UInt32.ofNat (form.entrySize * entries.length) ≠ 0 := by
      intro hzero
      have htoNat := h.toNat_ofNat hle
      rw [hzero] at htoNat
      exact (Nat.mul_pos (by cases form <;> decide) hpos).ne htoNat
    change (if (p.dynamicSection.withoutPlt form t).size = 0 then []
      else [RelocationRef.mk (p.dynamicSection.withoutPlt form t) form]) = _
    rw [ht, if_neg hsize]
    rfl

/-- Implicit relocations are not those of the procedure linkage. -/
theorem withoutPlt_implicit (t : TableRef) : p.dynamicSection.withoutPlt .implicit t = t := by
  rw [Dynamic.withoutPlt, dynamicSection]
  cases p.plt.isEmpty <;> rfl

/-- The parts of a readable plan that hold relocations. -/
theorem Readable.holds_relocations (h : p.Readable) (path : String) :
    (p.file path).Holds (p.offset .rel) (p.rel.flatMap (·.bytes p.order)) ∧
    (p.file path).Holds (p.offset .rela) (p.rela.flatMap (·.bytes p.order)) ∧
    (p.file path).Holds (p.offset .plt) (p.plt.flatMap (·.bytes p.order)) :=
  ⟨holds_fixedBytes h.isDynamic .rel (by decide), holds_fixedBytes h.isDynamic .rela (by decide),
    holds_fixedBytes h.isDynamic .plt (by decide)⟩

theorem WellFormed.forms (h : p.WellFormed) :
    (∀ e ∈ p.rel, e.addend.isSome = true ↔ RelocationForm.implicit = .explicit) ∧
    (∀ e ∈ p.rela, e.addend.isSome = true ↔ RelocationForm.explicit = .explicit) ∧
    ∀ e ∈ p.plt, e.addend.isSome = true ↔ RelocationForm.explicit = .explicit := by
  refine ⟨fun e he => ?_, fun e he => ?_, fun e he => ?_⟩
  · simp [h.rel e he]
  · simp [h.rela e he]
  · simp [h.plt e he]

/-- The relocations of the procedure linkage stand right behind the explicit ones. -/
theorem Readable.offset_plt (h : p.Readable) :
    p.offset .plt = p.offset .rela + 12 * p.rela.length ∧
      p.offset .plt + 12 * p.plt.length ≤ p.size := by
  obtain ⟨-, hrelaForm, hpltForm⟩ := h.wellFormed.forms
  constructor
  · have hlength : (p.partBytes (fun _ => 0) .rela).length = 12 * p.rela.length := by
      rw [partBytes_eq h.isDynamic _ .rela (by decide)]
      exact RelocationTable.length_flatMap_bytes p.order hrelaForm
    have hnext : p.offset .plt = p.offset .rela + p.partSize .rela := p.offset_eq_add rfl
    rw [hnext, partSize_eq_of_dvd, hlength]
    rw [hlength]
    exact Dvd.dvd.mul_right (by decide) _
  · have hle := (h.holds_relocations "").2.2.le_size
    rw [RelocationTable.length_flatMap_bytes p.order hpltForm, size_file] at hle
    exact hle

/-- Relocations of the procedure linkage at the end of a table are cut off. -/
theorem withoutPlt_explicit (hsome : p.plt.isEmpty = false) (t : TableRef) :
    p.dynamicSection.withoutPlt .explicit t =
      if t.address ≤ p.partAddress .plt ∧ Dynamic.tableEnd t =
          Dynamic.tableEnd ⟨p.partAddress .plt, UInt32.ofNat (12 * p.plt.length)⟩ then
        { t with size := t.size - UInt32.ofNat (12 * p.plt.length) }
      else t := by
  have hplt : p.dynamicSection.plt =
      some ⟨⟨p.partAddress .plt, UInt32.ofNat (12 * p.plt.length)⟩, .explicit⟩ := by
    rw [dynamicSection, hsome]
    rfl
  rw [Dynamic.withoutPlt, hplt]
  simp only [true_and]

/-- The end of a table that starts with a part. -/
theorem Fits.tableEnd_eq (h : p.Fits) (part : ImagePart) (size : UInt32) :
    Dynamic.tableEnd ⟨p.partAddress part, size⟩ =
      p.address.toNat + p.offset part + size.toNat := by
  rw [Dynamic.tableEnd, partAddress, h.toNat_addressAt (p.offset_lt_size part).le]

/-- **The explicit relocations stop where those of the procedure linkage begin**, even if the
dynamic section says that they run on. -/
theorem Readable.withoutPlt_rela (h : p.Readable) :
    p.dynamicSection.withoutPlt .explicit ⟨p.partAddress .rela, p.relaSize⟩ =
      ⟨p.partAddress .rela, UInt32.ofNat (12 * p.rela.length)⟩ := by
  cases hnone : p.plt.isEmpty with
  | true =>
    have hnoPlt : p.dynamicSection.plt = none := by rw [dynamicSection, hnone]; rfl
    have hsize : p.relaSize = UInt32.ofNat (12 * p.rela.length) := by
      rw [relaSize, List.isEmpty_iff.1 hnone, List.length_nil, ite_self, Nat.add_zero]
    rw [Dynamic.withoutPlt, hnoPlt, hsize]
  | false =>
    obtain ⟨hbehind, hwithin⟩ := h.offset_plt
    have hpos : 0 < p.plt.length := List.length_pos_iff.2 (List.isEmpty_eq_false_iff.1 hnone)
    have hpltEnd := h.fits.tableEnd_eq .plt (UInt32.ofNat (12 * p.plt.length))
    rw [h.fits.toNat_ofNat (by omega), hbehind] at hpltEnd
    rw [withoutPlt_explicit hnone, hpltEnd, h.fits.tableEnd_eq]
    cases hcovers : p.relaCoversPlt with
    | true =>
      have hsize : p.relaSize = UInt32.ofNat (12 * (p.rela.length + p.plt.length)) := by
        rw [relaSize, hcovers, if_pos rfl]
      have hsum : p.relaSize.toNat = 12 * (p.rela.length + p.plt.length) := by
        rw [hsize, h.fits.toNat_ofNat (by omega)]
      have hdifference : p.relaSize - UInt32.ofNat (12 * p.plt.length) =
          UInt32.ofNat (12 * p.rela.length) := by
        rw [hsize, Nat.mul_add, UInt32.ofNat_add, UInt32.add_sub_cancel]
      have hle : p.partAddress .rela ≤ p.partAddress .plt := by
        rw [UInt32.le_iff_toNat_le, partAddress, partAddress,
          h.fits.toNat_addressAt (p.offset_lt_size .rela).le,
          h.fits.toNat_addressAt (p.offset_lt_size .plt).le]
        omega
      rw [if_pos ⟨hle, by omega⟩, hdifference]
    | false =>
      have hsize : p.relaSize = UInt32.ofNat (12 * p.rela.length) := by
        rw [relaSize, hcovers, if_neg Bool.false_ne_true, Nat.add_zero]
      have hsum : p.relaSize.toNat = 12 * p.rela.length := by
        rw [hsize, h.fits.toNat_ofNat (by omega)]
      rw [if_neg fun hcut => by omega, hsize]

/-! ### All tables -/

/-- Tables that are read one after the other are read together. -/
theorem tablesOf_append {o : Object} {refs refs' : List RelocationRef}
    {tables tables' : List RelocationTable} (h : (o.tablesOf refs).result = .ok tables)
    (h' : (o.tablesOf refs').result = .ok tables') :
    (o.tablesOf (refs ++ refs')).result = .ok (tables ++ tables') := by
  induction refs generalizing tables with
  | nil =>
    cases h
    exact h'
  | cons r refs ih =>
    obtain ⟨t, ht, h⟩ := Report.result_bind_eq_ok_iff.1 h
    obtain ⟨others, hothers, h⟩ := Report.result_bind_eq_ok_iff.1 h
    cases h
    refine Report.result_bind_eq_ok_iff.2 ⟨t, ht, ?_⟩
    exact Report.result_bind_eq_ok_iff.2 ⟨others ++ tables', ih hothers, rfl⟩

/-- **The relocation tables have the planned entries**, each of them once. -/
theorem Readable.relocations_eq (h : p.Readable) : ∃ tables,
    (p.object path extent).relocationTables.result = .ok tables ∧
      tables.flatMap (·.entries) = p.rel ++ p.rela ++ p.plt := by
  obtain ⟨hrelForm, hrelaForm, hpltForm⟩ := h.wellFormed.forms
  obtain ⟨hrelBytes, hrelaBytes, hpltBytes⟩ := h.holds_relocations path
  obtain ⟨rel, hrel, hrelEntries⟩ := h.fits.relocationTables_eq hrelBytes hrelForm
  obtain ⟨rela, hrela, hrelaEntries⟩ := h.fits.relocationTables_eq hrelaBytes hrelaForm
  obtain ⟨plt, hplt, hpltEntries⟩ := h.fits.relocationTables_eq hpltBytes hpltForm
  have hrefs : p.dynamicSection.relocations = p.tableRef .rel .implicit p.rel ++
      p.tableRef .rela .explicit p.rela ++ p.tableRef .plt .explicit p.plt := by
    have hrelSize := hrelBytes.le_size
    have hrelaSize := hrelaBytes.le_size
    rw [RelocationTable.length_flatMap_bytes p.order hrelForm, size_file] at hrelSize
    rw [RelocationTable.length_flatMap_bytes p.order hrelaForm, size_file] at hrelaSize
    exact congrArg₂ (· ++ ·) (congrArg₂ (· ++ ·)
      (h.fits.trimmed_eq (by omega) (withoutPlt_implicit _))
      (h.fits.trimmed_eq (by omega) h.withoutPlt_rela)) rfl
  refine ⟨rel ++ rela ++ plt, ?_, ?_⟩
  · change ((p.object path extent).tablesOf p.dynamicSection.relocations).result = _
    rw [hrefs]
    exact tablesOf_append (tablesOf_append hrel hrela) hplt
  · rw [List.flatMap_append, List.flatMap_append, hrelEntries, hrelaEntries, hpltEntries]

/-- **The symbol and the type of a relocation are told apart again**, if they fit. -/
theorem relocationInfo_eq {e : RelocationEntry} {symbol : Nat} {type : UInt32}
    (hsymbol : symbol < 16777216) (htype : type.toNat < 256)
    (he : e.info = relocationInfo symbol type) : e.symbolIndex = symbol ∧ e.type = type := by
  have hinfo : e.info.toNat = 2 ^ 8 * symbol + type.toNat := by
    rw [he, relocationInfo, UInt32.toNat_or, toNat_ofNat (by omega), Nat.mul_comm,
      Nat.two_pow_add_eq_or_of_lt htype]
  constructor
  · rw [RelocationEntry.symbolIndex, hinfo]
    omega
  · rw [← UInt32.toNat_inj, RelocationEntry.type, UInt32.toNat_and]
    refine (Nat.and_two_pow_sub_one_eq_mod _ 8).trans ?_
    rw [hinfo]
    omega

end ElfLoader.ImagePlan
