import ElfLoader.Proofs.RelocationTables

/-!
# Relocation tables that run on

A table of relocations may run on over those of the procedure linkage. It is cut off where these
begin, so that the tables that are applied have all addresses of the declared tables
(`ElfLoader.Dynamic.exists_has_relocations_iff`), but none of them twice
(`ElfLoader.Dynamic.Separated.pairwise_relocations`). The entries then are those of the table that
runs on, each of them once (`ElfLoader.Object.reads_relocations_iff`).
-/

namespace ElfLoader

/-! ### Tables as ranges of addresses -/

namespace TableRef

variable {t u : TableRef} {a : Nat}

/-- The addresses of a table. -/
def Has (t : TableRef) (a : Nat) : Prop := t.address.toNat ≤ a ∧ a < Dynamic.tableEnd t

/-- Two tables have no address in common. -/
def Apart (t u : TableRef) : Prop := ∀ a, t.Has a → ¬ u.Has a

/-- **A table runs on over another one**: it begins no later, and both end together. -/
structure RunsOver (t u : TableRef) : Prop where
  /-- It begins no later. -/
  address_le : t.address ≤ u.address
  /-- Both end together. -/
  tableEnd_eq : Dynamic.tableEnd t = Dynamic.tableEnd u

/-- A table that is shorter by the size of another one. -/
def cutBy (t u : TableRef) : TableRef := { t with size := t.size - u.size }

namespace RunsOver

variable (h : t.RunsOver u)

include h

/-- Nothing is cut off that is not there. -/
theorem size_le : u.size ≤ t.size := by
  have hle := UInt32.le_iff_toNat_le.1 h.address_le
  have heq := h.tableEnd_eq
  unfold Dynamic.tableEnd at heq
  rw [UInt32.le_iff_toNat_le]
  omega

theorem toNat_size_cutBy : (t.cutBy u).size.toNat + u.size.toNat = t.size.toNat := by
  have hle := UInt32.le_iff_toNat_le.1 h.size_le
  change (t.size - u.size).toNat + u.size.toNat = _
  rw [UInt32.toNat_sub_of_le _ _ h.size_le]
  omega

/-- What is left ends where the other table begins. -/
theorem tableEnd_cutBy : Dynamic.tableEnd (t.cutBy u) = u.address.toNat := by
  have hsize := h.toNat_size_cutBy
  have heq := h.tableEnd_eq
  unfold Dynamic.tableEnd at heq ⊢
  change t.address.toNat + _ = _
  omega

/-- As far apart as the tables begin, so much is left. -/
theorem distance_eq : u.address.toNat - t.address.toNat = (t.cutBy u).size.toNat := by
  rw [← h.tableEnd_cutBy]
  exact Nat.add_sub_cancel_left _ _

theorem eq_of_size_eq_zero (hzero : (t.cutBy u).size = 0) : u = t := by
  have hsize := h.toNat_size_cutBy
  have haddress := h.tableEnd_cutBy
  unfold Dynamic.tableEnd at haddress
  rw [hzero] at hsize haddress
  obtain ⟨address, size⟩ := u
  obtain rfl : address = t.address := UInt32.toNat_inj.1 haddress.symm
  obtain rfl : size = t.size := UInt32.toNat_inj.1 ((Nat.zero_add _).symm.trans hsize)
  rfl

/-- **The addresses are divided** between what is left and the other table. -/
theorem has_iff : t.Has a ↔ (t.cutBy u).Has a ∨ u.Has a := by
  have hle := UInt32.le_iff_toNat_le.1 h.address_le
  have hbound : u.address.toNat ≤ Dynamic.tableEnd u := Nat.le_add_right _ _
  unfold Has
  rw [h.tableEnd_cutBy, h.tableEnd_eq]
  change _ ↔ t.address.toNat ≤ a ∧ _ ∨ _
  omega

theorem apart_cutBy : (t.cutBy u).Apart u := by
  rintro a ⟨-, hlt⟩ ⟨hle, -⟩
  rw [h.tableEnd_cutBy] at hlt
  omega

end RunsOver

/-- Tables that are empty have no addresses. -/
theorem not_has_of_size_eq_zero (h : t.size = 0) : ¬ t.Has a := by
  rintro ⟨hle, hlt⟩
  rw [Dynamic.tableEnd, h] at hlt
  exact absurd hlt (by simpa using hle)

end TableRef

/-! ### Declared tables and applied tables -/

namespace Dynamic

variable {d : Dynamic} {form : RelocationForm} {t : TableRef} {r : RelocationRef} {a : Nat}

/-- The table of a form. -/
def tableOf (d : Dynamic) : RelocationForm → Option TableRef
  | .implicit => d.rel
  | .explicit => d.rela

/-- **The declared tables**: the implicit one, the explicit one and that of the procedure
linkage. -/
def declared (d : Dynamic) : List RelocationRef :=
  d.rel.toList.map (⟨·, .implicit⟩) ++ d.rela.toList.map (⟨·, .explicit⟩) ++ d.plt.toList

/-- **The tables do not overlap**, but the table of a form may run on over the procedure linkage
of this form. -/
structure Separated (d : Dynamic) : Prop where
  /-- The tables of both forms have nothing in common. -/
  forms : ∀ t u, d.tableOf .implicit = some t → d.tableOf .explicit = some u → t.Apart u
  /-- The table of the other form has nothing in common with the procedure linkage. -/
  other : ∀ form t p, d.tableOf form = some t → d.plt = some p → p.form ≠ form → t.Apart p.table
  /-- The table of the same form has nothing in common with it, or runs on over it. -/
  same : ∀ t p, d.tableOf p.form = some t → d.plt = some p →
    t.Apart p.table ∨ t.RunsOver p.table

/-- **What becomes of a table**: it stays as it is, unless it runs on over the procedure linkage of
its form. -/
theorem withoutPlt_cases (d : Dynamic) (form : RelocationForm) (t : TableRef) :
    (∃ p, d.plt = some p ∧ p.form = form ∧ t.RunsOver p.table ∧
      d.withoutPlt form t = t.cutBy p.table) ∨
    ((∀ p, d.plt = some p → p.form = form → ¬ t.RunsOver p.table) ∧ d.withoutPlt form t = t) := by
  unfold withoutPlt
  split
  · next hnone => exact .inr ⟨by simp [hnone], rfl⟩
  · next p hp =>
    split
    · next hcut => exact .inl ⟨p, hp, hcut.1, ⟨hcut.2.1, hcut.2.2⟩, rfl⟩
    · next hkeep =>
      refine .inr ⟨fun q hq hform hruns => hkeep ?_, rfl⟩
      obtain rfl := Option.some.inj (hp.symm.trans hq)
      exact ⟨hform, hruns.address_le, hruns.tableEnd_eq⟩

theorem address_withoutPlt (d : Dynamic) (form : RelocationForm) (t : TableRef) :
    (d.withoutPlt form t).address = t.address := by
  obtain ⟨p, -, -, -, hcut⟩ | ⟨-, hkeep⟩ := d.withoutPlt_cases form t
  · rw [hcut]
    rfl
  · rw [hkeep]

/-- No address is lost that is not one of the procedure linkage. -/
theorem has_withoutPlt_or_iff : (d.withoutPlt form t).Has a ∨
      (∃ p, d.plt = some p ∧ p.form = form ∧ p.table.Has a) ↔
    t.Has a ∨ ∃ p, d.plt = some p ∧ p.form = form ∧ p.table.Has a := by
  obtain ⟨p, hp, hform, hruns, hcut⟩ | ⟨-, hkeep⟩ := d.withoutPlt_cases form t
  · rw [hcut, hruns.has_iff, or_assoc]
    refine or_congr_right (or_iff_right_of_imp fun h => ⟨p, hp, hform, h⟩).symm
  · rw [hkeep]

theorem has_of_has_withoutPlt (h : (d.withoutPlt form t).Has a) : t.Has a := by
  obtain ⟨p, -, -, hruns, hcut⟩ | ⟨-, hkeep⟩ := d.withoutPlt_cases form t
  · exact hruns.has_iff.2 (.inl (hcut ▸ h))
  · exact hkeep ▸ h

/-- The tables of a form that are applied: what is left of it, unless that is empty. -/
theorem mem_trimmed_iff {table? : Option TableRef} : r ∈ d.trimmed form table? ↔
    ∃ t, table? = some t ∧ (d.withoutPlt form t).size ≠ 0 ∧ r = ⟨d.withoutPlt form t, form⟩ := by
  cases table? with
  | none => simp [trimmed]
  | some t =>
    by_cases hzero : (d.withoutPlt form t).size = 0 <;> simp [trimmed, hzero]

/-- **The tables that are applied** are what is left of those of each form, and the procedure
linkage. -/
theorem mem_relocations_iff : r ∈ d.relocations ↔
    (∃ t, d.tableOf r.form = some t ∧ (d.withoutPlt r.form t).size ≠ 0 ∧
      r.table = d.withoutPlt r.form t) ∨ d.plt = some r := by
  obtain ⟨table, form⟩ := r
  rw [relocations, List.mem_append, List.mem_append, mem_trimmed_iff, mem_trimmed_iff,
    Option.mem_toList]
  cases form <;> simp [tableOf]

theorem mem_declared_iff : r ∈ d.declared ↔ d.tableOf r.form = some r.table ∨ d.plt = some r := by
  obtain ⟨table, form⟩ := r
  rw [declared, List.mem_append, List.mem_append, Option.mem_toList]
  cases form <;> simp [tableOf]

/-- **The tables that are applied have the addresses of the declared tables**, form by form. -/
theorem exists_has_relocations_iff (d : Dynamic) (form : RelocationForm) (a : Nat) :
    (∃ r ∈ d.relocations, r.form = form ∧ r.table.Has a) ↔
      ∃ r ∈ d.declared, r.form = form ∧ r.table.Has a := by
  have happlied : (∃ r ∈ d.relocations, r.form = form ∧ r.table.Has a) ↔
      (∃ t, d.tableOf form = some t ∧ (d.withoutPlt form t).Has a) ∨
        ∃ p, d.plt = some p ∧ p.form = form ∧ p.table.Has a := by
    simp only [mem_relocations_iff, or_and_right, exists_or]
    refine or_congr_left ⟨?_, ?_⟩
    · rintro ⟨r, ⟨t, ht, -, hr⟩, rfl, ha⟩
      exact ⟨t, ht, hr ▸ ha⟩
    · rintro ⟨t, ht, ha⟩
      exact ⟨⟨d.withoutPlt form t, form⟩,
        ⟨t, ht, fun hzero => TableRef.not_has_of_size_eq_zero hzero ha, rfl⟩, rfl, ha⟩
  have hdeclared : (∃ r ∈ d.declared, r.form = form ∧ r.table.Has a) ↔
      (∃ t, d.tableOf form = some t ∧ t.Has a) ∨
        ∃ p, d.plt = some p ∧ p.form = form ∧ p.table.Has a := by
    simp only [mem_declared_iff, or_and_right, exists_or]
    refine or_congr_left ⟨?_, ?_⟩
    · rintro ⟨r, hr, rfl, ha⟩
      exact ⟨r.table, hr, ha⟩
    · rintro ⟨t, ht, ha⟩
      exact ⟨⟨t, form⟩, ht, rfl, ha⟩
  rw [happlied, hdeclared]
  cases d.tableOf form with
  | none => simp
  | some t => simpa using has_withoutPlt_or_iff

/-- **No table moves.** Those that are applied begin where they are declared to begin, have their
forms, and come in the same order. -/
theorem map_relocations_sublist (d : Dynamic) :
    (d.relocations.map fun r => (r.table.address, r.form)).Sublist
      (d.declared.map fun r => (r.table.address, r.form)) := by
  have hform : ∀ form (table? : Option TableRef),
      ((d.trimmed form table?).map fun r => (r.table.address, r.form)).Sublist
        ((table?.toList.map fun t => RelocationRef.mk t form).map
          fun r => (r.table.address, r.form)) := by
    intro form table?
    cases table? with
    | none => exact .slnil
    | some t =>
      by_cases hzero : (d.withoutPlt form t).size = 0
      · simp [trimmed, hzero]
      · simp [trimmed, hzero, address_withoutPlt]
  rw [relocations, declared, List.map_append, List.map_append, List.map_append, List.map_append]
  exact ((hform .implicit d.rel).append (hform .explicit d.rela)).append (.refl _)

/-- Tables that do not overlap are not made to overlap. -/
theorem Separated.apart_plt (h : d.Separated) {p : RelocationRef} (ht : d.tableOf form = some t)
    (hp : d.plt = some p) : (d.withoutPlt form t).Apart p.table := by
  obtain ⟨q, hq, -, hruns, hcut⟩ | ⟨hkeep, heq⟩ := d.withoutPlt_cases form t
  · obtain rfl := Option.some.inj (hp.symm.trans hq)
    exact hcut ▸ hruns.apart_cutBy
  · rw [heq]
    by_cases hform : p.form = form
    · subst hform
      exact (h.same t p ht hp).resolve_right (hkeep p hp rfl)
    · exact h.other form t p ht hp hform

/-- **No address is in two of the tables that are applied.** -/
theorem Separated.pairwise_relocations (h : d.Separated) :
    d.relocations.Pairwise fun r r' => r.table.Apart r'.table := by
  have hsingle : ∀ form table?,
      (d.trimmed form table?).Pairwise fun r r' => r.table.Apart r'.table := by
    intro form table?
    cases table? with
    | none => exact .nil
    | some t =>
      unfold trimmed
      dsimp only
      split
      · exact .nil
      · exact List.pairwise_singleton _ _
  rw [relocations, List.pairwise_append, List.pairwise_append]
  refine ⟨⟨hsingle _ _, hsingle _ _, ?_⟩, ?_, ?_⟩
  · intro r hr r' hr' a ha ha'
    obtain ⟨t, ht, -, rfl⟩ := mem_trimmed_iff.1 hr
    obtain ⟨u, hu, -, rfl⟩ := mem_trimmed_iff.1 hr'
    exact h.forms t u ht hu a (has_of_has_withoutPlt ha) (has_of_has_withoutPlt ha')
  · cases d.plt with
    | none => exact .nil
    | some p => exact List.pairwise_singleton _ _
  · intro r hr p hp
    rw [Option.mem_toList] at hp
    rcases List.mem_append.1 hr with hr | hr
    · obtain ⟨t, ht, -, rfl⟩ := mem_trimmed_iff.1 hr
      exact h.apart_plt (show d.tableOf .implicit = some t from ht) hp
    · obtain ⟨t, ht, -, rfl⟩ := mem_trimmed_iff.1 hr
      exact h.apart_plt (show d.tableOf .explicit = some t from ht) hp

end Dynamic

/-! ### Entries of a table that is cut -/

namespace RelocationTable

variable {path : String} {content : ByteArray} {offset front back : Nat} {form : RelocationForm}
  {order : ByteOrder} {whole first second t u : RelocationTable}

theorem byteAt_of_bind {size : Nat}
    (h : (bind path content offset size form order).result = .ok t) {i : Nat} (hi : i < size) :
    t.byteAt i = content[offset + i]?.getD 0 := by
  obtain ⟨-, -, -, hbytes, hsize⟩ := fields_of_bind h
  obtain ⟨hwithin, -⟩ := bind_eq_ok_iff.1 h
  rw [byteAt, getElem?_pos t.bytes i (hsize.symm ▸ hi),
    getElem?_pos content (offset + i) (by omega)]
  simp only [hbytes, ByteArray.getElem_extract]

/-- An entry is made of its bytes. -/
theorem entry_congr {i j : Nat} (hform : t.form = u.form) (horder : t.order = u.order)
    (hbytes : ∀ k, k < u.form.entrySize →
      t.byteAt (i * u.form.entrySize + k) = u.byteAt (j * u.form.entrySize + k)) :
    t.entry i = u.entry j := by
  have hword : ∀ field ∈ u.form.fields, t.word i field = u.word j field := by
    intro field hfield
    have hwithin := RelocationForm.add_four_le_entrySize hfield
    rw [word, word, hform, horder]
    simp only [Nat.add_assoc]
    rw [hbytes field (by omega), hbytes (field + 1) (by omega), hbytes (field + 2) (by omega),
      hbytes (field + 3) (by omega)]
  unfold entry addend
  rw [hform]
  cases hu : u.form <;> rw [hu] at hword
  · rw [hword 0 (by decide), hword 4 (by decide)]
  · rw [hword 0 (by decide), hword 4 (by decide), hword 8 (by decide)]

/-- **A table that is cut between two entries** has the entries of both parts. -/
theorem entries_append
    (hwhole : (bind path content offset (front + back) form order).result = .ok whole)
    (hfirst : (bind path content offset front form order).result = .ok first)
    (hsecond : (bind path content (offset + front) back form order).result = .ok second)
    (hdvd : form.entrySize ∣ front) : first.entries ++ second.entries = whole.entries := by
  obtain ⟨hform, horder, hcount, -⟩ := fields_of_bind hwhole
  obtain ⟨hform₁, horder₁, hcount₁, -⟩ := fields_of_bind hfirst
  obtain ⟨hform₂, horder₂, hcount₂, -⟩ := fields_of_bind hsecond
  have hfront : first.count * form.entrySize = front := hcount₁ ▸ Nat.div_mul_cancel hdvd
  have hsum : whole.count = first.count + second.count := by
    rw [hcount, hcount₂, ← hfront, Nat.mul_comm, Nat.mul_add_div (by cases form <;> decide)]
  -- an entry lies within its table
  have hwithin : ∀ {count i k : Nat}, i < count → k < form.entrySize →
      i * form.entrySize + k < count * form.entrySize := by
    intro count i k hi hk
    have hnext : (i + 1) * form.entrySize ≤ count * form.entrySize := Nat.mul_le_mul_right _ hi
    rw [Nat.succ_mul] at hnext
    omega
  rw [entries, entries, entries, hsum, List.range_add, List.map_append, List.map_map]
  refine congrArg₂ (· ++ ·) (List.map_congr_left fun i hi => ?_)
    (List.map_congr_left fun i hi => ?_)
  · refine entry_congr (hform₁.trans hform.symm) (horder₁.trans horder.symm) fun k hk => ?_
    rw [hform] at hk ⊢
    have hlt := hwithin (List.mem_range.1 hi) hk
    rw [byteAt_of_bind hfirst (hfront ▸ hlt), byteAt_of_bind hwhole (by omega)]
  · change second.entry i = whole.entry (first.count + i)
    refine entry_congr (hform₂.trans hform.symm) (horder₂.trans horder.symm) fun k hk => ?_
    rw [hform] at hk ⊢
    have hlt := hwithin (List.mem_range.1 hi) hk
    have hback : second.count * form.entrySize ≤ back := hcount₂ ▸ Nat.div_mul_le_self _ _
    have hposition : offset + front + (i * form.entrySize + k) =
        offset + ((first.count + i) * form.entrySize + k) := by
      rw [Nat.add_mul, hfront]
      omega
    rw [byteAt_of_bind hsecond (by omega), hposition, byteAt_of_bind hwhole (by omega)]

/-- **A table is bound if both parts are**, and has the same entries. -/
theorem bind_add_iff (path : String) (content : ByteArray) (offset : Nat) {front back : Nat}
    {form : RelocationForm} (order : ByteOrder) (hdvd : form.entrySize ∣ front)
    (entries : List RelocationEntry) :
    (∃ whole, (bind path content offset (front + back) form order).result = .ok whole ∧
      whole.entries = entries) ↔
    ∃ first second, (bind path content offset front form order).result = .ok first ∧
      (bind path content (offset + front) back form order).result = .ok second ∧
      first.entries ++ second.entries = entries := by
  constructor
  · rintro ⟨whole, hwhole, rfl⟩
    obtain ⟨hwithin, -⟩ := bind_eq_ok_iff.1 hwhole
    have hfirst : (bind path content offset front form order).result = .ok _ :=
      bind_eq_ok_iff.2 ⟨by omega, rfl⟩
    have hsecond : (bind path content (offset + front) back form order).result = .ok _ :=
      bind_eq_ok_iff.2 ⟨by omega, rfl⟩
    exact ⟨_, _, hfirst, hsecond, entries_append hwhole hfirst hsecond hdvd⟩
  · rintro ⟨first, second, hfirst, hsecond, rfl⟩
    obtain ⟨hwithin, -⟩ := bind_eq_ok_iff.1 hsecond
    have hwhole : (bind path content offset (front + back) form order).result = .ok _ :=
      bind_eq_ok_iff.2 ⟨by omega, rfl⟩
    exact ⟨_, hwhole, (entries_append hwhole hfirst hsecond hdvd).symm⟩

end RelocationTable

namespace Object

variable {o : Object} {r : RelocationRef} {refs : List RelocationRef}
  {entries : List RelocationEntry} {offset : Nat}

/-- **References lead to tables with these entries**, all of them one after the other. -/
def Reads (o : Object) (refs : List RelocationRef) (entries : List RelocationEntry) : Prop :=
  ∃ tables, (o.tablesOf refs).result = .ok tables ∧ tables.flatMap (·.entries) = entries

theorem reads_nil_iff : o.Reads [] entries ↔ entries = [] := by
  simp [Reads, tablesOf, eq_comm]

theorem reads_cons_iff : o.Reads (r :: refs) entries ↔ ∃ table rest,
    (o.relocationTable r).result = .ok table ∧ o.Reads refs rest ∧
      table.entries ++ rest = entries := by
  constructor
  · rintro ⟨tables, htables, rfl⟩
    obtain ⟨table, htable, hrest⟩ := Report.result_bind_eq_ok_iff.1 htables
    obtain ⟨others, hothers, hlast⟩ := Report.result_bind_eq_ok_iff.1 hrest
    obtain rfl : table :: others = tables := Except.ok.inj hlast
    exact ⟨table, _, htable, ⟨others, hothers, rfl⟩, rfl⟩
  · rintro ⟨table, _, htable, ⟨others, hothers, rfl⟩, rfl⟩
    exact ⟨table :: others, Report.result_bind_eq_ok_iff.2 ⟨table, htable,
      Report.result_bind_eq_ok_iff.2 ⟨others, hothers, rfl⟩⟩, rfl⟩

theorem result_relocationTable (hoffset : o.fileOffset r.table.address = .ok offset) :
    (o.relocationTable r).result = (RelocationTable.bind o.path o.file.bytes offset
      r.table.size.toNat r.form o.file.order).result := by
  rw [relocationTable, hoffset]
  rfl

theorem reads_singleton_iff : o.Reads [r] entries ↔ ∃ table,
    (o.relocationTable r).result = .ok table ∧ table.entries = entries := by
  simp [reads_cons_iff, reads_nil_iff]

theorem reads_pair_iff {r' : RelocationRef} : o.Reads [r, r'] entries ↔ ∃ first second,
    (o.relocationTable r).result = .ok first ∧ (o.relocationTable r').result = .ok second ∧
      first.entries ++ second.entries = entries := by
  simp [reads_cons_iff, reads_nil_iff]

end Object

namespace Dynamic

variable {d : Dynamic} {p : RelocationRef} {t : TableRef} {o : Object} {offset : Nat}

theorem filter_trimmed (d : Dynamic) (form form' : RelocationForm) (table? : Option TableRef) :
    ((d.trimmed form table?).filter fun r => r.form == form') =
      if form = form' then d.trimmed form table? else [] := by
  split
  · next hform =>
    refine List.filter_eq_self.2 fun r hr => ?_
    obtain ⟨t, -, -, rfl⟩ := mem_trimmed_iff.1 hr
    simpa using hform
  · next hform =>
    refine List.filter_eq_nil_iff.2 fun r hr => ?_
    obtain ⟨t, -, -, rfl⟩ := mem_trimmed_iff.1 hr
    simpa using hform

/-- The tables of the form of the procedure linkage that are applied: what is left of the table of
this form comes first. -/
theorem filter_relocations (hp : d.plt = some p) :
    (d.relocations.filter fun r => r.form == p.form) =
      d.trimmed p.form (d.tableOf p.form) ++ [p] := by
  rw [relocations, List.filter_append, List.filter_append, filter_trimmed, filter_trimmed, hp]
  cases hform : p.form <;> simp [tableOf, hform]

theorem withoutPlt_of_runsOver (hp : d.plt = some p) (hruns : t.RunsOver p.table) :
    d.withoutPlt p.form t = t.cutBy p.table := by
  obtain ⟨q, hq, -, -, hcut⟩ | ⟨hkeep, -⟩ := d.withoutPlt_cases p.form t
  · obtain rfl := Option.some.inj (hp.symm.trans hq)
    exact hcut
  · exact absurd hruns (hkeep p hp rfl)

/-- **The entries that are applied are those of the table that runs on**, each of them once and in
their order, if what is left of it has whole entries only. -/
theorem reads_relocations_iff (hp : d.plt = some p) (ht : d.tableOf p.form = some t)
    (hruns : t.RunsOver p.table) (hdvd : p.form.entrySize ∣ (d.withoutPlt p.form t).size.toNat)
    (hoffset : o.fileOffset t.address = .ok offset)
    (hbehind : o.fileOffset p.table.address =
      .ok (offset + (p.table.address.toNat - t.address.toNat))) (entries : List RelocationEntry) :
    o.Reads (d.relocations.filter fun r => r.form == p.form) entries ↔
      o.Reads [⟨t, p.form⟩] entries := by
  rw [filter_relocations hp, ht]
  by_cases hzero : (d.withoutPlt p.form t).size = 0
  · have htrimmed : d.trimmed p.form (some t) = [] := by simp [trimmed, hzero]
    rw [withoutPlt_of_runsOver hp hruns] at hzero
    rw [htrimmed, List.nil_append, ← hruns.eq_of_size_eq_zero hzero]
  · have htrimmed : d.trimmed p.form (some t) = [⟨d.withoutPlt p.form t, p.form⟩] := by
      simp [trimmed, hzero]
    have hfront : p.table.address.toNat - t.address.toNat = (t.cutBy p.table).size.toNat :=
      hruns.distance_eq
    have hstart : o.fileOffset (d.withoutPlt p.form t).address = .ok offset := by
      rw [address_withoutPlt, hoffset]
    rw [htrimmed, List.singleton_append, Object.reads_pair_iff, Object.reads_singleton_iff,
      Object.result_relocationTable hstart,
      Object.result_relocationTable (r := ⟨t, p.form⟩) hoffset,
      Object.result_relocationTable hbehind, hfront]
    rw [withoutPlt_of_runsOver hp hruns] at hdvd ⊢
    rw [← hruns.toNat_size_cutBy]
    exact (RelocationTable.bind_add_iff _ _ _ _ hdvd entries).symm

/-- **Each entry is applied once.** The tables that are applied have no address in common. Form by
form they have all addresses of the declared tables and no others, and they come in the order in
which these are declared. What is cut off a table is there to be cut off. The entries of what is
left, and then those of the procedure linkage, are the entries of the table that runs on, wherever
its bytes stand. -/
theorem relocations_of_separated (d : Dynamic) (h : d.Separated) :
    (d.relocations.Pairwise fun r r' => r.table.Apart r'.table) ∧
    (∀ form a, (∃ r ∈ d.relocations, r.form = form ∧ r.table.Has a) ↔
      ∃ r ∈ d.declared, r.form = form ∧ r.table.Has a) ∧
    ((d.relocations.map fun r => (r.table.address, r.form)).Sublist
      (d.declared.map fun r => (r.table.address, r.form))) ∧
    (∀ form t, d.withoutPlt form t = t ∨ ∃ p, d.plt = some p ∧ p.form = form ∧
      t.RunsOver p.table ∧ p.table.size ≤ t.size ∧
      (d.withoutPlt form t).size.toNat + p.table.size.toNat = t.size.toNat) ∧
    ∀ p t, d.plt = some p → d.tableOf p.form = some t → t.RunsOver p.table →
      p.form.entrySize ∣ (d.withoutPlt p.form t).size.toNat →
      (∀ path content offset order entries,
        (∃ whole, (RelocationTable.bind path content offset t.size.toNat p.form order).result =
          .ok whole ∧ whole.entries = entries) ↔
        ∃ first second, (RelocationTable.bind path content offset
            (d.withoutPlt p.form t).size.toNat p.form order).result = .ok first ∧
          (RelocationTable.bind path content
            (offset + (p.table.address.toNat - t.address.toNat)) p.table.size.toNat p.form
            order).result = .ok second ∧
          first.entries ++ second.entries = entries) ∧
      ∀ (o : Object) offset entries, o.fileOffset t.address = .ok offset →
        o.fileOffset p.table.address =
          .ok (offset + (p.table.address.toNat - t.address.toNat)) →
        (o.Reads (d.relocations.filter fun r => r.form == p.form) entries ↔
          o.Reads [⟨t, p.form⟩] entries) := by
  refine ⟨h.pairwise_relocations, d.exists_has_relocations_iff, d.map_relocations_sublist, ?_, ?_⟩
  · intro form t
    obtain ⟨p, hp, hform, hruns, hcut⟩ | ⟨-, hkeep⟩ := d.withoutPlt_cases form t
    · exact .inr ⟨p, hp, hform, hruns, hruns.size_le, hcut ▸ hruns.toNat_size_cutBy⟩
    · exact .inl hkeep
  · intro p t hp ht hruns hdvd
    refine ⟨fun path content offset order entries => ?_, fun o offset entries hoffset hbehind =>
      reads_relocations_iff hp ht hruns hdvd hoffset hbehind entries⟩
    rw [withoutPlt_of_runsOver hp hruns] at hdvd ⊢
    rw [hruns.distance_eq, ← hruns.toNat_size_cutBy]
    exact RelocationTable.bind_add_iff path content offset order hdvd entries

/-- A section with an implicit table of two entries, and an explicit one of three that runs on over
the two of the procedure linkage. -/
def runningOn : Dynamic :=
  { (default : Dynamic) with
    rel := some ⟨0x200, 16⟩
    rela := some ⟨0x100, 36⟩
    plt := some ⟨⟨0x10c, 24⟩, .explicit⟩ }

theorem separated_runningOn : runningOn.Separated where
  forms := by
    rintro _ _ ⟨⟩ ⟨⟩ a ⟨hle, -⟩ ⟨-, hlt⟩
    exact absurd (hle.trans_lt hlt) (by decide)
  other := by
    rintro form t _ ht ⟨⟩ hform a ⟨hle, -⟩ ⟨-, hlt⟩
    cases form with
    | implicit =>
      obtain rfl := Option.some.inj ht
      exact absurd (hle.trans_lt hlt) (by decide)
    | explicit => exact hform rfl
  same := by
    rintro t _ ht ⟨⟩
    obtain rfl := Option.some.inj ht
    exact .inr ⟨by decide, by decide⟩

/-- **One entry is left** of the explicit table, and no address is in two of the tables. -/
theorem relocations_of_separated_runningOn :
    runningOn.relocations = [⟨⟨0x200, 16⟩, .implicit⟩, ⟨⟨0x100, 12⟩, .explicit⟩,
      ⟨⟨0x10c, 24⟩, .explicit⟩] ∧
    (runningOn.relocations.Pairwise fun r r' => r.table.Apart r'.table) ∧
    ∀ path content offset order entries,
      (∃ whole, (RelocationTable.bind path content offset 36 .explicit order).result =
        .ok whole ∧ whole.entries = entries) ↔
      ∃ first second, (RelocationTable.bind path content offset 12 .explicit order).result =
          .ok first ∧
        (RelocationTable.bind path content (offset + 12) 24 .explicit order).result =
          .ok second ∧
        first.entries ++ second.entries = entries := by
  obtain ⟨hapart, -, -, -, hentries⟩ := runningOn.relocations_of_separated separated_runningOn
  obtain ⟨hbind, -⟩ := hentries ⟨⟨0x10c, 24⟩, .explicit⟩ ⟨0x100, 36⟩ rfl rfl
    ⟨by decide, by decide⟩ (by decide)
  exact ⟨by decide, hapart, hbind⟩

end Dynamic

end ElfLoader
