import ElfLoader.Proofs.PlannedRelocations

/-!
# Tables of relocations

A table is bound once, and its entries are then read without checks. That is safe: whatever the
bytes are, all words of the entries that are counted lie within the table
(`ElfLoader.RelocationTable.word_of_bind`). Entries that are written one after the other are read
back in this order (`ElfLoader.RelocationTable.bind_recovers`), in both forms and in both byte
orders.
-/

namespace ElfLoader

/-- Where the words of an entry are, in bytes from its start. -/
def RelocationForm.fields : RelocationForm → List Nat
  | implicit => [0, 4]
  | explicit => [0, 4, 8]

/-- The words of an entry lie within it. -/
theorem RelocationForm.add_four_le_entrySize {form : RelocationForm} {field : Nat}
    (h : field ∈ form.fields) : field + 4 ≤ form.entrySize := by
  revert field
  cases form <;> decide

namespace RelocationTable

variable {path : String} {content : ByteArray} {offset size : Nat} {form : RelocationForm}
  {order : ByteOrder} {t : RelocationTable}

/-! ### Binding -/

/-- **A table is bound** if its bytes are there. -/
theorem bind_eq_ok_iff : (bind path content offset size form order).result = .ok t ↔
    offset + size ≤ content.size ∧
      t = ⟨content.extract offset (offset + size), form, order, size / form.entrySize⟩ := by
  unfold bind
  split
  · next hwithin => simp [hwithin, eq_comm]
  · next hwithin => simp [hwithin, Report.fail]

/-- **A table is not bound** if some of its bytes are missing. -/
theorem bind_eq_error_iff {e : LoadError} :
    (bind path content offset size form order).result = .error e ↔
      content.size < offset + size ∧ e = .corrupt path (.relocationsPastEnd offset size) := by
  unfold bind
  split
  · next hwithin => simp [hwithin]
  · next hwithin => simp [Nat.lt_of_not_le hwithin, Report.fail, eq_comm]

/-- What a table is once it is bound. -/
theorem fields_of_bind (h : (bind path content offset size form order).result = .ok t) :
    t.form = form ∧ t.order = order ∧ t.count = size / form.entrySize ∧
      t.bytes = content.extract offset (offset + size) ∧ t.bytes.size = size := by
  obtain ⟨hwithin, rfl⟩ := bind_eq_ok_iff.1 h
  refine ⟨rfl, rfl, rfl, rfl, ?_⟩
  rw [ByteArray.size_extract, Nat.min_eq_left hwithin, Nat.add_sub_cancel_left]

/-- What is left over behind the last entry gets a notice. -/
theorem notices_bind (h : (bind path content offset size form order).result = .ok t) :
    (bind path content offset size form order).notices =
      if size % form.entrySize = 0 then []
      else [.trailingBytes path (size % form.entrySize) offset] := by
  rw [bind, if_pos (bind_eq_ok_iff.1 h).1]

/-! ### Reading -/

/-- A word that lies within a table is one that a checked access to its bytes gives. -/
theorem word_of_le_size (path : String) {i field : Nat}
    (h : i * t.form.entrySize + field + 4 ≤ t.bytes.size) :
    (ObjectFile.mk path t.order t.bytes).word (i * t.form.entrySize + field) =
      .ok (t.word i field) := by
  obtain ⟨v, hv⟩ : ∃ v, (ObjectFile.mk path t.order t.bytes).word
      (i * t.form.entrySize + field) = .ok v := ⟨_, dif_pos h⟩
  rw [hv, t.word_of_file path hv]

/-- **The words of the entries that are counted lie within the table**, whatever its bytes are. -/
theorem word_of_bind (h : (bind path content offset size form order).result = .ok t) {i field : Nat}
    (hi : i < t.count) (hfield : field ∈ form.fields) :
    (ObjectFile.mk path order t.bytes).word (i * form.entrySize + field) =
      .ok (t.word i field) := by
  obtain ⟨rfl, rfl, hcount, -, hsize⟩ := fields_of_bind h
  rw [hcount] at hi
  have hentry : (i + 1) * t.form.entrySize ≤ size :=
    (Nat.mul_le_mul_right _ hi).trans (Nat.div_mul_le_self size _)
  have hword := RelocationForm.add_four_le_entrySize hfield
  rw [Nat.succ_mul] at hentry
  exact word_of_le_size path (by omega)

/-! ### Writing and reading -/

/-- **Relocations are read back** in their order, whatever stands before and behind them. Bytes
that are counted, but are too few for an entry, only get a notice. The symbol and the type of an
entry are told apart again if they fit. A table is bound unless its bytes are not there, and its
entries are read from these bytes alone. -/
theorem bind_recovers (path : String) (form : RelocationForm) (order : ByteOrder) :
    (∀ (entries : List RelocationEntry) (before trailing behind : List UInt8),
      (∀ e ∈ entries, e.addend.isSome = true ↔ form = .explicit) →
      trailing.length < form.entrySize →
      ∃ t, bind path
          ⟨(before ++ entries.flatMap (·.bytes order) ++ trailing ++ behind).toArray⟩ before.length
          (form.entrySize * entries.length + trailing.length) form order =
            ⟨.ok t, if trailing.length = 0 then []
              else [.trailingBytes path trailing.length before.length]⟩ ∧
        t.count = entries.length ∧ t.entries = entries) ∧
    (∀ (e : RelocationEntry) (symbol : Nat) (type : UInt32), symbol < 2 ^ 24 → type.toNat < 2 ^ 8 →
      e.info = ImagePlan.relocationInfo symbol type → e.symbolIndex = symbol ∧ e.type = type) ∧
    ∀ (content : ByteArray) (offset size : Nat), content.size < 2 ^ 64 →
      (∀ e, (bind path content offset size form order).result = .error e ↔
        (2 ^ 64 ≤ offset + size ∨ content.size < offset + size) ∧
          e = .corrupt path (.relocationsPastEnd offset size)) ∧
      ∀ t, (bind path content offset size form order).result = .ok t →
        t.bytes = content.extract offset (offset + size) ∧ t.bytes.size = size ∧
        ∀ i, i < t.count → ∀ field ∈ form.fields,
          (ObjectFile.mk path order t.bytes).word (i * form.entrySize + field) =
            .ok (t.word i field) := by
  refine ⟨?_, ?_, ?_⟩
  · intro entries before trailing behind hform htrailing
    have hholds : (ObjectFile.mk path order
        ⟨(before ++ entries.flatMap (·.bytes order) ++ trailing ++ behind).toArray⟩).Holds
        before.length (entries.flatMap (·.bytes order) ++ trailing) :=
      ⟨before, behind, rfl, by simp⟩
    obtain ⟨t, ht, hcount, hentries⟩ := bind_of_holds path hholds hform htrailing rfl
    have hnotices := notices_bind ht
    rw [Nat.mul_add_mod, Nat.mod_eq_of_lt htrailing] at hnotices
    refine ⟨t, ?_, hcount, hentries⟩
    rw [← ht, ← hnotices]
  · exact fun e symbol type hsymbol htype => ImagePlan.relocationInfo_eq hsymbol htype
  · intro content offset size hsize
    refine ⟨fun e => ?_, fun t ht => ?_⟩
    · rw [bind_eq_error_iff]
      exact and_congr_left fun _ => by omega
    · obtain ⟨-, -, -, hbytes, hlength⟩ := fields_of_bind ht
      exact ⟨hbytes, hlength, fun i hi field hfield => word_of_bind ht hi hfield⟩

/-- Three explicit relocations in the big byte order, between other bytes. -/
def explicitBytes : ByteArray := ⟨#[1, 2,
  0, 0, 0, 16, 0, 0, 3, 21, 0xff, 0xff, 0xff, 0xfc,
  0, 0, 0, 8, 0, 0, 0, 22, 0, 0, 0x10, 0,
  0x12, 0x34, 0x56, 0x78, 0xab, 0xcd, 0xef, 0xff, 0, 0, 0, 5,
  9, 7]⟩

/-- **The three relocations** are read back in their order, and the addend of the last one lies
where the table has it. -/
theorem bind_recovers_explicit : ∃ t,
    bind "a" explicitBytes 2 37 .explicit .big = ⟨.ok t, [.trailingBytes "a" 1 2]⟩ ∧
    t.entries = [⟨16, ImagePlan.relocationInfo 3 21, some 0xfffffffc⟩,
      ⟨8, ImagePlan.relocationInfo 0 22, some 0x1000⟩,
      ⟨0x12345678, ImagePlan.relocationInfo 0xabcdef 255, some 5⟩] ∧
    (ObjectFile.mk "a" .big t.bytes).word 32 = .ok (t.word 2 8) := by
  obtain ⟨hrecovers, -, hbind⟩ := bind_recovers "a" .explicit .big
  obtain ⟨t, ht, hcount, hentries⟩ :=
    hrecovers [⟨16, ImagePlan.relocationInfo 3 21, some 0xfffffffc⟩,
      ⟨8, ImagePlan.relocationInfo 0 22, some 0x1000⟩,
      ⟨0x12345678, ImagePlan.relocationInfo 0xabcdef 255, some 5⟩] [1, 2] [9] [7]
      (by decide) (by decide)
  obtain ⟨-, hreads⟩ := hbind explicitBytes 2 37 (by decide)
  obtain ⟨-, -, hwords⟩ := hreads t (congrArg Report.result ht)
  exact ⟨t, ht, hentries, hwords 2 (by rw [hcount]; decide) 8 (by decide)⟩

end RelocationTable

end ElfLoader
