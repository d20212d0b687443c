import ElfLoader.Image.Records
import ElfLoader.Proofs.Extent
import ElfLoader.Proofs.Texts

/-!
# Records that are read back

What is said of a file by the bytes that it holds at an offset (`ElfLoader.ObjectFile.Holds`)
splits where the bytes split. So each kind of record is read back piece by piece, in either byte
order: header, segments, sections, symbols, relocations and the chains of version records.
-/

namespace ElfLoader

/-! ### Parts of a list -/

/-- Records of one size take as much each. -/
theorem length_flatMap_const {α β : Type} {record : β → List α} {records : List β} {size : Nat}
    (h : ∀ r ∈ records, (record r).length = size) :
    (records.flatMap record).length = size * records.length := by
  induction records with
  | nil => rfl
  | cons r records ih =>
    rw [List.flatMap_cons, List.length_append, h r List.mem_cons_self,
      ih fun s hs => h s (List.mem_cons_of_mem r hs), List.length_cons, Nat.mul_succ, Nat.add_comm]

/-- **A list stands at a position** of another one. -/
def StandsAt {α : Type} (part : List α) (position : Nat) (whole : List α) : Prop :=
  ∃ before behind, before.length = position ∧ whole = before ++ part ++ behind

namespace StandsAt

variable {α : Type} {position : Nat} {a b whole : List α} {x : α}

theorem left (h : StandsAt (a ++ b) position whole) : StandsAt a position whole := by
  obtain ⟨before, behind, hlength, heq⟩ := h
  exact ⟨before, b ++ behind, hlength, by rw [heq]; simp only [List.append_assoc]⟩

theorem right (h : StandsAt (a ++ b) position whole) :
    StandsAt b (position + a.length) whole := by
  obtain ⟨before, behind, hlength, heq⟩ := h
  exact ⟨before ++ a, behind, by rw [List.length_append, hlength],
    by rw [heq]; simp only [List.append_assoc]⟩

theorem tail (h : StandsAt (x :: a) position whole) : StandsAt a (position + 1) whole :=
  right (a := [x]) h

theorem le_length (h : StandsAt a position whole) : position + a.length ≤ whole.length := by
  obtain ⟨before, behind, rfl, rfl⟩ := h
  rw [List.length_append, List.length_append]
  omega

theorem head (h : StandsAt (x :: a) position whole) : whole[position]? = some x := by
  obtain ⟨before, behind, rfl, rfl⟩ := h
  rw [List.append_assoc, List.getElem?_append_right (Nat.le_refl _), Nat.sub_self]
  rfl

theorem getElem? {i : Nat} (h : StandsAt a position whole) (hx : a[i]? = some x) :
    whole[position + i]? = some x := by
  induction a generalizing position i with
  | nil => cases hx
  | cons y a ih =>
    cases i with
    | zero => exact hx ▸ h.head
    | succ i => exact (congrArg (whole[·]?) (Nat.add_right_comm position i 1)).trans (ih h.tail hx)

/-- Records of one size stand at equal distances. -/
theorem record {β : Type} {record : β → List α} {records : List β} {size i : Nat} {r : β}
    (h : StandsAt (records.flatMap record) position whole)
    (hsize : ∀ r ∈ records, (record r).length = size) (hr : records[i]? = some r) :
    StandsAt (record r) (position + size * i) whole := by
  induction records generalizing position i with
  | nil => cases hr
  | cons s records ih =>
    rw [List.flatMap_cons] at h
    cases i with
    | zero =>
      obtain rfl := Option.some.inj hr
      exact h.left
    | succ i =>
      have hrest := ih h.right (fun r hr => hsize r (List.mem_cons_of_mem s hr)) hr
      rw [hsize s List.mem_cons_self, Nat.add_assoc, Nat.add_comm size, ← Nat.mul_succ] at hrest
      exact hrest

end StandsAt

namespace ObjectFile

/-- **A file holds bytes at an offset.** -/
def Holds (f : ObjectFile) (offset : Nat) (bytes : List UInt8) : Prop :=
  StandsAt bytes offset f.bytes.data.toList

section Holds

variable {f : ObjectFile} {offset : Nat} {a b : List UInt8} {x : UInt8}

theorem Holds.left (h : f.Holds offset (a ++ b)) : f.Holds offset a := StandsAt.left h

theorem Holds.right (h : f.Holds offset (a ++ b)) : f.Holds (offset + a.length) b :=
  StandsAt.right h

theorem Holds.tail (h : f.Holds offset (x :: a)) : f.Holds (offset + 1) a := StandsAt.tail h

theorem Holds.le_size (h : f.Holds offset a) : offset + a.length ≤ f.size :=
  (StandsAt.le_length h).trans_eq Array.length_toList

theorem Holds.getElem (h : f.Holds offset (x :: a)) (hlt : offset < f.bytes.size) :
    f.bytes[offset] = x := by
  have hget := StandsAt.head h
  rw [Array.getElem?_toList] at hget
  exact (Array.getElem?_eq_some_iff.1 hget).2

/-- The bytes that are held are those that are taken out. -/
theorem Holds.extract (h : f.Holds offset a) :
    (f.bytes.extract offset (offset + a.length)).data.toList = a := by
  obtain ⟨before, behind, rfl, heq⟩ := h
  rw [ByteArray.data_extract, Array.toList_extract, heq, List.extract_eq_take_drop,
    Nat.add_sub_cancel_left, List.append_assoc, List.drop_left, List.take_left]

/-! ### Values and texts -/

theorem Holds.byte (h : f.Holds offset (x :: a)) : f.byte offset = .ok x := by
  have hlt : offset < f.bytes.size := (Nat.lt_add_of_pos_right (Nat.succ_pos _)).trans_le h.le_size
  rw [ObjectFile.byte, dif_pos hlt, h.getElem hlt]

theorem Holds.half {v : UInt16} (h : f.Holds offset (f.order.halfBytes v)) :
    f.half offset = .ok v := by
  have hle : offset + (f.order.halfBytes v).length ≤ f.bytes.size := h.le_size
  obtain ⟨x, y, hbytes, hv⟩ := f.order.half_halfBytes v
  rw [ByteOrder.length_halfBytes] at hle
  rw [hbytes] at h
  rw [ObjectFile.half, dif_pos hle, h.getElem, h.tail.getElem, hv]

theorem Holds.word {v : UInt32} (h : f.Holds offset (f.order.wordBytes v)) :
    f.word offset = .ok v := by
  have hle : offset + (f.order.wordBytes v).length ≤ f.bytes.size := h.le_size
  obtain ⟨x, y, z, w, hbytes, hv⟩ := f.order.word_wordBytes v
  rw [ByteOrder.length_wordBytes] at hle
  rw [hbytes] at h
  rw [ObjectFile.word, dif_pos hle, h.getElem, h.tail.getElem, h.tail.tail.getElem,
    h.tail.tail.tail.getElem, hv]

theorem Holds.slice (h : f.Holds offset a) {size : Nat} (hsize : size = a.length) :
    f.slice offset size = .ok (f.bytes.extract offset (offset + size)) := by
  subst hsize
  rw [ObjectFile.slice, if_pos h.le_size]

/-- The first zero byte ends a text. -/
theorem Holds.terminator? (h : f.Holds offset (a ++ [0])) (ha : 0 ∉ a) :
    terminator? f.bytes offset = some (offset + a.length) := by
  induction a generalizing offset with
  | nil =>
    have hlt : offset < f.bytes.size := h.le_size
    unfold ObjectFile.terminator?
    rw [dif_pos hlt, if_pos (h.getElem hlt)]
    rfl
  | cons x a ih =>
    have hlt : offset < f.bytes.size :=
      (Nat.lt_add_of_pos_right (Nat.succ_pos _)).trans_le h.le_size
    have hx : x ≠ 0 := fun heq => ha (heq ▸ List.mem_cons_self)
    unfold ObjectFile.terminator?
    rw [dif_pos hlt, if_neg (h.getElem hlt ▸ hx),
      ih h.tail fun hmem => ha (List.mem_cons_of_mem x hmem), List.length_cons, Nat.add_assoc,
      Nat.add_comm 1]

/-- **A text is read back**, up to the zero byte behind it. -/
theorem Holds.string {text : String} (h : f.Holds offset (StringTable.textBytes text))
    (htext : '\x00' ∉ text.toList) : f.string offset = .ok text := by
  have hle : offset ≤ f.size := (Nat.le_add_right _ _).trans h.le_size
  rw [ObjectFile.string, if_pos hle, h.terminator? (Lossy.zero_notMem_toUTF8 htext)]
  dsimp only
  rw [Holds.extract h.left, Lossy.decode_toUTF8]

/-! ### Rows of values -/

theorem Holds.halves {values : List UInt16} (h : f.Holds offset (f.order.halves values)) {i : Nat}
    {v : UInt16} (hv : values[i]? = some v) : f.half (offset + 2 * i) = .ok v :=
  Holds.half (StandsAt.record h (fun v _ => f.order.length_halfBytes v) hv)

theorem Holds.words {values : List UInt32} (h : f.Holds offset (f.order.words values)) {i : Nat}
    {v : UInt32} (hv : values[i]? = some v) : f.word (offset + 4 * i) = .ok v :=
  Holds.word (StandsAt.record h (fun v _ => f.order.length_wordBytes v) hv)

end Holds

end ObjectFile

/-! ### Headers -/

section Headers

variable {f : ObjectFile} {offset : Nat}

/-- **The header is read back**, if the sizes of its tables make sense. -/
theorem Header.read_of_holds {h : Header}
    (hbytes : f.Holds ObjectFile.identificationSize (f.order.headerBytes h))
    (hprogram : programHeaderSize ≤ h.programEntrySize)
    (hsection : sectionHeaderSize ≤ h.sectionEntrySize) : Header.read f = .ok h := by
  have hfirst := hbytes.left.left
  have hsecond := hbytes.left.right
  have hthird := hbytes.right
  rw [ByteOrder.length_halves] at hsecond
  rw [List.length_append, ByteOrder.length_halves, ByteOrder.length_words] at hthird
  unfold Header.read
  refine bind_eq_ok_iff.2 ⟨h.type, hfirst.halves (i := 0) rfl, ?_⟩
  refine bind_eq_ok_iff.2 ⟨h.machine, hfirst.halves (i := 1) rfl, ?_⟩
  refine bind_eq_ok_iff.2 ⟨h.version, hsecond.words (i := 0) rfl, ?_⟩
  refine bind_eq_ok_iff.2 ⟨h.entry, hsecond.words (i := 1) rfl, ?_⟩
  refine bind_eq_ok_iff.2 ⟨h.programOffset, hsecond.words (i := 2) rfl, ?_⟩
  refine bind_eq_ok_iff.2 ⟨h.sectionOffset, hsecond.words (i := 3) rfl, ?_⟩
  refine bind_eq_ok_iff.2 ⟨h.flags, hsecond.words (i := 4) rfl, ?_⟩
  refine bind_eq_ok_iff.2 ⟨h.headerSize, hthird.halves (i := 0) rfl, ?_⟩
  refine bind_eq_ok_iff.2 ⟨h.programEntrySize, hthird.halves (i := 1) rfl, ?_⟩
  refine bind_eq_ok_iff.2 ⟨h.programCount, hthird.halves (i := 2) rfl, ?_⟩
  refine bind_eq_ok_iff.2 ⟨h.sectionEntrySize, hthird.halves (i := 3) rfl, ?_⟩
  refine bind_eq_ok_iff.2 ⟨h.sectionCount, hthird.halves (i := 4) rfl, ?_⟩
  refine bind_eq_ok_iff.2 ⟨h.nameSection, hthird.halves (i := 5) rfl, ?_⟩
  refine bind_eq_ok_iff.2 ⟨(), (ensure_eq_ok_iff ..).2 (.inr hprogram), ?_⟩
  exact bind_eq_ok_iff.2 ⟨(), (ensure_eq_ok_iff ..).2 (.inr hsection), rfl⟩

/-- A program header is read back. -/
theorem ProgramHeader.read_of_holds {type : SegmentType} {word physical : UInt32}
    {h : ProgramHeader} (htype : SegmentType.ofWord? word = some type)
    (hbytes : f.Holds offset (f.order.words [word, h.offset, h.address, physical, h.fileSize,
      h.memorySize, h.flags, h.align])) :
    (ProgramHeader.read f offset).result = .ok { h with type } := by
  unfold ProgramHeader.read
  refine Report.result_bind_eq_ok_iff.2 ⟨word, hbytes.words (i := 0) rfl, ?_⟩
  refine Report.result_bind_eq_ok_iff.2 ⟨type, by rw [SegmentType.read, htype]; rfl, ?_⟩
  refine Report.result_bind_eq_ok_iff.2 ⟨h.offset, hbytes.words (i := 1) rfl, ?_⟩
  refine Report.result_bind_eq_ok_iff.2 ⟨h.address, hbytes.words (i := 2) rfl, ?_⟩
  refine Report.result_bind_eq_ok_iff.2 ⟨physical, hbytes.words (i := 3) rfl, ?_⟩
  refine Report.result_bind_eq_ok_iff.2 ⟨h.fileSize, hbytes.words (i := 4) rfl, ?_⟩
  refine Report.result_bind_eq_ok_iff.2 ⟨h.memorySize, hbytes.words (i := 5) rfl, ?_⟩
  refine Report.result_bind_eq_ok_iff.2 ⟨h.flags, hbytes.words (i := 6) rfl, ?_⟩
  exact Report.result_bind_eq_ok_iff.2 ⟨h.align, hbytes.words (i := 7) rfl, rfl⟩

/-- A section header is read back. -/
theorem SectionHeader.read_of_holds
    {name type flags address fileOffset size link info align entrySize : UInt32}
    (hbytes : f.Holds offset (f.order.words [name, type, flags, address, fileOffset, size, link,
      info, align, entrySize])) : SectionHeader.read f offset =
        .ok ⟨name, .ofWord type, flags, ⟨fileOffset, size⟩, ⟨address, size⟩, link, info,
          entrySize⟩ := by
  unfold SectionHeader.read
  refine bind_eq_ok_iff.2 ⟨_, hbytes.words (i := 0) rfl, ?_⟩
  refine bind_eq_ok_iff.2 ⟨_, hbytes.words (i := 1) rfl, ?_⟩
  refine bind_eq_ok_iff.2 ⟨_, hbytes.words (i := 2) rfl, ?_⟩
  refine bind_eq_ok_iff.2 ⟨_, hbytes.words (i := 3) rfl, ?_⟩
  refine bind_eq_ok_iff.2 ⟨_, hbytes.words (i := 4) rfl, ?_⟩
  refine bind_eq_ok_iff.2 ⟨_, hbytes.words (i := 5) rfl, ?_⟩
  refine bind_eq_ok_iff.2 ⟨_, hbytes.words (i := 6) rfl, ?_⟩
  refine bind_eq_ok_iff.2 ⟨_, hbytes.words (i := 7) rfl, ?_⟩
  refine bind_eq_ok_iff.2 ⟨_, hbytes.words (i := 8) rfl, ?_⟩
  exact bind_eq_ok_iff.2 ⟨_, hbytes.words (i := 9) rfl, rfl⟩

end Headers

/-! ### Strings -/

section Strings

variable {f : ObjectFile} {t : StringTable} {offset i : Nat} {text : String}

/-- **A string is read back** from its place in a table. Only the empty string in front has the
offset zero. -/
theorem StringTable.string_of_holds (h : f.Holds offset t.bytes)
    (hsize : t.bytes.length < 4294967296) (hi : t.texts[i]? = some text)
    (htext : '\x00' ∉ text.toList) :
    t.offset i ≠ 0 ∧ f.string (offset + (t.offset i).toNat) = .ok text := by
  obtain ⟨hlt, hget⟩ := List.getElem?_eq_some_iff.1 hi
  have hsplit : t.texts = t.texts.take i ++ (text :: t.texts.drop (i + 1)) := by
    rw [← hget, List.getElem_cons_drop, List.take_append_drop]
  have hbytes : t.bytes = (0 :: (t.texts.take i).flatMap textBytes) ++
      (textBytes text ++ (t.texts.drop (i + 1)).flatMap textBytes) := by
    have hne : t.texts.isEmpty = false := by
      rw [hsplit]
      simp
    rw [bytes, hne, if_neg (by simp)]
    conv => lhs; rw [hsplit]
    simp only [List.flatMap_append, List.flatMap_cons, List.cons_append]
  rw [hbytes] at h hsize
  have hlength : (0 :: (t.texts.take i).flatMap textBytes).length =
      1 + ((t.texts.take i).flatMap textBytes).length := by
    rw [List.length_cons, Nat.add_comm]
  have hoffset : (t.offset i).toNat = 1 + ((t.texts.take i).flatMap textBytes).length := by
    rw [List.length_append, hlength] at hsize
    rw [StringTable.offset, UInt32.toNat_ofNat']
    exact Nat.mod_eq_of_lt (by omega)
  constructor
  · intro hzero
    rw [hzero] at hoffset
    exact absurd hoffset (by change 0 ≠ _; omega)
  · rw [hoffset, ← hlength]
    exact h.right.left.string htext

end Strings

/-! ### Symbols -/

/-- The symbol that is planned. -/
def PlannedSymbol.symbol (s : PlannedSymbol) : Symbol where
  name := s.name
  value := s.value
  size := s.size
  type := .func
  binding := s.binding
  visibility := .standard
  place := if s.isDefined then .sectionAt 1 else .undefined

theorem PlannedSymbol.isDefined_symbol (s : PlannedSymbol) : s.symbol.isDefined = s.isDefined := by
  rw [Symbol.isDefined, symbol]
  cases s.isDefined <;> rfl

/-- No symbol. -/
def Symbol.null : Symbol := ⟨"", 0, 0, .none, .local_, .standard, .undefined⟩

section Symbols

variable {f : ObjectFile} {offset strings : Nat}

theorem PlannedSymbol.length_bytes (order : ByteOrder) (s : PlannedSymbol) (name : UInt32) :
    (s.bytes order name).length = Symbol.entrySize := by
  simp [bytes, Symbol.entrySize]

theorem Symbol.read_of_noSymbol (h : f.Holds offset ByteOrder.noSymbol) :
    Symbol.read f offset strings = .ok .null := by
  have hbytes : ByteOrder.noSymbol =
      f.order.words [0, 0, 0] ++ [0, 0] ++ f.order.halfBytes 0 := by
    cases f.order <;> rfl
  rw [hbytes] at h
  have hbyte := h.left.right
  have hhalf := h.right
  rw [ByteOrder.length_words] at hbyte
  rw [List.length_append, ByteOrder.length_words] at hhalf
  unfold Symbol.read
  refine bind_eq_ok_iff.2 ⟨_, h.left.left.words (i := 0) rfl, ?_⟩
  refine bind_eq_ok_iff.2 ⟨_, h.left.left.words (i := 1) rfl, ?_⟩
  refine bind_eq_ok_iff.2 ⟨_, h.left.left.words (i := 2) rfl, ?_⟩
  refine bind_eq_ok_iff.2 ⟨_, hbyte.byte, ?_⟩
  refine bind_eq_ok_iff.2 ⟨_, hbyte.tail.byte, ?_⟩
  exact bind_eq_ok_iff.2 ⟨_, hhalf.half, rfl⟩

/-- **A symbol is read back**, if its name is. -/
theorem Symbol.read_of_holds {s : PlannedSymbol} {name : UInt32}
    (h : f.Holds offset (s.bytes f.order name)) (hname : name ≠ 0)
    (htext : f.string (strings + name.toNat) = .ok s.name) :
    Symbol.read f offset strings = .ok s.symbol := by
  have hbyte := h.left.right
  have hhalf := h.right
  rw [ByteOrder.length_words] at hbyte
  rw [List.length_append, ByteOrder.length_words] at hhalf
  have hfields : ofFields s.name s.value s.size
      (s.binding.code * 16 + PlannedSymbol.functionType) 0 s.place = s.symbol := by
    rw [PlannedSymbol.symbol, PlannedSymbol.place, ofFields]
    cases s.binding <;> cases s.isDefined <;> rfl
  unfold Symbol.read
  refine bind_eq_ok_iff.2 ⟨_, h.left.left.words (i := 0) rfl, ?_⟩
  refine bind_eq_ok_iff.2 ⟨_, h.left.left.words (i := 1) rfl, ?_⟩
  refine bind_eq_ok_iff.2 ⟨_, h.left.left.words (i := 2) rfl, ?_⟩
  refine bind_eq_ok_iff.2 ⟨_, hbyte.byte, ?_⟩
  refine bind_eq_ok_iff.2 ⟨_, hbyte.tail.byte, ?_⟩
  refine bind_eq_ok_iff.2 ⟨_, hhalf.half, ?_⟩
  dsimp only
  rw [if_neg hname, htext]
  exact congrArg Except.ok hfields

/-- Symbols are read back one after the other. -/
theorem SymbolTable.readFrom_of_holds {t : StringTable} {symbols : List PlannedSymbol}
    {first : Nat} (h : f.Holds offset ((symbols.zipIdx first).flatMap fun s =>
      s.1.bytes f.order (t.offset s.2)))
    (hnames : ∀ s ∈ symbols.zipIdx first, t.offset s.2 ≠ 0 ∧
      f.string (strings + (t.offset s.2).toNat) = .ok s.1.name) :
    SymbolTable.readFrom f strings symbols.length offset =
      .ok (symbols.map PlannedSymbol.symbol) := by
  induction symbols generalizing offset first with
  | nil => rfl
  | cons s symbols ih =>
    rw [List.zipIdx_cons] at h hnames
    rw [List.flatMap_cons] at h
    obtain ⟨hname, htext⟩ := hnames _ List.mem_cons_self
    have hrest := h.right
    rw [PlannedSymbol.length_bytes] at hrest
    refine bind_eq_ok_iff.2 ⟨_, Symbol.read_of_holds h.left hname htext, ?_⟩
    exact bind_eq_ok_iff.2
      ⟨_, ih hrest fun s' hs' => hnames s' (List.mem_cons_of_mem _ hs'), rfl⟩

end Symbols

/-! ### Relocations -/

namespace RelocationTable

variable {t : RelocationTable}

theorem word_of_file {position field : Nat} {v : UInt32} (path : String)
    (h : (ObjectFile.mk path t.order t.bytes).word (position * t.form.entrySize + field) = .ok v) :
    t.word position field = v := by
  unfold ObjectFile.word at h
  split at h
  · next hlt =>
    have hbyte : ∀ i (hi : i < t.bytes.size), t.byteAt i = t.bytes[i] := by
      intro i hi
      rw [byteAt, getElem?_pos t.bytes i hi]
      rfl
    have hlt : position * t.form.entrySize + field + 4 ≤ t.bytes.size := hlt
    rw [word, hbyte _ (by omega), hbyte _ (by omega), hbyte _ (by omega), hbyte _ (by omega)]
    exact Except.ok.inj h
  · cases h

theorem length_bytes {order : ByteOrder} {form : RelocationForm} {e : RelocationEntry}
    (h : e.addend.isSome = true ↔ form = .explicit) :
    (e.bytes order).length = form.entrySize := by
  rw [RelocationEntry.bytes, ByteOrder.length_words, List.length_append]
  cases form with
  | implicit =>
    have hnone : e.addend = none := by simpa using h
    rw [hnone]
    rfl
  | explicit =>
    obtain ⟨a, ha⟩ := Option.isSome_iff_exists.1 (h.2 rfl)
    rw [ha]
    rfl

/-- **Relocations are read back** from a table of their form. -/
theorem entries_of_holds {entries : List RelocationEntry} (path : String)
    (h : (ObjectFile.mk path t.order t.bytes).Holds 0 (entries.flatMap (·.bytes t.order)))
    (hform : ∀ e ∈ entries, e.addend.isSome = true ↔ t.form = .explicit)
    (hcount : t.count = entries.length) : t.entries = entries := by
  have hentry : ∀ i e, entries[i]? = some e → t.entry i = e := by
    intro i e he
    have hholds := StandsAt.record h (fun e he => length_bytes (hform e he)) he
    rw [Nat.zero_add, Nat.mul_comm] at hholds
    have hwords : (ObjectFile.mk path t.order t.bytes).Holds (i * t.form.entrySize)
        (t.order.words ([e.offset, e.info] ++ e.addend.toList)) := hholds
    have hoffset : t.word i 0 = e.offset := word_of_file path (hwords.words (i := 0) rfl)
    have hinfo : t.word i 4 = e.info := word_of_file path (hwords.words (i := 1) rfl)
    have haddend := hform e (List.mem_of_getElem? he)
    rw [entry, hoffset, hinfo]
    cases hf : t.form with
    | implicit =>
      have hnone : e.addend = none := by simpa [hf] using haddend
      dsimp only
      rw [← hnone]
    | explicit =>
      obtain ⟨a, ha⟩ := Option.isSome_iff_exists.1 (haddend.2 hf)
      rw [ha] at hwords
      have hword : t.word i 8 = a := word_of_file path (hwords.words (i := 2) rfl)
      dsimp only
      rw [addend, hf, hword, ← ha]
  refine List.ext_getElem? fun i => ?_
  rw [RelocationTable.entries, List.getElem?_map, hcount]
  cases he : entries[i]? with
  | none =>
    rw [List.getElem?_eq_none (by simpa using he)]
    rfl
  | some e =>
    have hi : i < entries.length := (List.getElem?_eq_some_iff.1 he).1
    rw [List.getElem?_range hi, Option.map_some, hentry i e he]

theorem length_flatMap_bytes (order : ByteOrder) {form : RelocationForm}
    {entries : List RelocationEntry}
    (hform : ∀ e ∈ entries, e.addend.isSome = true ↔ form = .explicit) :
    (entries.flatMap (·.bytes order)).length = form.entrySize * entries.length :=
  length_flatMap_const fun e he => length_bytes (hform e he)

/-- **A table is found where its entries stand**, and they are read back from it. Bytes behind them
do not matter if they are too few for one more entry. -/
theorem bind_of_holds {f : ObjectFile} {offset size : Nat} {form : RelocationForm}
    {entries : List RelocationEntry} {trailing : List UInt8} (path : String)
    (h : f.Holds offset (entries.flatMap (·.bytes f.order) ++ trailing))
    (hform : ∀ e ∈ entries, e.addend.isSome = true ↔ form = .explicit)
    (htrailing : trailing.length < form.entrySize)
    (hsize : size = form.entrySize * entries.length + trailing.length) :
    ∃ t, (bind path f.bytes offset size form f.order).result = .ok t ∧
      t.count = entries.length ∧ t.entries = entries := by
  have hlength : (entries.flatMap (·.bytes f.order) ++ trailing).length = size := by
    rw [List.length_append, length_flatMap_bytes f.order hform, hsize]
  have hwithin : offset + size ≤ f.bytes.size := hlength ▸ h.le_size
  have hextract := h.extract
  rw [hlength] at hextract
  have hcount : size / form.entrySize = entries.length := by
    rw [hsize, Nat.mul_add_div (Nat.zero_lt_of_lt htrailing), Nat.div_eq_of_lt htrailing,
      Nat.add_zero]
  refine ⟨⟨f.bytes.extract offset (offset + size), form, f.order, size / form.entrySize⟩, ?_,
    hcount, ?_⟩
  · rw [bind, if_pos hwithin]
  · exact entries_of_holds path ⟨[], trailing, rfl, hextract⟩ hform hcount

end RelocationTable

end ElfLoader
