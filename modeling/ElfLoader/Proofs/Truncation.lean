import ElfLoader.Proofs.Patching

/-!
# Files that are cut off

A file may be cut off anywhere. Whatever is read from it is then read from the whole file too
(`ElfLoader.Carries`): no reading looks further than it has to, and those that put up with an
error do so only where the object is refused in the end. So a file that is cut off is refused or
means what the whole file means (`ElfLoader.Object.open_of_truncated`).
-/

namespace ElfLoader

/-! ### What carries over -/

section Carries

variable {α β : Type}

/-- **A result carries over** from one reading to another: if it comes out of the first, it comes
out of the second. -/
def Carries (x y : Except LoadError α) : Prop := ∀ a, x = .ok a → y = .ok a

theorem Carries.refl (x : Except LoadError α) : Carries x x := fun _ h => h

theorem carries_error (e : LoadError) (y : Except LoadError α) : Carries (.error e) y := nofun

theorem Carries.bind {x y : Except LoadError α} {f g : α → Except LoadError β}
    (hxy : Carries x y) (hfg : ∀ a, Carries (f a) (g a)) : Carries (x >>= f) (y >>= g) := by
  intro b hb
  obtain ⟨a, ha, hb⟩ := bind_eq_ok_iff.1 hb
  exact bind_eq_ok_iff.2 ⟨a, hxy a ha, hfg a b hb⟩

theorem carries_ensure (p : Prop) [Decidable p] (e e' : LoadError) :
    Carries (ensure p e) (ensure p e') := by
  intro u h
  rw [ensure_eq_ok_iff] at h ⊢
  exact h

theorem carries_ite {p : Prop} [Decidable p] {x x' y y' : Except LoadError α}
    (h : Carries x y) (h' : Carries x' y') :
    Carries (if p then x else x') (if p then y else y') := by
  split
  · exact h
  · exact h'

theorem Report.carries_bind {x y : Report α} {f g : α → Report β}
    (hxy : Carries x.result y.result) (hfg : ∀ a, Carries (f a).result (g a).result) :
    Carries (x >>= f).result (y >>= g).result := by
  rw [result_bind, result_bind]
  exact hxy.bind hfg

theorem Report.carries_map {x y : Report α} (h : Carries x.result y.result) (f : α → β) :
    Carries (f <$> x).result (f <$> y).result :=
  Report.carries_bind h fun _ => .refl _

end Carries

/-! ### Bytes of a longer file -/

namespace ObjectFile

/-- **A file goes on where another one ends.** Where it came from does not matter. -/
structure Extends (f g : ObjectFile) : Prop where
  /-- The byte order is the same. -/
  order_eq : g.order = f.order
  /-- There may be bytes behind those of the other file. -/
  bytes_eq : ∃ more, g.bytes = f.bytes ++ more

theorem getElem_append {content more : ByteArray} {i : Nat} (hi : i < content.size)
    (hi' : i < (content ++ more).size) : (content ++ more)[i] = content[i] :=
  ByteArray.getElem_append_left hi

theorem extract_append {content more : ByteArray} {i j : Nat} (hj : j ≤ content.size) :
    (content ++ more).extract i j = content.extract i j := by
  have hmore : more.extract (i - content.size) (j - content.size) = .empty :=
    ByteArray.extract_eq_empty_iff.2 (by omega)
  rw [ByteArray.extract_append, hmore, ByteArray.append_empty]

/-- The first zero byte stays where it is. -/
theorem terminator?_append {content : ByteArray} {offset stop : Nat}
    (h : terminator? content offset = some stop) (more : ByteArray) :
    terminator? (content ++ more) offset = some stop ∧ stop < content.size := by
  induction offset using terminator?.induct content with
  | case1 offset hlt hzero =>
    unfold terminator? at h ⊢
    have hlt' : offset < (content ++ more).size := by
      rw [ByteArray.size_append]
      omega
    rw [dif_pos hlt, if_pos hzero] at h
    rw [dif_pos hlt', getElem_append hlt, if_pos hzero]
    exact ⟨h, Option.some.inj h ▸ hlt⟩
  | case2 offset hlt hzero ih =>
    unfold terminator? at h ⊢
    have hlt' : offset < (content ++ more).size := by
      rw [ByteArray.size_append]
      omega
    rw [dif_pos hlt, if_neg hzero] at h
    rw [dif_pos hlt', getElem_append hlt, if_neg hzero]
    exact ih h
  | case3 offset hlt =>
    unfold terminator? at h
    rw [dif_neg hlt] at h
    cases h

namespace Extends

variable {f g : ObjectFile} (h : f.Extends g) (offset : Nat)

include h

theorem half : Carries (f.half offset) (g.half offset) := by
  obtain ⟨more, hbytes⟩ := h.bytes_eq
  intro a ha
  unfold ObjectFile.half at ha ⊢
  split at ha
  · next hlt =>
    have hlt' : offset + 2 ≤ g.bytes.size := by
      rw [hbytes, ByteArray.size_append]
      omega
    rw [dif_pos hlt', h.order_eq, ← ha]
    simp only [hbytes]
    rw [getElem_append (by omega), getElem_append (by omega)]
  · cases ha

theorem word : Carries (f.word offset) (g.word offset) := by
  obtain ⟨more, hbytes⟩ := h.bytes_eq
  intro a ha
  unfold ObjectFile.word at ha ⊢
  split at ha
  · next hlt =>
    have hlt' : offset + 4 ≤ g.bytes.size := by
      rw [hbytes, ByteArray.size_append]
      omega
    rw [dif_pos hlt', h.order_eq, ← ha]
    simp only [hbytes]
    rw [getElem_append (by omega), getElem_append (by omega), getElem_append (by omega),
      getElem_append (by omega)]
  · cases ha

theorem byte : Carries (f.byte offset) (g.byte offset) := by
  obtain ⟨more, hbytes⟩ := h.bytes_eq
  intro a ha
  unfold ObjectFile.byte at ha ⊢
  split at ha
  · next hlt =>
    have hlt' : offset < g.bytes.size := by
      rw [hbytes, ByteArray.size_append]
      omega
    rw [dif_pos hlt', ← ha]
    simp only [hbytes]
    rw [getElem_append hlt]
  · cases ha

theorem slice (size : Nat) : Carries (f.slice offset size) (g.slice offset size) := by
  obtain ⟨more, hbytes⟩ := h.bytes_eq
  intro a ha
  unfold ObjectFile.slice ObjectFile.size at ha ⊢
  split at ha
  · next hle =>
    have hle' : offset + size ≤ g.bytes.size := by
      rw [hbytes, ByteArray.size_append]
      omega
    rw [if_pos hle', hbytes, extract_append hle]
    exact ha
  · cases ha

theorem string : Carries (f.string offset) (g.string offset) := by
  obtain ⟨more, hbytes⟩ := h.bytes_eq
  intro a ha
  unfold ObjectFile.string ObjectFile.size at ha ⊢
  split at ha
  · next hle =>
    have hle' : offset ≤ g.bytes.size := by
      rw [hbytes, ByteArray.size_append]
      omega
    split at ha
    · next stop hstop =>
      obtain ⟨hstop', hlt⟩ := terminator?_append hstop more
      rw [if_pos hle', hbytes, hstop']
      dsimp only
      rw [extract_append hlt.le]
      exact ha
    · cases ha
  · cases ha

end Extends

end ObjectFile

/-! ### Headers -/

variable {f g : ObjectFile} (h : f.Extends g)

include h

theorem Header.carries_read : Carries (Header.read f) (Header.read g) :=
  (h.half 16).bind fun _ => (h.half 18).bind fun _ => (h.word 20).bind fun _ =>
  (h.word 24).bind fun _ => (h.word 28).bind fun _ => (h.word 32).bind fun _ =>
  (h.word 36).bind fun _ => (h.half 40).bind fun _ => (h.half 42).bind fun _ =>
  (h.half 44).bind fun _ => (h.half 46).bind fun _ => (h.half 48).bind fun _ =>
  (h.half 50).bind fun _ => (carries_ensure _ _ _).bind fun _ =>
  (carries_ensure _ _ _).bind fun _ => .refl _

theorem ProgramHeader.carries_read (offset : Nat) :
    Carries (ProgramHeader.read f offset).result (ProgramHeader.read g offset).result := by
  refine Report.carries_bind (h.word offset) fun w => ?_
  refine Report.carries_bind (.refl _) fun _ => ?_
  refine Report.carries_bind (h.word (offset + 4)) fun _ => ?_
  refine Report.carries_bind (h.word (offset + 8)) fun _ => ?_
  refine Report.carries_bind (h.word (offset + 12)) fun _ => ?_
  refine Report.carries_bind (h.word (offset + 16)) fun _ => ?_
  refine Report.carries_bind (h.word (offset + 20)) fun _ => ?_
  refine Report.carries_bind (h.word (offset + 24)) fun _ => ?_
  exact Report.carries_bind (h.word (offset + 28)) fun _ => .refl _

theorem ProgramHeader.carries_readFrom (step count offset : Nat) :
    Carries (ProgramHeader.readFrom f step count offset).result
      (ProgramHeader.readFrom g step count offset).result := by
  induction count generalizing offset with
  | zero => exact .refl _
  | succ count ih =>
    refine Report.carries_bind (ProgramHeader.carries_read h offset) fun _ => ?_
    exact Report.carries_bind (ih (offset + step)) fun _ => .refl _

theorem SectionHeader.carries_read (offset : Nat) :
    Carries (SectionHeader.read f offset) (SectionHeader.read g offset) :=
  (h.word offset).bind fun _ => (h.word (offset + 4)).bind fun _ =>
  (h.word (offset + 8)).bind fun _ => (h.word (offset + 12)).bind fun _ =>
  (h.word (offset + 16)).bind fun _ => (h.word (offset + 20)).bind fun _ =>
  (h.word (offset + 24)).bind fun _ => (h.word (offset + 28)).bind fun _ =>
  (h.word (offset + 32)).bind fun _ => (h.word (offset + 36)).bind fun _ => .refl _

theorem SectionHeader.carries_readFrom (step count offset : Nat) :
    Carries (SectionHeader.readFrom f step count offset)
      (SectionHeader.readFrom g step count offset) := by
  induction count generalizing offset with
  | zero => exact .refl _
  | succ count ih =>
    exact (SectionHeader.carries_read h offset).bind fun _ =>
      (ih (offset + step)).bind fun _ => .refl _

/-! ### Segments -/

theorem ProgramHeader.carries_toLoad (header : ProgramHeader) :
    Carries (header.toLoad f) (header.toLoad g) :=
  (carries_ensure _ _ _).bind fun _ => (carries_ensure _ _ _).bind fun _ =>
    (h.slice header.offset.toNat header.fileSize.toNat).bind fun _ => .refl _

theorem Object.carries_loadsOf (headers : List ProgramHeader) :
    Carries (loadsOf f headers) (loadsOf g headers) := by
  induction headers with
  | nil => exact .refl _
  | cons header rest ih =>
    exact carries_ite ((header.carries_toLoad h).bind fun _ => ih.bind fun _ => .refl _) ih

omit h in
theorem Object.carries_offsetIn (f g : ObjectFile) (loads : List LoadSegment) (address : UInt32) :
    Carries (offsetIn f loads address) (offsetIn g loads address) := by
  unfold offsetIn
  split
  · exact .refl _
  · exact carries_error _ _

omit h in
theorem Object.carries_extentOf (f g : ObjectFile) (loads : List LoadSegment) (pageSize : Nat) :
    Carries (extentOf f loads pageSize) (extentOf g loads pageSize) :=
  (carries_ensure _ _ _).bind fun _ => .refl _

theorem Object.carries_interpreterOf (headers : List ProgramHeader) :
    Carries (interpreterOf f headers) (interpreterOf g headers) := by
  unfold interpreterOf
  split
  · next header _ => exact (h.string header.offset.toNat).bind fun _ => .refl _
  · exact .refl _

/-! ### The dynamic section -/

omit h in
theorem Dynamic.carries_table? (f g : ObjectFile) (tags : TagList) (address size : UInt32) :
    Carries (table? f tags address size) (table? g tags address size) := by
  unfold table?
  split
  · exact .refl _
  · exact carries_error _ _
  · exact .refl _

omit h in
theorem Dynamic.carries_pltTable? (f g : ObjectFile) (tags : TagList) :
    Carries (pltTable? f tags) (pltTable? g tags) := by
  refine (carries_table? f g tags _ _).bind fun table => ?_
  cases table with
  | none => exact .refl _
  | some table =>
    dsimp only
    split
    · exact carries_ite (.refl _) (carries_ite (.refl _) (carries_error _ _))
    · exact carries_error _ _

omit h in
theorem Dynamic.carries_checkEntrySize (f g : ObjectFile) (name : String)
    (size? : Option UInt32) (expected : Nat) :
    Carries (checkEntrySize f name size? expected) (checkEntrySize g name size? expected) := by
  cases size? with
  | none => exact .refl _
  | some size => exact carries_ensure _ _ _

omit h in
theorem Dynamic.carries_ofTags (f g : ObjectFile) (tags : TagList) :
    Carries (ofTags f tags) (ofTags g tags) :=
  (carries_pltTable? f g tags).bind fun _ => (carries_table? f g tags _ _).bind fun _ =>
  (carries_table? f g tags _ _).bind fun _ => (carries_table? f g tags _ _).bind fun _ =>
  (carries_table? f g tags _ _).bind fun _ => (carries_table? f g tags _ _).bind fun _ =>
  (carries_table? f g tags _ _).bind fun _ => (carries_checkEntrySize f g _ _ _).bind fun _ =>
  (carries_checkEntrySize f g _ _ _).bind fun _ => (carries_checkEntrySize f g _ _ _).bind fun _ =>
  .refl _

theorem Dynamic.carries_readTags (count offset : Nat) :
    Carries (readTags f count offset) (readTags g count offset) := by
  induction count generalizing offset with
  | zero => exact .refl _
  | succ count ih =>
    refine (h.word offset).bind fun tag => (h.word (offset + 4)).bind fun value => ?_
    exact carries_ite (.refl _) ((ih (offset + 8)).bind fun _ => .refl _)

theorem Object.carries_dynamicOf (headers : List ProgramHeader) :
    Carries (dynamicOf f headers) (dynamicOf g headers) := by
  unfold dynamicOf
  split
  · refine Carries.bind ?_ fun _ => .refl _
    exact (Dynamic.carries_readTags h _ _).bind fun tags => Dynamic.carries_ofTags f g tags
  · exact .refl _

/-! ### Symbols and versions -/

theorem Object.carries_readStrings (strings : Nat) (offsets : List UInt32) :
    Carries (readStrings f strings offsets) (readStrings g strings offsets) := by
  induction offsets with
  | nil => exact .refl _
  | cons offset rest ih =>
    exact (h.string (strings + offset.toNat)).bind fun _ => ih.bind fun _ => .refl _

/-- **The number of symbols carries over**, although sections that cannot be read are put up with:
without them the symbols cannot be counted. -/
theorem Object.carries_symbolCount (header : Header) (loads : List LoadSegment) (d : Dynamic) :
    Carries (symbolCount f header loads d).result (symbolCount g header loads d).result := by
  unfold symbolCount
  cases d.hash with
  | some address =>
    refine Report.carries_bind (carries_offsetIn f g loads address) fun offset => ?_
    exact Report.carries_bind (h.word (offset + 4)) fun _ => .refl _
  | none =>
    intro count hcount
    obtain ⟨sections, hsections, hcount⟩ := Report.result_bind_eq_ok_iff.1 hcount
    unfold SectionHeader.readAll at hsections
    split at hsections
    · next all hall =>
      obtain rfl := Except.ok.inj hsections
      refine Report.result_bind_eq_ok_iff.2 ⟨all, ?_, ?_⟩
      · rw [SectionHeader.readAll, SectionHeader.carries_readFrom h _ _ _ _ hall]
        rfl
      · split at hcount
        · exact hcount
        · cases hcount
    · -- no sections were read, so none of them holds the symbols
      obtain rfl := Except.ok.inj hsections
      cases hcount

theorem Symbol.carries_read (offset strings : Nat) :
    Carries (Symbol.read f offset strings) (Symbol.read g offset strings) := by
  refine (h.word offset).bind fun nameOffset => (h.word (offset + 4)).bind fun _ =>
    (h.word (offset + 8)).bind fun _ => (h.byte (offset + 12)).bind fun _ =>
    (h.byte (offset + 13)).bind fun _ => (h.half (offset + 14)).bind fun _ => ?_
  exact carries_ite (.refl _) ((h.string _).bind fun _ => .refl _)

theorem SymbolTable.carries_readFrom (strings count offset : Nat) :
    Carries (readFrom f strings count offset) (readFrom g strings count offset) := by
  induction count generalizing offset with
  | zero => exact .refl _
  | succ count ih =>
    exact (Symbol.carries_read h offset strings).bind fun _ =>
      (ih (offset + Symbol.entrySize)).bind fun _ => .refl _

theorem SymbolTable.carries_read (offset count strings : Nat) :
    Carries (SymbolTable.read f offset count strings) (SymbolTable.read g offset count strings) :=
  (h.slice _ _).bind fun _ => (carries_readFrom h strings count offset).bind fun _ => .refl _

theorem VersionTable.carries_readHalves (count offset : Nat) :
    Carries (readHalves f count offset) (readHalves g count offset) := by
  induction count generalizing offset with
  | zero => exact .refl _
  | succ count ih => exact (h.half offset).bind fun _ => (ih (offset + 2)).bind fun _ => .refl _

theorem VersionTable.carries_readSymbols (offset count : Nat) :
    Carries (readSymbols f offset count) (readSymbols g offset count) :=
  (h.slice _ _).bind fun _ => (carries_readHalves h count offset).bind fun _ => .refl _

theorem VersionTable.DefinitionRecord.carries_read (offset : Nat) :
    Carries (DefinitionRecord.read f offset) (DefinitionRecord.read g offset) :=
  (h.half offset).bind fun _ => (h.half (offset + 2)).bind fun _ =>
  (h.half (offset + 4)).bind fun _ => (h.half (offset + 6)).bind fun _ =>
  (h.word (offset + 8)).bind fun _ => (h.word (offset + 12)).bind fun _ =>
  (h.word (offset + 16)).bind fun _ => (carries_ensure _ _ _).bind fun _ => .refl _

theorem VersionTable.carries_readDefinitions (strings count offset : Nat)
    (known : VersionDefinitions) :
    Carries (readDefinitions f strings count offset known)
      (readDefinitions g strings count offset known) := by
  induction count generalizing offset known with
  | zero => exact .refl _
  | succ count ih =>
    refine (DefinitionRecord.carries_read h offset).bind fun r => ?_
    have hrest : ∀ known : VersionDefinitions,
        Carries (if r.next = 0 then pure known
          else readDefinitions f strings count (offset + r.next.toNat) known)
          (if r.next = 0 then pure known
          else readDefinitions g strings count (offset + r.next.toNat) known) :=
      fun known => carries_ite (.refl _) (ih _ known)
    exact carries_ite ((Carries.refl _).bind hrest) ((h.word _).bind fun _ =>
      (h.string _).bind fun _ => (Carries.refl _).bind hrest)

theorem VersionTable.carries_readNeedsOf (strings : Nat) (file : String) (count offset : Nat)
    (known : VersionNeeds) :
    Carries (readNeedsOf f strings file count offset known)
      (readNeedsOf g strings file count offset known) := by
  induction count generalizing offset known with
  | zero => exact .refl _
  | succ count ih =>
    exact (h.word offset).bind fun _ => (h.half (offset + 4)).bind fun _ =>
      (h.half (offset + 6)).bind fun _ => (h.word (offset + 8)).bind fun _ =>
      (h.word (offset + 12)).bind fun _ => (h.string _).bind fun _ =>
      carries_ite (.refl _) (ih _ _)

theorem VersionTable.carries_readNeeds (strings count offset : Nat) (known : VersionNeeds) :
    Carries (readNeeds f strings count offset known) (readNeeds g strings count offset known) := by
  induction count generalizing offset known with
  | zero => exact .refl _
  | succ count ih =>
    exact (h.half offset).bind fun _ => (h.half (offset + 2)).bind fun _ =>
      (h.word (offset + 4)).bind fun _ => (h.word (offset + 8)).bind fun _ =>
      (h.word (offset + 12)).bind fun _ => (carries_ensure _ _ _).bind fun _ =>
      (h.string _).bind fun _ => (carries_readNeedsOf h strings _ _ _ known).bind fun _ =>
      carries_ite (.refl _) (ih _ _)

/-! ### Objects -/

theorem Object.carries_readVersionSymbols (loads : List LoadSegment) (d : Dynamic) (count : Nat) :
    Carries (readVersionSymbols f loads d count) (readVersionSymbols g loads d count) := by
  unfold readVersionSymbols
  split
  · exact .refl _
  · exact (carries_offsetIn f g loads _).bind fun offset =>
      VersionTable.carries_readSymbols h offset count

theorem Object.carries_readSymbols (header : Header) (loads : List LoadSegment) (d : Dynamic)
    (strings : Nat) : Carries (readSymbols f header loads d strings).result
      (readSymbols g header loads d strings).result := by
  unfold readSymbols
  split
  · exact .refl _
  · refine Report.carries_bind (carries_symbolCount h header loads d) fun count => ?_
    refine Report.carries_bind (carries_offsetIn f g loads _) fun offset => ?_
    refine Report.carries_bind (SymbolTable.carries_read h offset count strings) fun symbols => ?_
    exact Report.carries_bind (carries_readVersionSymbols h loads d count) fun _ => .refl _

theorem Object.carries_readDefinitions (loads : List LoadSegment) (d : Dynamic) (strings : Nat) :
    Carries (readDefinitions f loads d strings) (readDefinitions g loads d strings) := by
  unfold readDefinitions
  split
  · exact .refl _
  · exact (carries_offsetIn f g loads _).bind fun offset =>
      VersionTable.carries_readDefinitions h strings _ offset ∅

theorem Object.carries_readNeeds (loads : List LoadSegment) (d : Dynamic) (strings : Nat) :
    Carries (readNeeds f loads d strings) (readNeeds g loads d strings) := by
  unfold readNeeds
  split
  · exact .refl _
  · exact (carries_offsetIn f g loads _).bind fun offset =>
      VersionTable.carries_readNeeds h strings _ offset ∅

theorem Object.carries_readDynamic (header : Header) (loads : List LoadSegment) (d : Dynamic) :
    Carries (readDynamic f header loads d).result (readDynamic g header loads d).result := by
  unfold readDynamic
  split
  · exact Report.carries_bind (carries_ensure _ _ _) fun _ => .refl _
  · next table _ =>
    refine Report.carries_bind (carries_offsetIn f g loads table.address) fun strings => ?_
    refine Report.carries_bind (carries_readStrings h strings d.needed) fun needed => ?_
    have hrest : ∀ soname : Option String, Carries
        (do
          let indexed ← readSymbols f header loads d strings
          let definitions ← readDefinitions f loads d strings
          let needs ← readNeeds f loads d strings
          return ⟨needed, soname, indexed.1, ⟨indexed.2, definitions, needs⟩⟩ :
            Report DynamicContent).result
        (do
          let indexed ← readSymbols g header loads d strings
          let definitions ← readDefinitions g loads d strings
          let needs ← readNeeds g loads d strings
          return ⟨needed, soname, indexed.1, ⟨indexed.2, definitions, needs⟩⟩ :
            Report DynamicContent).result := by
      intro soname
      refine Report.carries_bind (carries_readSymbols h header loads d strings) fun _ => ?_
      refine Report.carries_bind (carries_readDefinitions h loads d strings) fun _ => ?_
      exact Report.carries_bind (carries_readNeeds h loads d strings) fun _ => .refl _
    dsimp only
    split
    · next offset _ =>
      exact Report.carries_bind (Report.carries_map (h.string (strings + offset.toNat)) some) hrest
    · exact Report.carries_bind (.refl _) hrest

/-- **An object carries over** to a longer file. It is the same object, of the other file. -/
theorem Object.ofFile_of_extends {pageSize : Nat} {o : Object}
    (ho : (ofFile f pageSize).result = .ok o) :
    (ofFile g pageSize).result = .ok { o with file := g } := by
  unfold ofFile at ho ⊢
  obtain ⟨header, hheader, ho⟩ := Report.result_bind_eq_ok_iff.1 ho
  refine Report.result_bind_eq_ok_iff.2 ⟨header, Header.carries_read h _ hheader, ?_⟩
  obtain ⟨headers, hheaders, ho⟩ := Report.result_bind_eq_ok_iff.1 ho
  refine Report.result_bind_eq_ok_iff.2
    ⟨headers, ProgramHeader.carries_readFrom h _ _ _ _ hheaders, ?_⟩
  obtain ⟨loads, hloads, ho⟩ := Report.result_bind_eq_ok_iff.1 ho
  refine Report.result_bind_eq_ok_iff.2 ⟨loads, carries_loadsOf h _ _ hloads, ?_⟩
  obtain ⟨_, hensure, ho⟩ := Report.result_bind_eq_ok_iff.1 ho
  refine Report.result_bind_eq_ok_iff.2 ⟨(), carries_ensure _ _ _ _ hensure, ?_⟩
  obtain ⟨extent, hextent, ho⟩ := Report.result_bind_eq_ok_iff.1 ho
  refine Report.result_bind_eq_ok_iff.2 ⟨extent, carries_extentOf f g _ _ _ hextent, ?_⟩
  obtain ⟨interpreter, hinterpreter, ho⟩ := Report.result_bind_eq_ok_iff.1 ho
  refine Report.result_bind_eq_ok_iff.2
    ⟨interpreter, carries_interpreterOf h _ _ hinterpreter, ?_⟩
  obtain ⟨dynamic, hdynamic, ho⟩ := Report.result_bind_eq_ok_iff.1 ho
  refine Report.result_bind_eq_ok_iff.2 ⟨dynamic, carries_dynamicOf h _ _ hdynamic, ?_⟩
  cases dynamic with
  | none =>
    cases ho
    rfl
  | some d =>
    obtain ⟨content, hcontent, ho⟩ := Report.result_bind_eq_ok_iff.1 ho
    refine Report.result_bind_eq_ok_iff.2 ⟨content, carries_readDynamic h _ _ _ _ hcontent, ?_⟩
    cases ho
    rfl

/-! ### Identification -/

omit h

namespace ObjectFile

variable {content more : ByteArray} {path : String}

theorem identificationByte_append {i : Nat} (hi : i < content.size) :
    identificationByte (content ++ more) i = identificationByte content i := by
  have hi' : i < (content ++ more).size := by
    rw [ByteArray.size_append]
    omega
  rw [identificationByte, identificationByte, getElem?_pos (content ++ more) i hi',
    getElem?_pos content i hi, getElem_append hi]

theorem hasMagic_append (hsize : identificationSize ≤ content.size) :
    hasMagic (content ++ more) = hasMagic content := by
  have hbytes : (List.range 4).map (identificationByte (content ++ more)) =
      (List.range 4).map (identificationByte content) := by
    refine List.map_congr_left fun i hi => identificationByte_append ?_
    exact (List.mem_range.1 hi).trans_le ((by decide : 4 ≤ identificationSize).trans hsize)
  rw [hasMagic, hasMagic, hbytes]

/-- A file that goes on is identified as what it was identified as before. -/
theorem identify_append {f : ObjectFile} (h : identify path content = .ok f) (path' : String)
    (more : ByteArray) :
    f.bytes = content ∧
      identify path' (content ++ more) = .ok ⟨path', f.order, content ++ more⟩ := by
  unfold identify at h ⊢
  obtain ⟨_, hsize, h⟩ := bind_eq_ok_iff.1 h
  rw [ensure_eq_ok_iff] at hsize
  have hle : content.size ≤ (content ++ more).size := by
    rw [ByteArray.size_append]
    exact Nat.le_add_right _ _
  have hbyte : ∀ i < identificationSize,
      identificationByte (content ++ more) i = identificationByte content i :=
    fun i hi => identificationByte_append (hi.trans_le hsize)
  obtain ⟨_, hmagic, h⟩ := bind_eq_ok_iff.1 h
  obtain ⟨_, hclass, h⟩ := bind_eq_ok_iff.1 h
  dsimp only at h
  split at h
  · cases h
  · next order horder =>
    obtain ⟨_, hversion, h⟩ := bind_eq_ok_iff.1 h
    obtain ⟨_, hheader, h⟩ := bind_eq_ok_iff.1 h
    obtain ⟨type, htype, h⟩ := bind_eq_ok_iff.1 h
    obtain ⟨_, hknown, h⟩ := bind_eq_ok_iff.1 h
    cases h
    rw [ensure_eq_ok_iff] at hmagic hclass hversion hheader hknown
    have hextends : Extends ⟨path, order, content⟩ ⟨path', order, content ++ more⟩ :=
      ⟨rfl, more, rfl⟩
    refine ⟨rfl, ?_⟩
    refine bind_eq_ok_iff.2 ⟨(), (ensure_eq_ok_iff ..).2 (hsize.trans hle), ?_⟩
    refine bind_eq_ok_iff.2 ⟨(), (ensure_eq_ok_iff ..).2 ((hasMagic_append hsize).trans hmagic), ?_⟩
    refine bind_eq_ok_iff.2 ⟨(), (ensure_eq_ok_iff ..).2 ((hbyte 4 (by decide)).trans hclass), ?_⟩
    dsimp only
    rw [hbyte 5 (by decide), horder]
    dsimp only
    refine bind_eq_ok_iff.2
      ⟨(), (ensure_eq_ok_iff ..).2 ((hbyte 6 (by decide)).trans hversion), ?_⟩
    refine bind_eq_ok_iff.2 ⟨(), (ensure_eq_ok_iff ..).2 (hheader.trans hle), ?_⟩
    refine bind_eq_ok_iff.2 ⟨type, hextends.half 16 type htype, ?_⟩
    exact bind_eq_ok_iff.2 ⟨(), (ensure_eq_ok_iff ..).2 hknown, rfl⟩

end ObjectFile

/-! ### What is read later -/

/-- A relocation table carries over. -/
theorem RelocationTable.carries_bind {content more : ByteArray} (path path' : String)
    (offset size : Nat) (form : RelocationForm) (order : ByteOrder) :
    Carries (bind path content offset size form order).result
      (bind path' (content ++ more) offset size form order).result := by
  intro t ht
  unfold bind at ht ⊢
  split at ht
  · next hle =>
    have hle' : offset + size ≤ (content ++ more).size := by
      rw [ByteArray.size_append]
      omega
    rw [if_pos hle', ObjectFile.extract_append hle]
    exact ht
  · cases ht

theorem Object.carries_tablesOf {o : Object} (h : o.file.Extends g) (refs : List RelocationRef) :
    Carries (o.tablesOf refs).result (tablesOf { o with file := g } refs).result := by
  obtain ⟨more, hbytes⟩ := h.bytes_eq
  induction refs with
  | nil => exact .refl _
  | cons r rest ih =>
    refine Report.carries_bind ?_ fun table => Report.carries_bind ih fun _ => .refl _
    refine Report.carries_bind (carries_offsetIn o.file g o.loads r.table.address) fun offset => ?_
    dsimp only
    rw [hbytes, h.order_eq]
    exact RelocationTable.carries_bind _ _ offset _ _ _

theorem Object.carries_relocationTables {o : Object} (h : o.file.Extends g) :
    Carries o.relocationTables.result (relocationTables { o with file := g }).result := by
  unfold relocationTables
  dsimp only
  split
  · exact .refl _
  · exact carries_tablesOf h _

/-- An object is put into memory by the bytes of its segments. -/
theorem Node.mapSegments_congr {n n' : Node} {loads : List LoadSegment} (hbase : n'.base = n.base)
    (hslice : ∀ s ∈ loads, n'.object.file.slice s.file.start.toNat s.file.size.toNat =
      n.object.file.slice s.file.start.toNat s.file.size.toNat) :
    n'.mapSegments loads = n.mapSegments loads := by
  induction loads with
  | nil => rfl
  | cons s rest ih =>
    have hs : n'.mapSegment s = n.mapSegment s := by
      unfold mapSegment relocate
      rw [hbase, hslice s List.mem_cons_self]
    rw [mapSegments, mapSegments, hs, ih fun t ht => hslice t (List.mem_cons_of_mem s ht)]

/-- The segments of an object have the bytes that they have in a longer file. -/
theorem Object.slice_of_extends {o : Object} {s : LoadSegment} (h : o.file.Extends g)
    (hs : s.Sound o.file) : g.slice s.file.start.toNat s.file.size.toNat =
      o.file.slice s.file.start.toNat s.file.size.toNat := by
  have hslice := (o.file.slice_eq_ok_iff _ _ _).2 ⟨hs.file_within, rfl⟩
  rw [hslice]
  exact h.slice _ _ _ hslice

/-! ### The whole file -/

theorem ObjectFile.open_eq_ok_iff {fs : FileSystem} {path : String} {content : ByteArray}
    {f : ObjectFile} (hread : fs.read path = .ok content) :
    ObjectFile.open fs path = .ok f ↔ identify path content = .ok f := by
  unfold ObjectFile.open
  rw [hread]

/-- **A file that is cut off means what the whole file means**, if it is not refused. An object
that is opened from the first bytes of a file is the object of the whole file. Its relocation
tables are the same if they can be found, and it has the same effect on memory, wherever it is
put. -/
theorem Object.open_of_truncated {fs fs' : FileSystem} {path path' : String}
    {content more : ByteArray} {pageSize : Nat} {o : Object} (hread : fs.read path = .ok content)
    (hread' : fs'.read path' = .ok (content ++ more))
    (ho : (Object.open fs path pageSize).result = .ok o) :
    ∃ g : ObjectFile, (Object.open fs' path' pageSize).result = .ok { o with file := g } ∧
      g.order = o.file.order ∧
      (∀ tables, o.relocationTables.result = .ok tables →
        (relocationTables { o with file := g }).result = .ok tables) ∧
      ∀ key name base deps m, (Node.mk key name { o with file := g } base deps).mapInto.run m =
        (Node.mk key name o base deps).mapInto.run m := by
  obtain ⟨f, hf, ho⟩ := Report.result_bind_eq_ok_iff.1 ho
  obtain ⟨rfl, ⟨headers, hloads⟩, -⟩ := loadsOf_of_ofFile ho
  have hidentify : ObjectFile.identify path content = .ok o.file :=
    (ObjectFile.open_eq_ok_iff hread).1 hf
  obtain ⟨hbytes, hidentify'⟩ := ObjectFile.identify_append hidentify path' more
  have h : o.file.Extends ⟨path', o.file.order, content ++ more⟩ :=
    ⟨rfl, more, by rw [hbytes]⟩
  refine ⟨_, ?_, h.order_eq, carries_relocationTables h, ?_⟩
  · refine Report.result_bind_eq_ok_iff.2 ⟨_, ?_, ofFile_of_extends h ho⟩
    exact (ObjectFile.open_eq_ok_iff hread').2 hidentify'
  · intro key name base deps m
    refine congrArg (Stage.run · m) (Node.mapSegments_congr rfl ?_)
    exact fun s hs => slice_of_extends h (sound_of_mem_loadsOf hloads s hs)

/-- A shared object with one relocation is the same with three bytes more behind it. -/
theorem Object.open_of_truncated_relativeWord : ∃ (g : ObjectFile) (tables : List RelocationTable),
    (Object.open ⟨[(["b"], .file (relativeWord ++ ⟨#[1, 2, 3]⟩))], [], []⟩ "b" 4096).result =
      .ok { relativeNode.object with file := g } ∧
    (relocationTables { relativeNode.object with file := g }).result = .ok tables ∧
    tables.flatMap RelocationTable.entries = [⟨148, 23, none⟩] := by
  have hopen : (Object.open ⟨[(["a"], .file relativeWord)], [], []⟩ "a" 4096).result =
      .ok relativeNode.object := eq_ok_get _
  have htables : relativeNode.object.relocationTables.result.toOption.isSome := by decide +kernel
  have hread : FileSystem.read ⟨[(["a"], .file relativeWord)], [], []⟩ "a" = .ok relativeWord := by
    decide +kernel
  have hread' : FileSystem.read ⟨[(["b"], .file (relativeWord ++ ⟨#[1, 2, 3]⟩))], [], []⟩ "b" =
      .ok (relativeWord ++ ⟨#[1, 2, 3]⟩) := by decide +kernel
  obtain ⟨g, hg, -, hrelocations, -⟩ := open_of_truncated hread hread' hopen
  refine ⟨g, _, hg, hrelocations _ (eq_ok_get htables), ?_⟩
  decide +kernel +revert

end ElfLoader
