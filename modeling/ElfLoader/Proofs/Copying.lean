import ElfLoader.Proofs.Linking

/-!
# What copies give to an executable

A copy gives an executable the bytes that its library has at the address of a symbol. There is
one pass through all relocations, and the executable comes first. So a copy is made when nothing
but the executable's own earlier relocations has been carried out
(`ElfLoader.Loader.copied_of_link`): where the library relocates its value, the executable has the
value as it is in the file of the library.

How many bytes are copied is told by the definition alone. They are the only ones that a copy
changes, whether it succeeds or not (`ElfLoader.Linker.changed_of_copy`), but nothing keeps them
within what the executable has set aside for its symbol.
-/

namespace ElfLoader

namespace Linker

variable {k : Linker} {s : Site} {before after : List Site} {d : Definition} {m m' : Memory}
  {u : Unit} {e : LoadError}

/-! ### One copy -/

/-- **A copy that is carried out** gives its target the bytes that the source had before. -/
theorem byteAt_of_copy (h : (k.linkEntry s.node s.index s.entry).Yields m u m')
    (hcopy : k.processor.action? s.entry.type = some .copy)
    (hd : (k.target s.node s.entry s.index).result = .ok (some d)) (hne : d.address ≠ 0)
    (a : Nat) :
    m'.byteAt a = if s.address.toNat ≤ a ∧ a < s.address.toNat + d.size.toNat then
      m.byteAt (d.address.toNat + (a - s.address.toNat)) else m.byteAt a := by
  obtain ⟨addend, d', action, -, hd', haction, hall⟩ := of_linkEntry h
  obtain rfl : d' = some d := Except.ok.inj (hd'.symm.trans hd)
  obtain rfl : action = .copy := Option.some.inj (haction.symm.trans hcopy)
  have hpatches : (fixup s.node s.entry addend (some d)).patches .copy =
      if d.address ≠ 0 ∧ d.size ≠ 0 then [.copy d.address s.address d.size.toNat] else [] := rfl
  rw [hpatches] at hall
  split at hall
  · exact Memory.byteAt_move (Processor.yields_applyAll_singleton_iff.1 hall) a
  · next hnone =>
    -- there are no bytes to be copied
    obtain ⟨-, rfl⟩ := Stage.yields_pure_iff.1 hall
    have hzero : d.size = 0 := Classical.not_not.1 fun hsize => hnone ⟨hne, hsize⟩
    rw [if_neg]
    rw [hzero, UInt32.toNat_zero]
    omega

/-- **A relocation that fails leaves memory as it was**, unless its fixup is torn. -/
theorem state_of_linkEntry_error
    (h : ((k.linkEntry s.node s.index s.entry).run m).result = .error e)
    (htears : ∀ addend d, ¬ k.processor.Tears (fixup s.node s.entry addend d) m.size) :
    ((k.linkEntry s.node s.index s.entry).run m).state = m := by
  rcases Stage.result_bind_eq_error_iff.1 h with h | ⟨m₁, hstate, h⟩
  · cases h
  cases hstate
  rw [linkEntry, Stage.state_bind_of_ok rfl]
  rcases Stage.result_bind_eq_error_iff.1 h with h | ⟨addend, haddend, h⟩
  · rw [Stage.run_bind_of_error h]
    rfl
  rw [Stage.state_bind_of_ok haddend]
  rcases Stage.result_bind_eq_error_iff.1 h with h | ⟨d, hd, h⟩
  · rw [Stage.run_bind_of_error h]
    rfl
  rw [Stage.state_bind_of_ok hd]
  obtain ⟨e', he, -⟩ := Stage.result_rewording_eq_error_iff.1 h
  exact Processor.state_of_apply_error (htears addend d) he

/-- A byte that a copy changes, whether it succeeds or fails, lies within as many bytes as the
definition has. -/
theorem in_target_of_copy (hcopy : k.processor.action? s.entry.type = some .copy)
    (hd : (k.target s.node s.entry s.index).result = .ok (some d)) {a : Nat}
    (ha : ((k.linkEntry s.node s.index s.entry).run m).state.byteAt a ≠ m.byteAt a) :
    s.address.toNat ≤ a ∧ a < s.address.toNat + d.size.toNat := by
  cases hresult : ((k.linkEntry s.node s.index s.entry).run m).result with
  | ok u =>
    obtain ⟨-, hframe⟩ := frame_linkEntry ⟨hresult, rfl⟩
    by_contra hout
    refine ha (hframe a ?_)
    unfold Writes
    rw [hcopy]
    rintro ⟨d', hd', -, hin⟩
    obtain rfl := Option.some.inj (Except.ok.inj (hd'.symm.trans hd))
    exact hout hin
  | error e =>
    -- a copy is not torn, so one that fails changes nothing
    refine absurd ?_ ha
    rw [state_of_linkEntry_error hresult]
    intro addend d' htears
    cases hcopy.symm.trans htears.jump

/-- **Which bytes a copy changes.** Only those at its target change, as many as the definition
has, whether the copy succeeds or fails; so the copy stays within what the object has set aside
for its own symbol if the definition is not larger than that. If it succeeds, all of these bytes
become those of the definition, also the ones that lie behind the symbol. -/
theorem changed_of_copy (hcopy : k.processor.action? s.entry.type = some .copy)
    (hd : (k.target s.node s.entry s.index).result = .ok (some d)) (m : Memory) :
    (∀ a, ((k.linkEntry s.node s.index s.entry).run m).state.byteAt a ≠ m.byteAt a →
      s.address.toNat ≤ a ∧ a < s.address.toNat + d.size.toNat ∧
        ∀ own, s.node.object.symbols.get? s.entry.symbolIndex = some own → d.size ≤ own.size →
          a < s.address.toNat + own.size.toNat) ∧
    (∀ m', (k.linkEntry s.node s.index s.entry).Yields m () m' → d.address ≠ 0 →
      ∀ b, b < d.size.toNat →
        m'.byteAt (s.address.toNat + b) = m.byteAt (d.address.toNat + b)) := by
  constructor
  · intro a ha
    obtain ⟨hlow, hhigh⟩ := in_target_of_copy hcopy hd ha
    exact ⟨hlow, hhigh, fun own _ hsize => hhigh.trans_le (Nat.add_le_add_left hsize _)⟩
  · intro m' h hne b hb
    rw [byteAt_of_copy h hcopy hd hne, if_pos (by omega), Nat.add_sub_cancel_left]

/-! ### A copy among other relocations -/

namespace Links

/-- A definition at address zero is not copied. -/
theorem byteAt_of_zero (h : k.Links (before ++ s :: after) m m')
    (hcopy : k.processor.action? s.entry.type = some .copy)
    (hd : (k.target s.node s.entry s.index).result = .ok (some d)) (hzero : d.address = 0) {a : Nat}
    (hothers : ∀ t ∈ before ++ after, ¬ k.Writes t a) : m'.byteAt a = m.byteAt a := by
  refine h.frame.2 a ?_
  intro t ht
  rcases List.mem_append.1 ht with ht | ht
  · exact hothers t (List.mem_append_left _ ht)
  · rcases List.mem_cons.1 ht with rfl | ht
    · unfold Writes
      rw [hcopy]
      rintro ⟨d', hd', hne, -⟩
      obtain rfl := Option.some.inj (Except.ok.inj (hd'.symm.trans hd))
      exact hne hzero
    · exact hothers t (List.mem_append_right _ ht)

/-- **A copy of which no other relocation writes the target** leaves there what the source has
when the copy is made. -/
theorem byteAt_of_split (h : k.Links (before ++ s :: after) m m')
    (hcopy : k.processor.action? s.entry.type = some .copy)
    (hd : (k.target s.node s.entry s.index).result = .ok (some d)) (hne : d.address ≠ 0) {b : Nat}
    (hb : b < d.size.toNat) (hothers : ∀ t ∈ after, ¬ k.Writes t (s.address.toNat + b)) :
    m'.byteAt (s.address.toNat + b) = (k.memoryAfter before m).byteAt (d.address.toNat + b) := by
  obtain ⟨m₁, hbefore, hrest⟩ := append_iff.1 h
  cases hrest with
  | @step _ _ _ m₂ _ first others =>
    rw [others.frame.2 _ hothers, byteAt_of_copy first hcopy hd hne, if_pos (by omega),
      Nat.add_sub_cancel_left, hbefore.eq_memoryAfter]

end Links

end Linker

/-- The relocations of the executable come first. -/
theorem ObjectGraph.exists_sites_eq {g : ObjectGraph} {root : Node} (h : g.root? = some root) :
    ∃ rest, g.sites = root.sites ++ rest := by
  have hhead : g.toList[0]? = some root := g.root?_eq_getElem? ▸ h
  cases hlist : g.toList with
  | nil =>
    rw [hlist] at hhead
    cases hhead
  | cons n others =>
    rw [hlist] at hhead
    obtain rfl : n = root := Option.some.inj hhead
    exact ⟨others.flatMap Node.sites, by rw [sites, hlist, List.flatMap_cons]⟩

namespace Loader

variable {l l' : Loader} {count i : Nat} {root : Node} {s : Site} {d : Definition}

/-- **What a copy leaves in an executable.** Say that a copy of the executable, the `i`-th of its
relocations, is bound to a definition, and that no other relocation writes its target. Unless the
definition is at address zero, which stands for none, the bytes at the target are those that the
definition has when only the earlier relocations of the executable have been carried out. So they
are what was loaded, except where one of these has written, and they are what linking leaves at
the definition, except where the copy itself or a later relocation writes. -/
theorem copied_of_link (h : link.Yields l count l') (hroot : l.graph.root? = some root)
    (hs : root.sites[i]? = some s) (hcopy : l.processor.action? s.entry.type = some .copy)
    (hd : (l.linker.target s.node s.entry s.index).result = .ok (some d))
    (hothers : ∀ (j : Nat) (t : Site), l.graph.sites[j]? = some t → j ≠ i →
      ∀ b, b < d.size.toNat → ¬ l.linker.Writes t (s.address.toNat + b)) {b : Nat}
    (hb : b < d.size.toNat) :
    (d.address = 0 →
      l'.memory.byteAt (s.address.toNat + b) = l.memory.byteAt (s.address.toNat + b)) ∧
    (d.address ≠ 0 →
      l'.memory.byteAt (s.address.toNat + b) =
        (l.linker.memoryAfter (root.sites.take i) l.memory).byteAt (d.address.toNat + b) ∧
      ((∀ t ∈ root.sites.take i, ¬ l.linker.Writes t (d.address.toNat + b)) →
        l'.memory.byteAt (s.address.toNat + b) = l.memory.byteAt (d.address.toNat + b)) ∧
      ((∀ t ∈ l.graph.sites.drop i, ¬ l.linker.Writes t (d.address.toNat + b)) →
        l'.memory.byteAt (s.address.toNat + b) =
          l'.memory.byteAt (d.address.toNat + b))) := by
  obtain ⟨memory, hlinks, rfl⟩ := links_of_link h
  obtain ⟨rest, hrest⟩ := ObjectGraph.exists_sites_eq hroot
  obtain ⟨hi, rfl⟩ := List.getElem?_eq_some_iff.1 hs
  have hbefore : l.graph.sites.take i = root.sites.take i := by
    rw [hrest, List.take_append_of_le_length hi.le]
  have hbehind : l.graph.sites.drop i = root.sites[i] :: l.graph.sites.drop (i + 1) := by
    have hat : l.graph.sites[i]? = some root.sites[i] := by
      rw [hrest, List.getElem?_append_left hi, List.getElem?_eq_getElem hi]
    obtain ⟨hlt, hat⟩ := List.getElem?_eq_some_iff.1 hat
    rw [← hat, List.getElem_cons_drop]
  have hsplit : l.graph.sites =
      root.sites.take i ++ root.sites[i] :: l.graph.sites.drop (i + 1) := by
    rw [← hbehind, ← hbefore, List.take_append_drop]
  have hfree : ∀ t ∈ root.sites.take i ++ l.graph.sites.drop (i + 1),
      ¬ l.linker.Writes t (root.sites[i].address.toNat + b) := by
    rw [← hbefore]
    exact forall_mem_others fun j t ht hj => hothers j t ht hj b hb
  rw [hsplit] at hlinks
  refine ⟨fun hzero => hlinks.byteAt_of_zero hcopy hd hzero hfree, fun hne => ?_⟩
  have hcopied := hlinks.byteAt_of_split hcopy hd hne hb
    fun t ht => hfree t (List.mem_append_right _ ht)
  obtain ⟨m₁, hfirst, hlast⟩ := Linker.Links.append_iff.1 hlinks
  rw [← hfirst.eq_memoryAfter] at hcopied ⊢
  refine ⟨hcopied, ?_, ?_⟩
  · intro hearlier
    exact hcopied.trans (hfirst.frame.2 _ hearlier)
  · intro hlater
    rw [hbehind] at hlater
    exact hcopied.trans (hlast.frame.2 _ hlater).symm

end Loader

/-! ### A program with a copy -/

/-- The loader for the program. -/
def Loader.copyLoader : Loader := new .standard .arm (.zeroed 0x100000)

namespace CopyLoaded

variable {l : Loader} (h : CopyLoaded l)

include h

theorem root?_eq : l.graph.root? = some copyRoot := by
  rw [ObjectGraph.root?_eq_getElem?, h.toList_eq]
  rfl

/-- No relocation but the copy writes its target. -/
theorem not_writes_target (haction : l.processor.action? copiedSite.entry.type = some .relative)
    (j : Nat) (t : Site) (ht : l.graph.sites[j]? = some t) (hj : j ≠ 0) (b : Nat) (hb : b < 8) :
    ¬ l.linker.Writes t (copySite.address.toNat + b) := by
  obtain ⟨-, haddress, -⟩ := copyRoot_facts
  obtain ⟨j, rfl⟩ := Nat.exists_eq_succ_of_ne_zero hj
  rw [h.sites_eq, List.getElem?_cons_succ] at ht
  obtain rfl := List.mem_singleton.1 (List.mem_of_getElem? ht)
  refine not_writes_copiedSite haction (.inl ?_)
  rw [haddress]
  change 0x10f0 + b < 0x20e4
  omega

end CopyLoaded

theorem getElem?_sites_copyRoot : copyRoot.sites[0]? = some copySite := by
  rw [sites_copyRoot.1]
  rfl

namespace Loader

/-- **The letters are copied**: no relocation writes them. -/
theorem copied_of_link_copyLoader : ∃ entry l l' count l'',
    (initiate copyFiles "a").Yields copyLoader entry l ∧
      (loadLibraries copyFiles).Yields l () l' ∧ link.Yields l' count l'' ∧
      ∀ b, 4 ≤ b → b < 8 → l''.memory.byteAt (0x10f0 + b) = l''.memory.byteAt (0x20e4 + b) := by
  obtain ⟨entry, l, l', hinitiate, hload, h, haction⟩ :=
    exists_copyLoaded_arm (.zeroed 0x100000) rfl
  obtain ⟨m, m', -, -, -, hlink⟩ := h.exists_link haction
  refine ⟨entry, l, l', _, _, hinitiate, hload, hlink, ?_⟩
  intro b hlow hhigh
  obtain ⟨-, haddress, -⟩ := copyRoot_facts
  obtain ⟨-, hcopied⟩ := copied_of_link hlink h.root?_eq getElem?_sites_copyRoot h.action?_copySite
    h.target_copySite (h.not_writes_target haction) hhigh
  obtain ⟨-, -, hfinal⟩ := hcopied (by decide)
  rw [haddress] at hfinal
  refine hfinal ?_
  rw [h.sites_eq]
  intro t ht
  rcases List.mem_cons.1 ht with rfl | ht
  · refine h.not_writes_copySite (.inr ?_)
    change 0x10f8 ≤ 0x20e4 + b
    omega
  · obtain rfl := List.mem_singleton.1 ht
    exact CopyLoaded.not_writes_copiedSite haction (.inr (Nat.add_le_add_left hlow 0x20e4))

/-- **The address is not**: the executable's copy of the variable begins with the byte that was
loaded, and the variable itself with that of its relocated address. The copy has a target of its
own, which no other relocation writes. -/
theorem byteAt_of_link_copyLoader : ∃ entry l l' count l'',
    (initiate copyFiles "a").Yields copyLoader entry l ∧
      (loadLibraries copyFiles).Yields l () l' ∧ link.Yields l' count l'' ∧
      l'.graph.root? = some copyRoot ∧ copySite ∈ copyRoot.sites ∧
      l'.processor.action? copySite.entry.type = some .copy ∧
      (l'.linker.target copyRoot copySite.entry 0).result = .ok (some ⟨0x20e4, 8⟩) ∧
      copySite.address = 0x10f0 ∧
      (∀ (j : Nat) (t : Site), l'.graph.sites[j]? = some t → j ≠ 0 →
        ∀ b, b < 8 → ¬ l'.linker.Writes t (copySite.address.toNat + b)) ∧
      l''.memory.byteAt 0x10f0 ≠ l''.memory.byteAt 0x20e4 := by
  obtain ⟨entry, l, l', hinitiate, hload, h, haction⟩ :=
    exists_copyLoaded_arm (.zeroed 0x100000) rfl
  obtain ⟨m, m', hcopy, hrelocation, hvariable, hlink⟩ := h.exists_link haction
  obtain ⟨-, haddress, -⟩ := copyRoot_facts
  refine ⟨entry, l, l', _, _, hinitiate, hload, hlink, h.root?_eq,
    List.mem_of_getElem? getElem?_sites_copyRoot, h.action?_copySite, h.target_copySite, haddress,
    h.not_writes_target haction, ?_⟩
  have hkept : m'.byteAt 0x10f0 = m.byteAt 0x10f0 := (Linker.frame_linkEntry hrelocation).2 _
    (CopyLoaded.not_writes_copiedSite haction (.inl (by decide)))
  have hcopied := Linker.byteAt_of_copy hcopy h.action?_copySite h.target_copySite (by decide)
    0x10f0
  rw [haddress, if_pos (by decide)] at hcopied
  change m'.byteAt 0x10f0 ≠ m'.byteAt 0x20e4
  rw [hkept, hcopied.trans h.byteAt_address, hvariable]
  decide

/-- **The copy changes 8 bytes at most**, as many as the library has for the variable. -/
theorem changed_of_copy_copyLoader : ∃ entry l l',
    (initiate copyFiles "a").Yields copyLoader entry l ∧
      (loadLibraries copyFiles).Yields l () l' ∧
      ∀ a, ((l'.linker.linkEntry copyRoot 0 copySite.entry).run l'.memory).state.byteAt a ≠
        l'.memory.byteAt a → 0x10f0 ≤ a ∧ a < 0x10f8 := by
  obtain ⟨entry, l, l', hinitiate, hload, h, -⟩ := exists_copyLoaded_arm (.zeroed 0x100000) rfl
  obtain ⟨-, haddress, -⟩ := copyRoot_facts
  refine ⟨entry, l, l', hinitiate, hload, ?_⟩
  intro a ha
  obtain ⟨hchanged, -⟩ :=
    Linker.changed_of_copy h.action?_copySite h.target_copySite l'.memory
  obtain ⟨hlow, hhigh, -⟩ := hchanged a ha
  rw [haddress] at hlow hhigh
  exact ⟨hlow, hhigh⟩

/-- **The copy changes a byte behind the variable of the executable**, which has set aside 4 bytes
for it. -/
theorem changed_behind_copyLoader : ∃ entry l l',
    (initiate copyFiles "a").Yields copyLoader entry l ∧
      (loadLibraries copyFiles).Yields l () l' ∧
      l'.processor.action? copySite.entry.type = some .copy ∧
      copyRoot.object.symbols.get? copySite.entry.symbolIndex =
        some ⟨"v", 240, 4, .object, .global, .standard, .sectionAt 1⟩ ∧
      (l'.linker.target copyRoot copySite.entry 0).result = .ok (some ⟨0x20e4, 8⟩) ∧
      copySite.address = 0x10f0 ∧
      ((l'.linker.linkEntry copyRoot 0 copySite.entry).run l'.memory).state.byteAt 0x10f4 ≠
        l'.memory.byteAt 0x10f4 := by
  obtain ⟨entry, l, l', hinitiate, hload, h, -⟩ := exists_copyLoaded_arm (.zeroed 0x100000) rfl
  obtain ⟨⟨hget, -⟩, haddress, -⟩ := copyRoot_facts
  refine ⟨entry, l, l', hinitiate, hload, h.action?_copySite, hget, h.target_copySite, haddress, ?_⟩
  obtain ⟨m, hcopy⟩ := h.exists_copy h.size_memory
  have hcopied := Linker.byteAt_of_copy hcopy h.action?_copySite h.target_copySite (by decide)
    0x10f4
  rw [haddress, if_pos (by decide)] at hcopied
  have hletter : m.byteAt 0x10f4 = 0x63 := hcopied.trans h.byteAt_letter
  rw [show ((l'.linker.linkEntry copyRoot 0 copySite.entry).run l'.memory).state = m from hcopy.2,
    hletter, h.byteAt_behind]
  decide

end Loader

end ElfLoader
