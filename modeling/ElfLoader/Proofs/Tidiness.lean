import ElfLoader.Proofs.Layout
import ElfLoader.Proofs.Registry

/-!
# Addresses are kept in order

Addresses get owners while objects are placed, and what has been reserved stays reserved should a
later step fail. All the same the map of the owners is in order after any calls of phases, whether
they succeed or fail: it stays coherent, and it never gets larger than the address space
(`ElfLoader.Loader.tidy_afterAll`). A page size that is no power of two does not get past the first
phase, and not even to the executable
(`ElfLoader.Loader.run_initiate_of_not_isPowerOfTwo`).
-/

namespace ElfLoader.Loader

variable {fs : FileSystem} {name path : String} {config : Config} {processor : Processor}
  {memory : Memory} {l l' l'' : Loader} {o : Object} {n : Node} {r : Request}

/-! ### Work that reserves -/

/-- **Work reserves in order**: the settings and the phase stay, and so does a map that is coherent,
but for what is reserved. -/
structure Remaps (l l' : Loader) : Prop where
  /-- The settings stay. -/
  config_eq : l'.config = l.config
  /-- The phase stays. -/
  phase_eq : l'.phase = l.phase
  /-- The map stays coherent, and as large as it is. -/
  coherent : l.map.Coherent → l'.map.Coherent ∧ l'.map.size = l.map.size

/-- Nothing happens to the map. -/
theorem Remaps.of_map_eq (hconfig : l'.config = l.config) (hphase : l'.phase = l.phase)
    (hmap : l'.map = l.map) : l.Remaps l' :=
  ⟨hconfig, hphase, fun h => ⟨hmap.symm ▸ h, congrArg AddressMap.size hmap⟩⟩

theorem Remaps.refl (l : Loader) : l.Remaps l := .of_map_eq rfl rfl rfl

theorem Remaps.trans (h : l.Remaps l') (h' : l'.Remaps l'') : l.Remaps l'' where
  config_eq := h'.config_eq.trans h.config_eq
  phase_eq := h'.phase_eq.trans h.phase_eq
  coherent hl := by
    obtain ⟨hcoherent, hsize⟩ := h.coherent hl
    obtain ⟨hcoherent', hsize'⟩ := h'.coherent hcoherent
    exact ⟨hcoherent', hsize'.trans hsize⟩

/-- Work that reserves in order from anywhere does so behind other work. -/
theorem preserves_remaps {α : Type} {x : Work α}
    (hx : ∀ k : Loader, x.Ensures k (fun _ => k.Remaps) k.Remaps) : x.Preserves l.Remaps :=
  fun k hk => (hx k).mono (fun _ _ => hk.trans) fun _ => hk.trans

theorem preserves_remaps_claim {f : AddressMap → Except LoadError AddressMap}
    (hf : ∀ m m', m.Coherent → f m = .ok m' → m'.Coherent ∧ m'.size = m.size) :
    (claim f).Preserves l.Remaps := by
  refine Stage.preserves_attempt ?_
  intro k k' hk h
  obtain ⟨map, hmap, h⟩ := bind_eq_ok_iff.1 h
  cases h
  exact hk.trans ⟨rfl, rfl, fun hcoherent => hf _ _ hcoherent hmap⟩

theorem preserves_remaps_noteLibrary (name : String) (o : Object) :
    (noteLibrary name o).Preserves l.Remaps := by
  refine (Stage.preserves_ofReport _).bind ?_
  rintro (_ | symbols)
  · exact Stage.preserves_pure ()
  · refine (preserves_report _).bind ?_
    rintro _ k hk
    exact Stage.ensures_update (hk.trans (.of_map_eq rfl rfl rfl))

theorem preserves_remaps_settle (name : String) (o : Object) :
    (settle name o).Preserves l.Remaps := by
  refine preserves_remaps fun k => ⟨fun n k' h => ?_, fun e _ => ?_⟩
  · obtain ⟨address, map, memory, hmap, -, rfl⟩ := of_settle h
    exact ⟨rfl, rfl, fun hk => coherent_of_reserveFor hk hmap⟩
  · -- what has been reserved stays so when the segments cannot be put there
    unfold settle Stage.run
    dsimp only
    split
    · exact .refl k
    · next hmap => split <;> exact ⟨rfl, rfl, fun hk => coherent_of_reserveFor hk hmap⟩

theorem preserves_remaps_enroll (fs : FileSystem) (n : Node) :
    (enroll fs n).Preserves l.Remaps := by
  refine preserves_remaps fun k => ⟨fun key k' h => ?_, fun e he => ?_⟩
  · obtain ⟨g, -, rfl⟩ := yields_enroll_iff.1 h
    exact .of_map_eq rfl rfl rfl
  · unfold enroll Stage.run at he ⊢
    dsimp only at he ⊢
    split <;> exact .of_map_eq rfl rfl rfl

theorem preserves_remaps_place (fs : FileSystem) (name : String) (o : Object) :
    (place fs name o).Preserves l.Remaps :=
  (preserves_remaps_settle name o).bind fun n => preserves_remaps_enroll fs n

theorem preserves_remaps_bring (fs : FileSystem) (name path : String) :
    (bring fs name path).Preserves l.Remaps := by
  refine Stage.preserves_state.bind fun _ => ?_
  refine (Stage.preserves_ofReport _).bind fun o => ?_
  exact (Stage.preserves_ofExcept _).bind fun _ => preserves_remaps_place fs name o

theorem preserves_remaps_serve (fs : FileSystem) (r : Request) :
    (serve fs r).Preserves l.Remaps := by
  refine preserves_remaps fun k => ensures_serve_cases ?_ ?_ ?_ ?_
  · exact fun _ _ => .of_map_eq rfl rfl rfl
  · exact fun _ _ => .refl k
  · exact fun _ _ _ _ _ => .of_map_eq rfl rfl rfl
  · intro path _ _ _
    exact (preserves_remaps_bring fs r.name path k (.refl k)).mono
      (fun _ _ h => h.trans (.of_map_eq rfl rfl rfl)) fun _ => id

/-! ### Phases -/

/-- **A loader is in order**: its map is coherent and within the address space, and its page size
has been checked, unless the first phase is not over. -/
structure Tidy (l : Loader) : Prop where
  /-- The map is coherent. -/
  coherent : l.map.Coherent
  /-- It is within the address space. -/
  size_le : l.map.size ≤ addressSpace
  /-- The page size is a power of two once it has been checked. -/
  pageSize : l.phase ≠ .created → isPowerOfTwo l.config.pageSize.toNat

theorem tidy_new (config : Config) (processor : Processor) (memory : Memory) :
    (new config processor memory).Tidy where
  coherent := AddressMap.coherent_free _
  size_le := Nat.min_le_right _ _
  pageSize h := absurd rfl h

theorem Remaps.tidy (h : l.Remaps l') (hl : l.Tidy) : l'.Tidy where
  coherent := (h.coherent hl.coherent).1
  size_le := (h.coherent hl.coherent).2.trans_le hl.size_le
  pageSize hphase := by
    rw [h.config_eq]
    exact hl.pageSize (h.phase_eq ▸ hphase)

/-- A loader in order may get further if its page size has been checked. -/
theorem Tidy.congr (h : l.Tidy) (hconfig : l'.config = l.config) (hmap : l'.map = l.map)
    (hchecked : isPowerOfTwo l.config.pageSize.toNat) : l'.Tidy where
  coherent := hmap ▸ h.coherent
  size_le := hmap ▸ h.size_le
  pageSize _ := hconfig ▸ hchecked

/-- **A page size that is no power of two is refused** before any file is opened. -/
theorem run_initiate_of_not_isPowerOfTwo (h : ¬ isPowerOfTwo l.config.pageSize.toNat)
    (fs : FileSystem) (path : String) : ∃ e, (initiate fs path).run l = ⟨.error e, l, []⟩ := by
  by_cases hphase : l.phase = .created
  · have hcheck : ∃ e, (Stage.ofExcept l.config.check : Work Unit).run l = ⟨.error e, l, []⟩ := by
      rw [Config.check, ensure, if_neg h]
      exact ⟨_, rfl⟩
    obtain ⟨e, he⟩ := hcheck
    refine ⟨e, ?_⟩
    rw [initiate, Stage.run_bind_of_ok (run_enter_of_phase hphase _),
      Stage.run_bind_of_ok (Stage.run_state l), Stage.run_bind_of_run_error he]
    rfl
  · exact ⟨_, Stage.run_bind_of_run_error (run_enter_of_phase_ne hphase _)⟩

theorem preserves_tidy_initiate (fs : FileSystem) (path : String) :
    (initiate fs path).Preserves Tidy := by
  intro l h
  have herror : ∀ l', l.Remaps l' → l'.Tidy := fun _ hl' => hl'.tidy h
  refine Stage.ensures_bind (ensures_enter h _ _) ?_
  rintro _ l ⟨rfl, hphase⟩
  refine Stage.ensures_bind (Stage.ensures_state (Q := fun k l' => l = k ∧ l = l') ⟨rfl, rfl⟩) ?_
  rintro _ _ ⟨rfl, rfl⟩
  refine Stage.ensures_bind (Stage.ensures_ofExcept
    (Q := fun _ l' => isPowerOfTwo l.config.pageSize.toNat ∧ l = l')
    (fun _ hcheck => ⟨(ensure_eq_ok_iff ..).1 hcheck, rfl⟩) h) ?_
  rintro _ _ ⟨hchecked, rfl⟩
  -- from here on work reserves in order, until the phase is over
  refine Stage.ensures_bind
    ((Stage.preserves_ofReport _ l (.refl l)).mono (fun _ _ => id) herror) ?_
  intro o l₁ h₁
  refine Stage.ensures_bind ((Stage.preserves_ofExcept _ l₁ h₁).mono (fun _ _ => id) herror) ?_
  intro _ l₂ h₂
  refine Stage.ensures_bind (R := fun _ => l.Remaps)
    (Stage.ensures_update (h₂.trans (.of_map_eq rfl rfl rfl))) ?_
  intro _ l₃ h₃
  refine Stage.ensures_bind ((preserves_remaps_claim (fun m m' hm hclaim =>
    ⟨(coherent_of_reserveStack hm hclaim).1, (coherent_of_reserveStack hm hclaim).2.1⟩)
    l₃ h₃).mono (fun _ _ => id) herror) ?_
  intro _ l₄ h₄
  refine Stage.ensures_bind ((preserves_remaps_claim (fun m m' hm hclaim =>
    coherent_of_reserveGuard hm hclaim) l₄ h₄).mono (fun _ _ => id) herror) ?_
  intro _ l₅ h₅
  refine Stage.ensures_bind
    ((preserves_remaps_noteLibrary _ o l₅ h₅).mono (fun _ _ => id) herror) ?_
  intro _ l₆ h₆
  refine Stage.ensures_bind ((preserves_noteInterpreter o l₆ h₆).mono (fun _ _ => id) herror) ?_
  intro _ l₇ h₇
  refine Stage.ensures_bind ((preserves_remaps_place fs _ o l₇ h₇).mono (fun _ _ => id) herror) ?_
  intro key l₈ h₈
  have hchecked' : isPowerOfTwo l₈.config.pageSize.toNat := by rwa [h₈.config_eq]
  refine Stage.ensures_bind (R := fun _ => Tidy)
    (Stage.ensures_update ((h₈.tidy h).congr rfl rfl hchecked')) ?_
  intro _ l₉ h₉
  exact (Stage.preserves_state.bind fun _ => Stage.preserves_pure _) l₉ h₉

theorem preserves_tidy_loadLibraries (fs : FileSystem) :
    (loadLibraries fs).Preserves Tidy := by
  intro l h
  have herror : ∀ l', l.Remaps l' → l'.Tidy := fun _ hl' => hl'.tidy h
  refine Stage.ensures_bind (ensures_enter h _ _) ?_
  rintro _ l ⟨rfl, hphase⟩
  have hchecked := h.pageSize (by simp [hphase])
  refine Stage.ensures_bind (Stage.preserves_state l (.refl l) |>.mono (fun _ _ => id) herror) ?_
  intro k l₁ h₁
  refine Stage.ensures_bind
    ((preserves_serveAll (preserves_remaps_serve fs) _ l₁ h₁).mono (fun _ _ => id) herror) ?_
  intro _ l₂ h₂
  refine Stage.ensures_bind (Stage.preserves_state l₂ h₂ |>.mono (fun _ _ => id) herror) ?_
  intro k l₃ h₃
  refine Stage.ensures_bind ((Stage.preserves_ofReport _ l₃ h₃).mono (fun _ _ => id) herror) ?_
  intro _ l₄ h₄
  have hchecked' : isPowerOfTwo l₄.config.pageSize.toNat := by rwa [h₄.config_eq]
  exact Stage.ensures_update ((h₄.tidy h).congr rfl rfl hchecked')

theorem preserves_tidy_link : link.Preserves Tidy := by
  intro l h
  refine Stage.ensures_bind (ensures_enter h _ _) ?_
  rintro _ l ⟨rfl, hphase⟩
  have hchecked := h.pageSize (by simp [hphase])
  refine Stage.ensures_bind (R := fun _ => (l = ·)) (Stage.ensures_state rfl) ?_
  rintro _ _ rfl
  refine Stage.ensures_bind (R := fun _ => l.Remaps)
    (Stage.ensures_within (R := fun _ _ => True) (F := fun _ => True)
      ⟨fun _ _ _ => trivial, fun _ _ => trivial⟩ (fun _ _ _ => .of_map_eq rfl rfl rfl)
      fun _ _ => h.congr rfl rfl hchecked) ?_
  intro count l₁ h₁
  have hchecked' : isPowerOfTwo l₁.config.pageSize.toNat := by rwa [h₁.config_eq]
  refine Stage.ensures_bind (R := fun _ => Tidy)
    (Stage.ensures_update ((h₁.tidy h).congr rfl rfl hchecked')) ?_
  intro _ l₂ h₂
  exact Stage.ensures_pure h₂

theorem preserves_tidy_finalize : finalize.Preserves Tidy := by
  intro l h
  refine Stage.ensures_bind (ensures_enter h _ _) ?_
  rintro _ l ⟨rfl, hphase⟩
  have hchecked := h.pageSize (by simp [hphase])
  refine Stage.ensures_bind (R := fun _ => Tidy)
    (Stage.ensures_update (h.congr rfl rfl hchecked)) ?_
  intro _ l₁ h₁
  exact (Stage.preserves_state.bind fun _ => Stage.preserves_pure _) l₁ h₁

/-- **A call leaves a loader in order.** -/
theorem Tidy.after (h : l.Tidy) (c : Call) : (l.after c).Tidy := by
  cases c with
  | initiate fs path =>
    exact (((preserves_tidy_initiate fs path).bind fun _ => Stage.preserves_pure ()) l h).state
  | loadLibraries fs => exact (preserves_tidy_loadLibraries fs l h).state
  | link => exact ((preserves_tidy_link.bind fun _ => Stage.preserves_pure ()) l h).state
  | finalize => exact ((preserves_tidy_finalize.bind fun _ => Stage.preserves_pure ()) l h).state

/-- **Any calls leave a loader in order.** -/
theorem tidy_afterAll (config : Config) (processor : Processor) (memory : Memory)
    (calls : List Call) : ((new config processor memory).afterAll calls).Tidy := by
  have hall : ∀ (calls : List Call) (l : Loader), l.Tidy → (l.afterAll calls).Tidy := by
    intro calls
    induction calls with
    | nil => exact fun _ h => h
    | cons c calls ih => exact fun l h => ih _ (h.after c)
  exact hall calls _ (tidy_new config processor memory)

end ElfLoader.Loader
