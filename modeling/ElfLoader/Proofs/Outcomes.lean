import ElfLoader.Report

/-!
# Taking successful work apart

Work that succeeds has done all of its steps. The lemmas here say so for the three kinds
of work, `Except`, `ElfLoader.Report` and `ElfLoader.Stage`, so that a run of many steps
is opened one step at a time. For a stage, `ElfLoader.Stage.Yields` keeps the result and
the state that it leaves together.
-/

namespace ElfLoader

variable {ε α β σ τ : Type}

/-- Two steps succeed if both do. -/
theorem bind_eq_ok_iff {x : Except ε α} {f : α → Except ε β} {b : β} :
    (x >>= f) = .ok b ↔ ∃ a, x = .ok a ∧ f a = .ok b := by
  cases x <;> simp [bind, Except.bind]

/-- Two steps fail if one of them does. -/
theorem bind_eq_error_iff {x : Except ε α} {f : α → Except ε β} {e : ε} :
    (x >>= f) = .error e ↔ x = .error e ∨ ∃ a, x = .ok a ∧ f a = .error e := by
  cases x <;> simp [bind, Except.bind]

/-- Rewording an error changes no success. -/
theorem mapError_eq_ok_iff {ε' : Type} {x : Except ε α} {f : ε → ε'} {a : α} :
    x.mapError f = .ok a ↔ x = .ok a := by
  cases x with
  | ok b =>
    change Except.ok b = .ok a ↔ _
    rw [Except.ok.injEq, Except.ok.injEq]
  | error e =>
    change Except.error (f e) = .ok a ↔ _
    simp only [reduceCtorEq]

/-- Rewording an error leaves an error. -/
theorem mapError_eq_error_iff {ε' : Type} {x : Except ε α} {f : ε → ε'} {e : ε'} :
    x.mapError f = .error e ↔ ∃ e', x = .error e' ∧ f e' = e := by
  cases x with
  | ok a =>
    change Except.ok a = .error e ↔ _
    simp only [reduceCtorEq, false_and, exists_false]
  | error e' =>
    change Except.error (f e') = .error e ↔ _
    simp only [Except.error.injEq, exists_eq_left']

/-- A success that is known to be one. -/
theorem eq_ok_get {x : Except ε α} (h : x.toOption.isSome) : x = .ok (x.toOption.get h) := by
  cases x with
  | ok a => rfl
  | error e => cases h

/-- Two reports succeed if both do. -/
theorem Report.result_bind_eq_ok_iff {x : Report α} {f : α → Report β} {b : β} :
    (x >>= f).result = .ok b ↔ ∃ a, x.result = .ok a ∧ (f a).result = .ok b := by
  rw [Report.result_bind, bind_eq_ok_iff]

/-- The same if the first gives no notices. -/
theorem Report.result_lift_bind_eq_ok_iff {x : Except LoadError α} {f : α → Report β} {b : β} :
    ((liftM x : Report α) >>= f).result = .ok b ↔ ∃ a, x = .ok a ∧ (f a).result = .ok b :=
  Report.result_bind_eq_ok_iff

/-- Two reports fail if one of them does. -/
theorem Report.result_bind_eq_error_iff {x : Report α} {f : α → Report β} {e : LoadError} :
    (x >>= f).result = .error e ↔
      x.result = .error e ∨ ∃ a, x.result = .ok a ∧ (f a).result = .error e := by
  rw [Report.result_bind, bind_eq_error_iff]

namespace Stage

variable {s s' : σ} {a : α} {b : β}

/-! ### Runs that are known -/

/-- A run whose first stage succeeds goes on with the second. -/
theorem run_bind_of_ok {x : Stage σ α} {f : α → Stage σ β} {ns : List Notice}
    (h : x.run s = ⟨.ok a, s', ns⟩) :
    (x >>= f).run s =
      ⟨((f a).run s').result, ((f a).run s').state, ns ++ ((f a).run s').notices⟩ := by
  rw [run_bind, h]

/-- A run whose first stage fails is that of the first stage. -/
theorem run_bind_of_run_error {x : Stage σ α} {f : α → Stage σ β} {e : LoadError}
    {ns : List Notice} (h : x.run s = ⟨.error e, s', ns⟩) :
    (x >>= f).run s = ⟨.error e, s', ns⟩ := by
  rw [run_bind, h]

/-- Two runs are the same if their first stages are, and what comes after them. -/
theorem run_bind_congr {x y : Stage σ α} {f g : α → Stage σ β} (h : x.run s = y.run s)
    (hf : ∀ a, (y.run s).result = .ok a → (f a).run (y.run s).state = (g a).run (y.run s).state) :
    (x >>= f).run s = (y >>= g).run s := by
  rw [run_bind, run_bind, h]
  cases hy : (y.run s).result with
  | ok a =>
    dsimp only
    rw [hf a hy]
  | error e => rfl

/-- A change that succeeds. -/
theorem run_attempt_of_ok {f : σ → Except LoadError σ} (h : f s = .ok s') :
    (attempt f).run s = ⟨.ok (), s', []⟩ := by
  simp only [attempt, run, h]

/-- A change that fails leaves the state alone. -/
theorem run_attempt_of_error {f : σ → Except LoadError σ} {e : LoadError} (h : f s = .error e) :
    (attempt f).run s = ⟨.error e, s, []⟩ := by
  simp only [attempt, run, h]

/-- Two stages fail if one of them does. -/
theorem result_bind_eq_error_iff {x : Stage σ α} {f : α → Stage σ β} {e : LoadError} :
    ((x >>= f).run s).result = .error e ↔ (x.run s).result = .error e ∨
      ∃ a, (x.run s).result = .ok a ∧ ((f a).run (x.run s).state).result = .error e := by
  rw [run_bind]
  cases (x.run s).result <;> simp

theorem result_rewording_eq_error_iff {x : Stage σ α} {f : LoadError → LoadError}
    {e : LoadError} : ((rewording f x).run s).result = .error e ↔
      ∃ e', (x.run s).result = .error e' ∧ f e' = e :=
  mapError_eq_error_iff

/-! ### Runs that succeed -/

/-- **Work succeeds with a result and leaves a state.** -/
def Yields (x : Stage σ α) (s : σ) (a : α) (s' : σ) : Prop :=
  (x.run s).result = .ok a ∧ (x.run s).state = s'

theorem yields_of_run {x : Stage σ α} {ns : List Notice} (h : x.run s = ⟨.ok a, s', ns⟩) :
    x.Yields s a s' := by
  rw [Yields, h]
  exact ⟨rfl, rfl⟩

/-- **Two stages succeed if both do**, the second from where the first stopped. -/
theorem yields_bind_iff {x : Stage σ α} {f : α → Stage σ β} :
    (x >>= f).Yields s b s' ↔ ∃ a s₁, x.Yields s a s₁ ∧ (f a).Yields s₁ b s' := by
  unfold Yields
  rw [run_bind]
  cases hx : (x.run s).result with
  | ok a =>
    dsimp only
    constructor
    · exact fun h => ⟨a, _, ⟨rfl, rfl⟩, h⟩
    · rintro ⟨_, _, ⟨ha, rfl⟩, h⟩
      cases ha
      exact h
  | error e => simp

@[simp] theorem yields_pure_iff {c : α} :
    (pure a : Stage σ α).Yields s c s' ↔ a = c ∧ s = s' := by
  simp [Yields]

@[simp] theorem yields_state_iff {t : σ} : (state : Stage σ σ).Yields s t s' ↔ s = t ∧ s = s' := by
  simp [Yields]

@[simp] theorem yields_update_iff {f : σ → σ} {u : Unit} :
    (update f).Yields s u s' ↔ f s = s' := by
  simp [Yields]

@[simp] theorem yields_notes_iff {ns : List Notice} {u : Unit} :
    (notes ns : Stage σ Unit).Yields s u s' ↔ s = s' := by
  simp [Yields]

@[simp] theorem yields_ofExcept_iff {x : Except LoadError α} :
    (ofExcept x : Stage σ α).Yields s a s' ↔ x = .ok a ∧ s = s' := by
  simp [Yields]

@[simp] theorem yields_ofReport_iff {x : Report α} :
    (ofReport x : Stage σ α).Yields s a s' ↔ x.result = .ok a ∧ s = s' := by
  simp [Yields]

@[simp] theorem yields_attempt_iff {f : σ → Except LoadError σ} {u : Unit} :
    (attempt f).Yields s u s' ↔ f s = .ok s' := by
  cases hs : f s with
  | ok t => simp [Yields, run_attempt_of_ok hs]
  | error e => simp [Yields, attempt, run, hs]

@[simp] theorem yields_within_iff {part : σ → τ} {put : τ → σ → σ} {x : Stage τ α} :
    (within part put x).Yields s a s' ↔ ∃ t, x.Yields (part s) a t ∧ put t s = s' := by
  change (x.run (part s)).result = .ok a ∧ put (x.run (part s)).state s = s' ↔ _
  constructor
  · exact fun ⟨hresult, hstate⟩ => ⟨_, ⟨hresult, rfl⟩, hstate⟩
  · rintro ⟨_, ⟨hresult, rfl⟩, hstate⟩
    exact ⟨hresult, hstate⟩

@[simp] theorem yields_rewording_iff {x : Stage σ α} {f : LoadError → LoadError} :
    (rewording f x).Yields s a s' ↔ x.Yields s a s' := by
  change ((x.run s).result.mapError f = .ok a ∧ (x.run s).state = s') ↔ _
  rw [mapError_eq_ok_iff, Yields]

end Stage

end ElfLoader
