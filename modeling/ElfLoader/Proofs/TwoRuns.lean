import ElfLoader.Proofs.Conditions

/-!
# Two runs side by side

That two states are the same to some work cannot be said of one run of it. It takes two runs,
one from each state, which come out *alike* (`ElfLoader.Stage.Alike`): both give results that
correspond, or both fail with one error, and the states that they leave are related. Each kind
of step has a rule, as it has for the conditions that a single run ensures, and the rule for
work of two steps is the one that carries all others along (`ElfLoader.Stage.Alike.bind`).
-/

namespace ElfLoader

variable {ε α β γ δ σ τ : Type}

/-- **Two results correspond**: they are related successes or one and the same error. -/
inductive Corresponds (A : α → β → Prop) : Except ε α → Except ε β → Prop
  /-- Both succeed. -/
  | ok {a : α} {b : β} (related : A a b) : Corresponds A (.ok a) (.ok b)
  /-- Both fail. -/
  | error (e : ε) : Corresponds A (.error e) (.error e)

namespace Corresponds

variable {A B : α → β → Prop} {x : Except ε α} {y : Except ε β}

theorem refl (x : Except ε α) : Corresponds Eq x x := by
  cases x with
  | ok a => exact .ok rfl
  | error e => exact .error e

theorem eq {x y : Except ε α} (h : Corresponds Eq x y) : x = y := by
  cases h with
  | ok related => exact congrArg Except.ok related
  | error e => rfl

theorem iff_ok_or_error : Corresponds A x y ↔
    (∃ a b, x = .ok a ∧ y = .ok b ∧ A a b) ∨ ∃ e, x = .error e ∧ y = .error e := by
  constructor
  · rintro (related | e)
    · exact .inl ⟨_, _, rfl, rfl, related⟩
    · exact .inr ⟨e, rfl, rfl⟩
  · rintro (⟨a, b, rfl, rfl, related⟩ | ⟨e, rfl, rfl⟩)
    · exact .ok related
    · exact .error e

theorem bind {C : γ → δ → Prop} {f : α → Except ε γ} {g : β → Except ε δ}
    (h : Corresponds A x y) (hf : ∀ a b, A a b → Corresponds C (f a) (g b)) :
    Corresponds C (x >>= f) (y >>= g) := by
  cases h with
  | ok related => exact hf _ _ related
  | error e => exact .error e

end Corresponds

namespace Stage

/-- **Two runs are alike** if what comes out of them corresponds, and so do the states that
they leave, whatever comes out. -/
structure Alike (x : Stage σ α) (s : σ) (y : Stage τ β) (t : τ) (A : α → β → Prop)
    (R : σ → τ → Prop) : Prop where
  /-- What comes out. -/
  result : Corresponds A (x.run s).result (y.run t).result
  /-- What is left behind. -/
  state : R (x.run s).state (y.run t).state

variable {s : σ} {t : τ} {A : α → β → Prop} {R : σ → τ → Prop}

/-- A run is like itself. -/
theorem Alike.refl (x : Stage σ α) (s : σ) : x.Alike s x s Eq Eq := ⟨.refl _, rfl⟩

theorem alike_pure {a : α} {b : β} (h : A a b) (hR : R s t) :
    (pure a : Stage σ α).Alike s (pure b : Stage τ β) t A R := ⟨.ok h, hR⟩

/-- **Runs of two steps are alike** if their first steps are, and if their second steps are from
wherever the first ones stop. -/
theorem Alike.bind {B : γ → δ → Prop} {x : Stage σ α} {y : Stage τ β} {f : α → Stage σ γ}
    {g : β → Stage τ δ} (h : x.Alike s y t A R)
    (hf : ∀ a b s' t', A a b → R s' t' → (f a).Alike s' (g b) t' B R) :
    (x >>= f).Alike s (y >>= g) t B R := by
  obtain ⟨hresult, hstate⟩ := h
  rcases Corresponds.iff_ok_or_error.1 hresult with ⟨a, b, hx, hy, hab⟩ | ⟨e, hx, hy⟩
  · have hrest := hf a b _ _ hab hstate
    constructor
    · rw [run_bind, run_bind, hx, hy]
      exact hrest.result
    · rw [state_bind_of_ok hx, state_bind_of_ok hy]
      exact hrest.state
  · constructor
    · rw [run_bind_of_error hx, run_bind_of_error hy]
      exact .error e
    · rw [run_bind_of_error hx, run_bind_of_error hy]
      exact hstate

theorem alike_state (h : R s t) : (state : Stage σ σ).Alike s (state : Stage τ τ) t R R :=
  ⟨.ok h, h⟩

theorem alike_ofExcept {x : Except LoadError α} {y : Except LoadError β} (h : Corresponds A x y)
    (hR : R s t) : (ofExcept x : Stage σ α).Alike s (ofExcept y : Stage τ β) t A R := ⟨h, hR⟩

theorem alike_ofReport (x : Report α) (hR : R s t) :
    (ofReport x : Stage σ α).Alike s (ofReport x : Stage τ α) t Eq R := ⟨.refl _, hR⟩

/-- Changes are alike if both can be made or neither of them can. -/
theorem alike_attempt {f : σ → Except LoadError σ} {g : τ → Except LoadError τ}
    (h : Corresponds R (f s) (g t)) (hR : R s t) : (attempt f).Alike s (attempt g) t Eq R := by
  rcases Corresponds.iff_ok_or_error.1 h with ⟨s', t', hf, hg, hR'⟩ | ⟨e, hf, hg⟩
  · constructor
    · rw [run_attempt_of_ok hf, run_attempt_of_ok hg]
      exact .ok rfl
    · rw [run_attempt_of_ok hf, run_attempt_of_ok hg]
      exact hR'
  · constructor
    · simp only [attempt, run, hf, hg]
      exact .error e
    · simp only [attempt, run, hf, hg]
      exact hR

theorem Alike.rewording {x : Stage σ α} {y : Stage τ β} (h : x.Alike s y t A R)
    (f : LoadError → LoadError) : (Stage.rewording f x).Alike s (Stage.rewording f y) t A R := by
  refine ⟨?_, h.state⟩
  change Corresponds A ((x.run s).result.mapError f) ((y.run t).result.mapError f)
  rcases Corresponds.iff_ok_or_error.1 h.result with ⟨a, b, hx, hy, hab⟩ | ⟨e, hx, hy⟩
  · rw [hx, hy]
    exact .ok hab
  · rw [hx, hy]
    exact .error (f e)

end Stage

end ElfLoader
