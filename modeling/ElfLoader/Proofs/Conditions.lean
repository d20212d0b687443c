import ElfLoader.Proofs.Outcomes

/-!
# What work leaves behind

Work that fails has still done something, and the state that it leaves may be worked on
again. So what can be said of a state has to be said for both outcomes:
`ElfLoader.Stage.Ensures` is a condition for the result and the state of work that succeeds,
and one for the state of work that fails. Each kind of step has a rule, and work of two steps
ensures what its second step does (`ElfLoader.Stage.ensures_bind`).

A condition that holds in any case, and held before, is preserved
(`ElfLoader.Stage.Preserves`).
-/

namespace ElfLoader.Stage

variable {σ τ α β : Type}

/-- **What work ensures** from a state: the condition `Q` for what it gives and leaves if it
succeeds, and the condition `E` for what it leaves if it fails. -/
structure Ensures (x : Stage σ α) (s : σ) (Q : α → σ → Prop) (E : σ → Prop) : Prop where
  /-- The work succeeds. -/
  ok : ∀ a s', x.Yields s a s' → Q a s'
  /-- The work fails. -/
  error : ∀ e, (x.run s).result = .error e → E (x.run s).state

/-- **Work preserves a condition** if it holds afterwards, also after an error, whenever it
held before. -/
def Preserves (x : Stage σ α) (P : σ → Prop) : Prop := ∀ s, P s → x.Ensures s (fun _ => P) P

section Rules

variable {s : σ} {a : α} {Q Q' : α → σ → Prop} {E E' : σ → Prop}

/-- Weaker conditions are ensured too. -/
theorem Ensures.mono {x : Stage σ α} (h : x.Ensures s Q E) (hQ : ∀ a s', Q a s' → Q' a s')
    (hE : ∀ s', E s' → E' s') : x.Ensures s Q' E' :=
  ⟨fun a s' hx => hQ a s' (h.ok a s' hx), fun e hx => hE _ (h.error e hx)⟩

/-- What is preserved holds of the state that is left, whatever comes out. -/
theorem Ensures.state {x : Stage σ α} {P : σ → Prop} (h : x.Ensures s (fun _ => P) P) :
    P (x.run s).state := by
  cases hx : (x.run s).result with
  | ok a => exact h.ok a _ ⟨hx, rfl⟩
  | error e => exact h.error e hx

/-- A run that is known to succeed. -/
theorem ensures_of_ok {x : Stage σ α} {s' : σ} {ns : List Notice}
    (h : x.run s = ⟨.ok a, s', ns⟩) (hQ : Q a s') : x.Ensures s Q E where
  ok b t hb := by
    rw [Yields, h] at hb
    obtain ⟨hab, rfl⟩ := hb
    cases hab
    exact hQ
  error e he := by
    rw [h] at he
    cases he

/-- A run that is known to fail. -/
theorem ensures_of_error {x : Stage σ α} {s' : σ} {e : LoadError} {ns : List Notice}
    (h : x.run s = ⟨.error e, s', ns⟩) (hE : E s') : x.Ensures s Q E where
  ok b t hb := by
    rw [Yields, h] at hb
    cases hb.1
  error e' _ := by rwa [h]

theorem ensures_pure (h : Q a s) : (pure a : Stage σ α).Ensures s Q E where
  ok b s' hb := by
    obtain ⟨rfl, rfl⟩ := yields_pure_iff.1 hb
    exact h
  error e he := by cases he

/-- **Work of two steps** ensures what the second step does from wherever the first one
stops. -/
theorem ensures_bind {x : Stage σ α} {f : α → Stage σ β} {R : α → σ → Prop}
    {Q : β → σ → Prop} (hx : x.Ensures s R E)
    (hf : ∀ a s', R a s' → (f a).Ensures s' Q E) : (x >>= f).Ensures s Q E where
  ok b s' hb := by
    obtain ⟨a, s₁, ha, hb⟩ := yields_bind_iff.1 hb
    exact (hf a s₁ (hx.ok a s₁ ha)).ok b s' hb
  error e he := by
    cases ha : (x.run s).result with
    | error e' =>
      rw [run_bind_of_error ha]
      exact hx.error e' ha
    | ok a =>
      rw [run_bind, ha] at he
      rw [state_bind_of_ok ha]
      exact (hf a _ (hx.ok a _ ⟨ha, rfl⟩)).error e he

theorem ensures_state {Q : σ → σ → Prop} (h : Q s s) : (state : Stage σ σ).Ensures s Q E where
  ok t s' ht := by
    obtain ⟨rfl, rfl⟩ := yields_state_iff.1 ht
    exact h
  error e he := by cases he

theorem ensures_update {f : σ → σ} {Q : Unit → σ → Prop} (h : Q () (f s)) :
    (update f).Ensures s Q E where
  ok u s' hu := yields_update_iff.1 hu ▸ h
  error e he := by cases he

theorem ensures_notes {ns : List Notice} {Q : Unit → σ → Prop} (h : Q () s) :
    (notes ns : Stage σ Unit).Ensures s Q E where
  ok u s' hu := yields_notes_iff.1 hu ▸ h
  error e he := by cases he

theorem ensures_ofReport {x : Report α} (h : ∀ a, x.result = .ok a → Q a s) (herr : E s) :
    (ofReport x : Stage σ α).Ensures s Q E where
  ok a s' ha := by
    obtain ⟨hresult, rfl⟩ := yields_ofReport_iff.1 ha
    exact h a hresult
  error e _ := herr

theorem ensures_ofExcept {x : Except LoadError α} (h : ∀ a, x = .ok a → Q a s) (herr : E s) :
    (ofExcept x : Stage σ α).Ensures s Q E where
  ok a s' ha := by
    obtain ⟨hresult, rfl⟩ := yields_ofExcept_iff.1 ha
    exact h a hresult
  error e _ := herr

theorem ensures_attempt {f : σ → Except LoadError σ} {Q : Unit → σ → Prop}
    (h : ∀ s', f s = .ok s' → Q () s') (herr : E s) : (attempt f).Ensures s Q E where
  ok u s' hu := h s' (yields_attempt_iff.1 hu)
  error e he := by
    cases hs : f s with
    | ok s' =>
      rw [run_attempt_of_ok hs] at he
      cases he
    | error e' =>
      simpa only [attempt, run, hs] using herr

/-- Work on a part of the state ensures for the whole what it does for the part. -/
theorem ensures_within {part : σ → τ} {put : τ → σ → σ} {x : Stage τ α} {R : α → τ → Prop}
    {F : τ → Prop} (h : x.Ensures (part s) R F) (hQ : ∀ a t, R a t → Q a (put t s))
    (hE : ∀ t, F t → E (put t s)) : (within part put x).Ensures s Q E where
  ok a s' ha := by
    obtain ⟨t, ht, rfl⟩ := yields_within_iff.1 ha
    exact hQ a t (h.ok a t ht)
  error e he := hE _ (h.error e he)

end Rules

/-! ### What is preserved -/

variable {P : σ → Prop}

theorem preserves_pure (a : α) : (pure a : Stage σ α).Preserves P := fun _ h => ensures_pure h

/-- **Work of two steps** preserves what both of them do. -/
theorem Preserves.bind {x : Stage σ α} {f : α → Stage σ β} (hx : x.Preserves P)
    (hf : ∀ a, (f a).Preserves P) : (x >>= f).Preserves P :=
  fun s h => ensures_bind (hx s h) fun a s' h' => hf a s' h'

theorem preserves_state : (state : Stage σ σ).Preserves P := fun _ h => ensures_state h

theorem preserves_update {f : σ → σ} (h : ∀ s, P s → P (f s)) : (update f).Preserves P :=
  fun s hs => ensures_update (h s hs)

theorem preserves_notes (ns : List Notice) : (notes ns : Stage σ Unit).Preserves P :=
  fun _ h => ensures_notes h

theorem preserves_ofReport (x : Report α) : (ofReport x : Stage σ α).Preserves P :=
  fun _ h => ensures_ofReport (fun _ _ => h) h

theorem preserves_ofExcept (x : Except LoadError α) : (ofExcept x : Stage σ α).Preserves P :=
  fun _ h => ensures_ofExcept (fun _ _ => h) h

theorem preserves_attempt {f : σ → Except LoadError σ}
    (h : ∀ s s', P s → f s = .ok s' → P s') : (attempt f).Preserves P :=
  fun s hs => ensures_attempt (fun s' => h s s' hs) hs

end ElfLoader.Stage
