import ElfLoader.Notice

/-!
# Work that reports

Two shapes of work run through the loader.

* `ElfLoader.Report` – work without a state: a result or an error, and the
  notices given on the way. Its results follow the rules of `Except`, whatever
  the notices are (`ElfLoader.Report.result_bind`).
* `ElfLoader.Stage` – work on a state. It keeps the state that an error leaves
  behind, because a phase of the loader that fails has still done what it did
  before it failed (`ElfLoader.Stage.run_bind_of_error`).
-/

namespace ElfLoader

/-! ### Reports -/

/-- The outcome of work that may fail, with the notices given on the way. -/
structure Report (α : Type) where
  /-- What came out. -/
  result : Except LoadError α
  /-- What was said, in order. -/
  notices : List Notice

namespace Report

variable {α β : Type}

/-- Goes on with the result of `x`, or stops at its error. -/
protected def bind (x : Report α) (f : α → Report β) : Report β :=
  match x.result with
  | .ok a => ⟨(f a).result, x.notices ++ (f a).notices⟩
  | .error e => ⟨.error e, x.notices⟩

instance : Monad Report where
  pure a := ⟨.ok a, []⟩
  bind := Report.bind

/-- Work that gives no notice. -/
def ofExcept (x : Except LoadError α) : Report α := ⟨x, []⟩

instance : MonadLift (Except LoadError) Report := ⟨ofExcept⟩

/-- Stops with an error. -/
def fail (e : LoadError) : Report α := ⟨.error e, []⟩

/-- Gives a notice. -/
def note (n : Notice) : Report Unit := ⟨.ok (), [n]⟩

@[simp] theorem result_pure (a : α) : (pure a : Report α).result = .ok a := rfl

@[simp] theorem result_ofExcept (x : Except LoadError α) : (ofExcept x).result = x := rfl

@[simp] theorem result_note (n : Notice) : (note n).result = .ok () := rfl

/-- **Results follow the rules of `Except`.** -/
theorem result_bind (x : Report α) (f : α → Report β) :
    (x >>= f).result = x.result >>= fun a => (f a).result := by
  change (Report.bind x f).result = _
  unfold Report.bind
  cases x.result <;> rfl

end Report

/-! ### Stages -/

/-- What a stage leaves behind. -/
structure Outcome (σ α : Type) where
  /-- What came out. -/
  result : Except LoadError α
  /-- The state afterwards, also after an error. -/
  state : σ
  /-- What was said, in order. -/
  notices : List Notice

/-- Work on a state that may fail and gives notices on the way. -/
def Stage (σ α : Type) : Type := σ → Outcome σ α

namespace Stage

variable {σ τ α β : Type}

/-- Runs a stage from a state. -/
def run (x : Stage σ α) (s : σ) : Outcome σ α := x s

/-- Goes on from where `x` stopped, or stops at its error. -/
protected def bind (x : Stage σ α) (f : α → Stage σ β) : Stage σ β := fun s =>
  match x s with
  | ⟨.ok a, s', ns⟩ =>
    let o := f a s'
    ⟨o.result, o.state, ns ++ o.notices⟩
  | ⟨.error e, s', ns⟩ => ⟨.error e, s', ns⟩

instance : Monad (Stage σ) where
  pure a := fun s => ⟨.ok a, s, []⟩
  bind := Stage.bind

/-- Work that leaves the state alone. -/
def ofReport (x : Report α) : Stage σ α := fun s => ⟨x.result, s, x.notices⟩

/-- Work that leaves the state alone and gives no notice. -/
def ofExcept (x : Except LoadError α) : Stage σ α := fun s => ⟨x, s, []⟩

instance : MonadLift Report (Stage σ) := ⟨ofReport⟩

instance : MonadLift (Except LoadError) (Stage σ) := ⟨ofExcept⟩

/-- Stops with an error; the state stays as it is. -/
def fail (e : LoadError) : Stage σ α := fun s => ⟨.error e, s, []⟩

/-- Gives notices. -/
def notes (ns : List Notice) : Stage σ Unit := fun s => ⟨.ok (), s, ns⟩

/-- The state. -/
def state : Stage σ σ := fun s => ⟨.ok s, s, []⟩

/-- Changes the state. -/
def update (f : σ → σ) : Stage σ Unit := fun s => ⟨.ok (), f s, []⟩

/-- Changes the state, or stops with an error and leaves it as it is. -/
def attempt (f : σ → Except LoadError σ) : Stage σ Unit := fun s =>
  match f s with
  | .ok s' => ⟨.ok (), s', []⟩
  | .error e => ⟨.error e, s, []⟩

/-- Runs a stage on a part of the state and puts the part back, also after an
error. -/
def within (part : σ → τ) (put : τ → σ → σ) (x : Stage τ α) : Stage σ α := fun s =>
  let o := x (part s)
  ⟨o.result, put o.state s, o.notices⟩

/-- Goes on, and rewords the error if there is one. -/
def rewording (f : LoadError → LoadError) (x : Stage σ α) : Stage σ α := fun s =>
  let o := x s
  ⟨o.result.mapError f, o.state, o.notices⟩

@[simp] theorem run_pure (a : α) (s : σ) : (pure a : Stage σ α).run s = ⟨.ok a, s, []⟩ := rfl

@[simp] theorem run_state (s : σ) : (state : Stage σ σ).run s = ⟨.ok s, s, []⟩ := rfl

@[simp] theorem run_update (f : σ → σ) (s : σ) : (update f).run s = ⟨.ok (), f s, []⟩ := rfl

@[simp] theorem run_notes (ns : List Notice) (s : σ) : (notes ns).run s = ⟨.ok (), s, ns⟩ := rfl

@[simp] theorem run_ofReport (x : Report α) (s : σ) :
    (ofReport x : Stage σ α).run s = ⟨x.result, s, x.notices⟩ := rfl

@[simp] theorem run_ofExcept (x : Except LoadError α) (s : σ) :
    (ofExcept x : Stage σ α).run s = ⟨x, s, []⟩ := rfl

/-- **A run of two stages** is a run of the first, and of the second if the first
succeeds. -/
theorem run_bind (x : Stage σ α) (f : α → Stage σ β) (s : σ) :
    (x >>= f).run s = match (x.run s).result with
      | .ok a =>
        let o := (f a).run (x.run s).state
        ⟨o.result, o.state, (x.run s).notices ++ o.notices⟩
      | .error e => ⟨.error e, (x.run s).state, (x.run s).notices⟩ := by
  change Stage.bind x f s = _
  unfold Stage.bind run
  rcases x s with ⟨_ | _, _, _⟩ <;> rfl

/-- Two stages succeed if both do, the second from where the first stopped. -/
theorem result_bind_eq_ok_iff {x : Stage σ α} {f : α → Stage σ β} {s : σ} {b : β} :
    ((x >>= f).run s).result = .ok b ↔
      ∃ a, (x.run s).result = .ok a ∧ ((f a).run (x.run s).state).result = .ok b := by
  rw [run_bind]
  cases (x.run s).result <;> simp

/-- The state that two stages leave if the first succeeds. -/
theorem state_bind_of_ok {x : Stage σ α} {f : α → Stage σ β} {s : σ} {a : α}
    (h : (x.run s).result = .ok a) :
    ((x >>= f).run s).state = ((f a).run (x.run s).state).state := by
  rw [run_bind, h]

/-- **A stage that fails is the last one**, and the state it leaves is the final one. -/
theorem run_bind_of_error {x : Stage σ α} {f : α → Stage σ β} {s : σ} {e : LoadError}
    (h : (x.run s).result = .error e) :
    (x >>= f).run s = ⟨.error e, (x.run s).state, (x.run s).notices⟩ := by
  rw [run_bind, h]

end Stage

end ElfLoader
