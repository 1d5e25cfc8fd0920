import Mathlib.Logic.Basic

/-!
Steps that stop at the first error: when a sequence of them succeeds, and with
which errors it can stop.
-/

namespace Outcome

universe u

variable {σ τ : Type*} {α β : Type u}

@[simp] theorem ok_bind (value : α) (next : α → Except σ β) :
    ((.ok value : Except σ α) >>= next) = next value :=
  rfl

theorem bind_eq_ok_iff {first : Except σ α} {next : α → Except σ β} {value : β} :
    (first >>= next) = .ok value ↔ ∃ middle, first = .ok middle ∧ next middle = .ok value := by
  cases first with
  | error error => simp [bind, Except.bind]
  | ok middle => simp [bind, Except.bind]

theorem mapError_eq_ok_iff {f : σ → τ} {outcome : Except σ α} {value : α} :
    outcome.mapError f = .ok value ↔ outcome = .ok value := by
  cases outcome with
  | error error =>
      constructor
      · rintro ⟨⟩
      · rintro ⟨⟩
  | ok found =>
      constructor
      · rintro ⟨⟩
        rfl
      · rintro ⟨⟩
        rfl

/-- An error that the outcome may be satisfies the predicate. -/
def ErrorsIn (allowed : σ → Prop) (outcome : Except σ α) : Prop :=
  ∀ error, outcome = .error error → allowed error

section ErrorsIn

variable {allowed : σ → Prop}

@[simp] theorem errorsIn_ok (value : α) : ErrorsIn allowed (.ok value) := fun _ h => nomatch h

@[simp] theorem errorsIn_pure (value : α) : ErrorsIn allowed (pure value : Except σ α) :=
  errorsIn_ok value

@[simp] theorem errorsIn_error (error : σ) :
    ErrorsIn allowed (.error error : Except σ α) ↔ allowed error := by
  constructor
  · exact fun h => h error rfl
  · rintro h _ ⟨⟩
    exact h

theorem errorsIn_and {other : σ → Prop} {outcome : Except σ α} :
    ErrorsIn (fun error => allowed error ∧ other error) outcome ↔
      ErrorsIn allowed outcome ∧ ErrorsIn other outcome := by
  constructor
  · exact fun h => ⟨fun error heq => (h error heq).1, fun error heq => (h error heq).2⟩
  · exact fun h error heq => ⟨h.1 error heq, h.2 error heq⟩

/-- A sequence stops with an allowed error exactly if each step does that is
reached. -/
theorem errorsIn_bind {first : Except σ α} {next : α → Except σ β} :
    ErrorsIn allowed (first >>= next) ↔
      ErrorsIn allowed first ∧ ∀ value, first = .ok value → ErrorsIn allowed (next value) := by
  cases first with
  | error error => simp [bind, Except.bind]
  | ok value => simp [bind, Except.bind]

theorem errorsIn_mapError {f : τ → σ} {outcome : Except τ α} :
    ErrorsIn allowed (outcome.mapError f) ↔ ErrorsIn (fun error => allowed (f error)) outcome := by
  cases outcome with
  | error error =>
      rw [errorsIn_error error]
      exact errorsIn_error (f error)
  | ok value => exact iff_of_true (errorsIn_ok value) (errorsIn_ok value)

/-- An outcome that is no success is an allowed error. -/
theorem ErrorsIn.exists_error {outcome : Except σ α} (h : ErrorsIn allowed outcome)
    (hnone : ∀ value, outcome ≠ .ok value) : ∃ error, outcome = .error error ∧ allowed error := by
  cases houtcome : outcome with
  | error error => exact ⟨error, rfl, h error houtcome⟩
  | ok value => exact absurd houtcome (hnone value)

end ErrorsIn

end Outcome
