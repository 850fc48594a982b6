import CrashInvestigator.Library.Runs

/-!
# Computations and machines that may fail

What is known when a computation in `Except` ended well. A machine that may fail runs on
`Except ε σ`, and keeps the first error.
-/

namespace CrashInvestigator.Library.Fallible

variable {ε α β σ ℓ : Type*}

theorem bind_eq_ok {ε α β : Type} {x : Except ε α} {f : α → Except ε β} {b : β}
    (h : (x >>= f) = .ok b) : ∃ a, x = .ok a ∧ f a = .ok b := by
  cases x with
  | error e => cases h
  | ok a => exact ⟨a, rfl, h⟩

theorem map_eq_ok {x : Except ε α} {f : α → β} {b : β} (h : x.map f = .ok b) :
    ∃ a, x = .ok a ∧ f a = b := by
  cases x with
  | error e => cases h
  | ok a =>
    cases h
    exact ⟨a, rfl, rfl⟩

theorem toOption_eq_some {x : Except ε α} {a : α} (h : x.toOption = some a) : x = .ok a := by
  cases x with
  | error e => cases h
  | ok b =>
    cases h
    rfl

/-! ## Machines -/

variable {step : Except ε σ → ℓ → Except ε σ}

theorem final_error (hkeeps : ∀ e l, step (.error e) l = .error e) (e : ε) (ls : List ℓ) :
    Runs.final step (.error e) ls = .error e := by
  induction ls with
  | nil => rfl
  | cons l ls ih => rw [Runs.final_cons, hkeeps, ih]

/-- A run that ended well went through no error. -/
theorem final_cons_eq_ok (hkeeps : ∀ e l, step (.error e) l = .error e) {x : Except ε σ} {l : ℓ}
    {ls : List ℓ} {s : σ} (h : Runs.final step x (l :: ls) = .ok s) :
    ∃ s₁, step x l = .ok s₁ ∧ Runs.final step (.ok s₁) ls = .ok s := by
  rw [Runs.final_cons] at h
  cases hstep : step x l with
  | error e =>
    rw [hstep, final_error hkeeps] at h
    cases h
  | ok s₁ =>
    rw [hstep] at h
    exact ⟨s₁, rfl, h⟩

end CrashInvestigator.Library.Fallible
