import CrashInvestigator.Library.Runs

/-!
# Simulation of machines with outputs

A step of such a machine gives the next state and at most one output; a step without output is
silent. A machine simulates another one when each of its steps is either silent and matched by no
step at all, or matched by one step with the same output.
-/

namespace CrashInvestigator.Library.Simulation

variable {σ τ ℓ μ υ : Type*}

/-- The states of a machine with outputs. -/
def states (step : σ → ℓ → σ × Option υ) (s : σ) (l : ℓ) : σ := (step s l).1

/-- The outputs of a run, in order. -/
def trace (step : σ → ℓ → σ × Option υ) : σ → List ℓ → List υ
  | _, [] => []
  | s, l :: ls => (step s l).2.toList ++ trace step (step s l).1 ls

@[simp] theorem trace_nil (step : σ → ℓ → σ × Option υ) (s : σ) : trace step s [] = [] := rfl

@[simp] theorem trace_cons (step : σ → ℓ → σ × Option υ) (s : σ) (l : ℓ) (ls : List ℓ) :
    trace step s (l :: ls) = (step s l).2.toList ++ trace step (step s l).1 ls := rfl

variable {step : σ → ℓ → σ × Option υ} {step' : τ → μ → τ × Option υ} {R : σ → τ → Prop}
  {C : σ → ℓ → Prop} {D : τ → μ → Prop}

/-- What one step of a simulation has to give. -/
def Matches (step : σ → ℓ → σ × Option υ) (step' : τ → μ → τ × Option υ) (R : σ → τ → Prop)
    (D : τ → μ → Prop) (s : σ) (t : τ) (l : ℓ) : Prop :=
  ((step s l).2 = none ∧ R (step s l).1 t) ∨
    ∃ m, D t m ∧ (step' t m).2 = (step s l).2 ∧ R (step s l).1 (step' t m).1

/-- A run of the lower machine has the outputs of a run of the upper one, and ends in a related
state. -/
theorem run_of_step (hstep : ∀ s t l, R s t → C s l → Matches step step' R D s t l) {s : σ} {t : τ}
    {ls : List ℓ} (h0 : R s t) (h : Runs.Along (states step) C s ls) :
    ∃ ms, Runs.Along (states step') D t ms ∧ trace step' t ms = trace step s ls ∧
      R (Runs.final (states step) s ls) (Runs.final (states step') t ms) := by
  induction ls generalizing s t with
  | nil => exact ⟨[], trivial, rfl, h0⟩
  | cons l ls ih =>
    obtain ⟨hC, hrest⟩ := h
    rcases hstep s t l h0 hC with ⟨hnone, hR⟩ | ⟨m, hD, hout, hR⟩
    · obtain ⟨ms, hms, htrace, hfinal⟩ := ih hR hrest
      refine ⟨ms, hms, ?_, hfinal⟩
      rw [trace_cons, hnone, htrace]
      rfl
    · obtain ⟨ms, hms, htrace, hfinal⟩ := ih hR hrest
      refine ⟨m :: ms, ⟨hD, hms⟩, ?_, hfinal⟩
      rw [trace_cons, trace_cons, hout, htrace]

/-! ## Translated runs -/

section Translation

variable (low : σ → ℓ → σ) (f : σ → ℓ → μ)

/-- The labels of the upper run, each of them from the state in which the lower one takes its step. -/
def translate : σ → List ℓ → List μ
  | _, [] => []
  | s, l :: ls => f s l :: translate (low s l) ls

variable {low f} {up : τ → μ → τ} {V : σ → ℓ → Prop} {P : σ → Prop} {Q : τ → Prop} {s : σ} {t : τ}
  {ls : List ℓ}

theorem final_translate (hstep : ∀ s t l, R s t → V s l → R (low s l) (up t (f s l))) (h0 : R s t)
    (hV : Runs.Along low V s ls) :
    R (Runs.final low s ls) (Runs.final up t (translate low f s ls)) := by
  induction ls generalizing s t with
  | nil => exact h0
  | cons l ls ih => exact ih (hstep s t l h0 hV.1) hV.2

theorem along_translate (hstep : ∀ s t l, R s t → V s l → R (low s l) (up t (f s l)))
    (hiff : ∀ s t l, R s t → V s l → (C s l ↔ D t (f s l))) (h0 : R s t)
    (hV : Runs.Along low V s ls) :
    Runs.Along low C s ls ↔ Runs.Along up D t (translate low f s ls) := by
  induction ls generalizing s t with
  | nil => exact Iff.rfl
  | cons l ls ih =>
    exact and_congr (hiff s t l h0 hV.1) (ih (hstep s t l h0 hV.1) hV.2)

theorem always_translate (hstep : ∀ s t l, R s t → V s l → R (low s l) (up t (f s l)))
    (hiff : ∀ s t, R s t → (P s ↔ Q t)) (h0 : R s t) (hV : Runs.Along low V s ls) :
    Runs.Always low P s ls ↔ Runs.Always up Q t (translate low f s ls) := by
  induction ls generalizing s t with
  | nil => exact hiff s t h0
  | cons l ls ih => exact and_congr (hiff s t h0) (ih (hstep s t l h0 hV.1) hV.2)

end Translation

end CrashInvestigator.Library.Simulation
