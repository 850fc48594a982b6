import Mathlib.Data.List.Basic
import Mathlib.Tactic.Tauto

/-!
# Runs of a deterministic labelled machine

A machine is a function `step : σ → ℓ → σ`; everything the environment decides is part of the label.
A run is a list of labels. `Along` says that every step of a run meets a condition on the state
before it and its label, `Always` that every state visited, the first one included, meets a
predicate. Nothing here refers to a particular machine.
-/

namespace CrashInvestigator.Library.Runs

variable {σ ℓ : Type*} (step : σ → ℓ → σ)

/-- The state in which the run `ls` from `s` ends. -/
def final (s : σ) (ls : List ℓ) : σ := ls.foldl step s

/-- Every step of the run meets `C`, read on the state before the step and the label. -/
def Along (C : σ → ℓ → Prop) : σ → List ℓ → Prop
  | _, [] => True
  | s, l :: ls => C s l ∧ Along C (step s l) ls

/-- Every state visited by the run meets `Q`. -/
def Always (Q : σ → Prop) : σ → List ℓ → Prop
  | s, [] => Q s
  | s, l :: ls => Q s ∧ Always Q (step s l) ls

instance Along.decidable {C : σ → ℓ → Prop} [∀ s l, Decidable (C s l)] :
    ∀ (s : σ) (ls : List ℓ), Decidable (Along step C s ls)
  | _, [] => inferInstanceAs (Decidable True)
  | s, l :: ls =>
    have := Along.decidable (C := C) (step s l) ls
    inferInstanceAs (Decidable (C s l ∧ Along step C (step s l) ls))

variable {step}

@[simp] theorem final_nil (s : σ) : final step s [] = s := rfl

@[simp] theorem final_cons (s : σ) (l : ℓ) (ls : List ℓ) :
    final step s (l :: ls) = final step (step s l) ls := rfl

theorem final_append (s : σ) (ls ms : List ℓ) :
    final step s (ls ++ ms) = final step (final step s ls) ms := by
  simp [final]

@[simp] theorem along_nil (C : σ → ℓ → Prop) (s : σ) : Along step C s [] := trivial

@[simp] theorem along_cons {C : σ → ℓ → Prop} {s : σ} {l : ℓ} {ls : List ℓ} :
    Along step C s (l :: ls) ↔ C s l ∧ Along step C (step s l) ls := Iff.rfl

@[simp] theorem always_nil {Q : σ → Prop} {s : σ} : Always step Q s [] ↔ Q s := Iff.rfl

@[simp] theorem always_cons {Q : σ → Prop} {s : σ} {l : ℓ} {ls : List ℓ} :
    Always step Q s (l :: ls) ↔ Q s ∧ Always step Q (step s l) ls := Iff.rfl

theorem Along.mono {C D : σ → ℓ → Prop} (hCD : ∀ s l, C s l → D s l) {s : σ} {ls : List ℓ}
    (h : Along step C s ls) : Along step D s ls := by
  induction ls generalizing s with
  | nil => trivial
  | cons l ls ih => exact ⟨hCD _ _ h.1, ih h.2⟩

theorem along_and {C D : σ → ℓ → Prop} {s : σ} {ls : List ℓ} :
    Along step (fun s l => C s l ∧ D s l) s ls ↔ Along step C s ls ∧ Along step D s ls := by
  induction ls generalizing s with
  | nil => simp
  | cons l ls ih =>
    rw [along_cons, along_cons, along_cons, ih]
    tauto

theorem along_of_forall {C : σ → ℓ → Prop} (h : ∀ s l, C s l) (s : σ) (ls : List ℓ) :
    Along step C s ls := by
  induction ls generalizing s with
  | nil => trivial
  | cons l ls ih => exact ⟨h s l, ih _⟩

theorem Always.head {Q : σ → Prop} {s : σ} {ls : List ℓ} (h : Always step Q s ls) : Q s := by
  cases ls with
  | nil => exact h
  | cons l ls => exact h.1

theorem Always.mono {Q R : σ → Prop} (hQR : ∀ s, Q s → R s) {s : σ} {ls : List ℓ}
    (h : Always step Q s ls) : Always step R s ls := by
  induction ls generalizing s with
  | nil => exact hQR s h
  | cons l ls ih => exact ⟨hQR s h.1, ih h.2⟩

theorem always_and {Q R : σ → Prop} {s : σ} {ls : List ℓ} :
    Always step (fun s => Q s ∧ R s) s ls ↔ Always step Q s ls ∧ Always step R s ls := by
  induction ls generalizing s with
  | nil => rfl
  | cons l ls ih =>
    rw [always_cons, always_cons, always_cons, ih]
    tauto

/-- `Always` speaks of the final states of all prefixes of the run. -/
theorem always_iff_prefix {Q : σ → Prop} {s : σ} {ls : List ℓ} :
    Always step Q s ls ↔ ∀ ms, ms <+: ls → Q (final step s ms) := by
  induction ls generalizing s with
  | nil =>
    constructor
    · intro h ms hms
      rw [List.prefix_nil.mp hms]
      exact h
    · intro h
      exact h [] (List.prefix_refl _)
  | cons l ls ih =>
    rw [always_cons, ih]
    constructor
    · rintro ⟨h0, h⟩ ms hms
      cases ms with
      | nil => exact h0
      | cons m ms =>
        obtain ⟨rfl, hms'⟩ := List.cons_prefix_cons.mp hms
        exact h ms hms'
    · intro h
      exact ⟨h [] List.nil_prefix, fun ms hms => h (l :: ms) (List.cons_prefix_cons.mpr ⟨rfl, hms⟩)⟩

theorem Always.final {Q : σ → Prop} {s : σ} {ls : List ℓ} (h : Always step Q s ls) :
    Q (final step s ls) :=
  always_iff_prefix.mp h ls (List.prefix_refl _)

/-! ## Invariant rules -/

variable {I : σ → Prop} {C D V : σ → ℓ → Prop} {Q : σ → Prop}

/-- An invariant kept by every step that meets `C` holds in every state of a run along `C`. -/
theorem always_of_invariant (hstep : ∀ s l, I s → C s l → I (step s l)) {s : σ} {ls : List ℓ}
    (h0 : I s) (h : Along step C s ls) : Always step I s ls := by
  induction ls generalizing s with
  | nil => exact h0
  | cons l ls ih => exact ⟨h0, ih (hstep s l h0 h.1) h.2⟩

/-- What an invariant gives at every step holds along the run. -/
theorem along_of_invariant (hstep : ∀ s l, I s → C s l → I (step s l))
    (hD : ∀ s l, I s → C s l → D s l) {s : σ} {ls : List ℓ} (h0 : I s)
    (h : Along step C s ls) : Along step D s ls := by
  induction ls generalizing s with
  | nil => trivial
  | cons l ls ih => exact ⟨hD s l h0 h.1, ih (hstep s l h0 h.1) h.2⟩

/-- The exact condition of a safety property: a valid step keeps the invariant when it meets `C`,
and breaks the property at once when it does not. -/
theorem always_iff_along (hIQ : ∀ s, I s → Q s)
    (hgood : ∀ s l, I s → V s l → C s l → I (step s l))
    (hbad : ∀ s l, I s → V s l → ¬ C s l → ¬ Q (step s l)) {s : σ} {ls : List ℓ} (h0 : I s)
    (hV : Along step V s ls) : Always step Q s ls ↔ Along step C s ls := by
  induction ls generalizing s with
  | nil => simp [hIQ s h0]
  | cons l ls ih =>
    by_cases hC : C s l
    · simp only [always_cons, along_cons, hIQ s h0, hC, true_and]
      exact ih (hgood s l h0 hV.1 hC) hV.2
    · constructor
      · intro h
        exact absurd h.2.head (hbad s l h0 hV.1 hC)
      · intro h
        exact absurd h.1 hC

/-- The same for a property `D` of the single steps beside the property `Q` of the states. -/
theorem always_and_along_iff (hIQ : ∀ s, I s → Q s)
    (hgood : ∀ s l, I s → V s l → C s l → I (step s l))
    (hD : ∀ s l, I s → V s l → C s l → D s l)
    (hbad : ∀ s l, I s → V s l → ¬ C s l → ¬ Q (step s l) ∨ ¬ D s l) {s : σ} {ls : List ℓ}
    (h0 : I s) (hV : Along step V s ls) :
    (Always step Q s ls ∧ Along step D s ls) ↔ Along step C s ls := by
  induction ls generalizing s with
  | nil => simp [hIQ s h0]
  | cons l ls ih =>
    by_cases hC : C s l
    · have hrest := ih (hgood s l h0 hV.1 hC) hV.2
      simp only [always_cons, along_cons, hIQ s h0, hC, hD s l h0 hV.1 hC, true_and]
      exact hrest
    · constructor
      · rintro ⟨hQ, hDs⟩
        rcases hbad s l h0 hV.1 hC with hq | hd
        · exact absurd hQ.2.head hq
        · exact absurd hDs.1 hd
      · intro h
        exact absurd h.1 hC

/-- The same for a property of the single steps alone. -/
theorem along_iff_along (hgood : ∀ s l, I s → V s l → C s l → I (step s l))
    (hD : ∀ s l, I s → V s l → (D s l ↔ C s l)) {s : σ} {ls : List ℓ} (h0 : I s)
    (hV : Along step V s ls) : Along step D s ls ↔ Along step C s ls := by
  induction ls generalizing s with
  | nil => rfl
  | cons l ls ih =>
    rw [along_cons, along_cons, hD s l h0 hV.1]
    exact and_congr_right fun hC => ih (hgood s l h0 hV.1 hC) hV.2

/-! ## Two machines on one state -/

/-- A machine `check` that does what `step` does as long as `C` holds, and that stops in `E` at the
first step where `C` fails. -/
theorem final_of_along {check : σ → ℓ → σ} {E : σ → Prop}
    (hstep : ∀ s l, I s → V s l → I (step s l))
    (hsame : ∀ s l, I s → V s l → C s l → check s l = step s l)
    (hstops : ∀ s l, I s → V s l → ¬ C s l → E (check s l))
    (hstays : ∀ s l, E s → E (check s l)) {s : σ} {ls : List ℓ} (h0 : I s)
    (hV : Along step V s ls) :
    (Along step C s ls → final check s ls = final step s ls) ∧
      (¬ Along step C s ls → E (final check s ls)) := by
  induction ls generalizing s with
  | nil => simp
  | cons l ls ih =>
    have hrest := ih (hstep s l h0 hV.1) hV.2
    rw [final_cons, final_cons, along_cons]
    by_cases hC : C s l
    · simp only [hC, true_and, hsame s l h0 hV.1 hC]
      exact hrest
    · simp only [hC, false_and, not_false_eq_true, false_implies, true_implies, true_and]
      have hE := always_of_invariant (I := E) (C := fun _ _ => True)
        (fun s l hs _ => hstays s l hs) (hstops s l h0 hV.1 hC) (along_of_forall (by simp) _ ls)
      exact hE.final

end CrashInvestigator.Library.Runs
