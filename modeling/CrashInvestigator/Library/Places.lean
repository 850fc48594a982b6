import Mathlib.Data.Nat.Basic
import Mathlib.Logic.Function.Basic

/-!
# Objects in places

Objects are numbered in the order of their creation, `frees` counts how often each was freed, and
a place holds an object or is empty. The places are in order when no object lies at two of them, what
lies somewhere was not freed, and nothing was freed twice. A new object is put at an empty place, an
object moves from one place to another one or is forgotten, and an object is freed as it is taken away
from its place. The places may be of any type and any number, as those of many parties are.
-/

namespace CrashInvestigator.Library

variable {π : Type*}

/-- No object lies at two places, what lies somewhere was not freed, and nothing was freed twice. -/
structure Placed (next : ℕ) (frees : ℕ → ℕ) (place : π → Option ℕ) : Prop where
  inj : ∀ a b t, place a = some t → place b = some t → a = b
  below : ∀ a t, place a = some t → t < next
  unfreed : ∀ a t, place a = some t → frees t = 0
  once : ∀ t, frees t ≤ 1
  fresh : ∀ t, next ≤ t → frees t = 0

namespace Placed

variable {next : ℕ} {frees : ℕ → ℕ} {place place' : π → Option ℕ} {a b : π} {t : ℕ}

theorem empty : Placed 0 (fun _ => 0) (fun _ : π => none) := by
  refine ⟨?_, ?_, ?_, fun _ => Nat.zero_le 1, fun _ _ => rfl⟩
  · intro a b t h
    cases h
  · intro a t h
    cases h
  · intro a t h
    cases h

theorem congr (h : Placed next frees place) (hplace : ∀ a, place' a = place a) :
    Placed next frees place' := by
  have : place' = place := funext hplace
  rw [this]
  exact h

variable [DecidableEq π]

/-- A new object is put at an empty place. -/
theorem create (h : Placed next frees place) (ha : place a = none) :
    Placed (next + 1) frees (Function.update place a (some next)) := by
  have hcases : ∀ b t, Function.update place a (some next) b = some t →
      (b = a ∧ t = next) ∨ (b ≠ a ∧ place b = some t) := by
    intro b t hb
    by_cases hba : b = a
    · subst hba
      rw [Function.update_self] at hb
      exact Or.inl ⟨rfl, (Option.some.inj hb).symm⟩
    · rw [Function.update_of_ne hba] at hb
      exact Or.inr ⟨hba, hb⟩
  refine ⟨?_, ?_, ?_, h.once, ?_⟩
  · intro b c t hb hc
    rcases hcases b t hb with ⟨hba, ht⟩ | ⟨hba, hb⟩
    · rcases hcases c t hc with ⟨hca, -⟩ | ⟨-, hc⟩
      · rw [hba, hca]
      · have := h.below c t hc
        omega
    · rcases hcases c t hc with ⟨-, ht⟩ | ⟨-, hc⟩
      · have := h.below b t hb
        omega
      · exact h.inj b c t hb hc
  · intro b t hb
    rcases hcases b t hb with ⟨-, rfl⟩ | ⟨-, hb⟩
    · omega
    · have := h.below b t hb
      omega
  · intro b t hb
    rcases hcases b t hb with ⟨-, rfl⟩ | ⟨-, hb⟩
    · exact h.fresh t (Nat.le_refl t)
    · exact h.unfreed b t hb
  · intro t ht
    exact h.fresh t (by omega)

/-- An object moves to an empty place. -/
theorem move (h : Placed next frees place) (ha : place a = some t) (hb : place b = none) :
    Placed next frees (Function.update (Function.update place a none) b (some t)) := by
  have hab : a ≠ b := by
    rintro rfl
    rw [ha] at hb
    cases hb
  have hcases : ∀ c u, Function.update (Function.update place a none) b (some t) c = some u →
      (c = b ∧ u = t) ∨ (c ≠ b ∧ c ≠ a ∧ place c = some u) := by
    intro c u hc
    by_cases hcb : c = b
    · subst hcb
      rw [Function.update_self] at hc
      exact Or.inl ⟨rfl, (Option.some.inj hc).symm⟩
    · rw [Function.update_of_ne hcb] at hc
      by_cases hca : c = a
      · subst hca
        rw [Function.update_self] at hc
        cases hc
      · rw [Function.update_of_ne hca] at hc
        exact Or.inr ⟨hcb, hca, hc⟩
  have hsource : ∀ c u, Function.update (Function.update place a none) b (some t) c = some u →
      ∃ d, place d = some u := by
    intro c u hc
    rcases hcases c u hc with ⟨-, rfl⟩ | ⟨-, -, hc⟩
    · exact ⟨a, ha⟩
    · exact ⟨c, hc⟩
  refine ⟨?_, ?_, ?_, h.once, h.fresh⟩
  · intro c d u hc hd
    rcases hcases c u hc with ⟨hcb, hut⟩ | ⟨-, hca, hc'⟩
    · rcases hcases d u hd with ⟨hdb, -⟩ | ⟨-, hda, hd'⟩
      · rw [hcb, hdb]
      · exact absurd (h.inj d a u hd' (hut ▸ ha)) hda
    · rcases hcases d u hd with ⟨-, hut⟩ | ⟨-, -, hd'⟩
      · exact absurd (h.inj c a u hc' (hut ▸ ha)) hca
      · exact h.inj c d u hc' hd'
  · intro c u hc
    obtain ⟨d, hd⟩ := hsource c u hc
    exact h.below d u hd
  · intro c u hc
    obtain ⟨d, hd⟩ := hsource c u hc
    exact h.unfreed d u hd

/-- An object is freed as it is taken away. -/
theorem free (h : Placed next frees place) (ha : place a = some t) :
    Placed next (Function.update frees t (frees t + 1)) (Function.update place a none) := by
  have hcases : ∀ c u, Function.update place a none c = some u → c ≠ a ∧ place c = some u := by
    intro c u hc
    by_cases hca : c = a
    · subst hca
      rw [Function.update_self] at hc
      cases hc
    · rw [Function.update_of_ne hca] at hc
      exact ⟨hca, hc⟩
  have hne : ∀ c u, Function.update place a none c = some u → u ≠ t := by
    rintro c u hc rfl
    obtain ⟨hca, hc⟩ := hcases c u hc
    exact hca (h.inj c a u hc ha)
  refine ⟨?_, ?_, ?_, ?_, ?_⟩
  · intro c d u hc hd
    exact h.inj c d u (hcases c u hc).2 (hcases d u hd).2
  · intro c u hc
    exact h.below c u (hcases c u hc).2
  · intro c u hc
    rw [Function.update_of_ne (hne c u hc)]
    exact h.unfreed c u (hcases c u hc).2
  · intro u
    by_cases hu : u = t
    · subst hu
      rw [Function.update_self, h.unfreed a u ha]
    · rw [Function.update_of_ne hu]
      exact h.once u
  · intro u hu
    have hlt := h.below a t ha
    have hut : u ≠ t := by omega
    rw [Function.update_of_ne hut]
    exact h.fresh u hu

/-- An object is taken away and never freed. -/
theorem forget (h : Placed next frees place) (a : π) :
    Placed next frees (Function.update place a none) := by
  have hsub : ∀ c u, Function.update place a none c = some u → place c = some u := by
    intro c u hc
    by_cases hca : c = a
    · subst hca
      rw [Function.update_self] at hc
      cases hc
    · rw [Function.update_of_ne hca] at hc
      exact hc
  refine ⟨?_, ?_, ?_, h.once, h.fresh⟩
  · intro c d u hc hd
    exact h.inj c d u (hsub c u hc) (hsub d u hd)
  · intro c u hc
    exact h.below c u (hsub c u hc)
  · intro c u hc
    exact h.unfreed c u (hsub c u hc)

end Placed

end CrashInvestigator.Library
