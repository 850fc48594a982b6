import Mathlib.Data.List.Nodup
import Mathlib.Data.List.Perm.Basic
import Mathlib.Data.Set.Insert
import Mathlib.Logic.Function.Basic

/-!
# Objects with one owner each

Objects are numbered in the order of their creation; `frees` counts how often each was freed. The
owners are a list with one place for every object that somebody is responsible for. A program is in
order when every object created so far either has one place in the list and was not freed, or has
none and was freed exactly once. Creating an object with a place for it, moving places about, and
freeing an object as its place is given up keep that order.
-/

namespace CrashInvestigator.Library

/-- Every object below `next` is owned once or was freed once. -/
structure Owners (next : ℕ) (frees : ℕ → ℕ) (owners : List ℕ) : Prop where
  nodup : owners.Nodup
  below : ∀ t ∈ owners, t < next
  unfreed : ∀ t ∈ owners, frees t = 0
  disposed : ∀ t, t < next → t ∉ owners → frees t = 1
  fresh : ∀ t, next ≤ t → frees t = 0

namespace Owners

variable {next : ℕ} {frees : ℕ → ℕ} {owners owners' : List ℕ} {t : ℕ}

theorem empty : Owners 0 (fun _ => 0) [] := by
  refine ⟨List.nodup_nil, ?_, ?_, ?_, ?_⟩
  · intro t ht
    cases ht
  · intro t ht
    cases ht
  · intro t ht
    omega
  · intro t _
    rfl

/-- Places may be exchanged. -/
theorem perm (h : Owners next frees owners) (hp : owners.Perm owners') :
    Owners next frees owners' := by
  refine ⟨hp.nodup_iff.mp h.nodup, ?_, ?_, ?_, h.fresh⟩
  · intro t ht
    exact h.below t (hp.mem_iff.mpr ht)
  · intro t ht
    exact h.unfreed t (hp.mem_iff.mpr ht)
  · intro t hlt ht
    exact h.disposed t hlt fun hm => ht (hp.mem_iff.mp hm)

/-- A new object with a place of its own. -/
theorem create (h : Owners next frees owners) : Owners (next + 1) frees (next :: owners) := by
  refine ⟨?_, ?_, ?_, ?_, ?_⟩
  · refine List.nodup_cons.mpr ⟨fun hm => ?_, h.nodup⟩
    have := h.below next hm
    omega
  · intro t ht
    rcases List.mem_cons.mp ht with rfl | ht
    · omega
    · have := h.below t ht
      omega
  · intro t ht
    rcases List.mem_cons.mp ht with rfl | ht
    · exact h.fresh _ (Nat.le_refl _)
    · exact h.unfreed t ht
  · intro t hlt ht
    rw [List.mem_cons, not_or] at ht
    exact h.disposed t (by omega) ht.2
  · intro t ht
    exact h.fresh t (by omega)

/-- An object that is freed as its place is given up. -/
theorem free (h : Owners next frees (t :: owners)) :
    Owners next (Function.update frees t (frees t + 1)) owners := by
  have hnot : t ∉ owners := (List.nodup_cons.mp h.nodup).1
  have hself : t ∈ t :: owners := List.mem_cons_self ..
  refine ⟨(List.nodup_cons.mp h.nodup).2, ?_, ?_, ?_, ?_⟩
  · intro u hu
    exact h.below u (List.mem_cons_of_mem t hu)
  · intro u hu
    have hne : u ≠ t := fun e => hnot (e ▸ hu)
    rw [Function.update_of_ne hne]
    exact h.unfreed u (List.mem_cons_of_mem t hu)
  · intro u hlt hu
    by_cases hut : u = t
    · rw [hut, Function.update_self, h.unfreed t hself]
    · rw [Function.update_of_ne hut]
      apply h.disposed u hlt
      rw [List.mem_cons, not_or]
      exact ⟨hut, hu⟩
  · intro u hu
    have hlt := h.below t hself
    have hne : u ≠ t := by omega
    rw [Function.update_of_ne hne]
    exact h.fresh u hu

end Owners

/-! ## Objects that nobody lost -/

/-- Every object that was created and not freed has an owner. -/
def Covered (next : ℕ) (frees : ℕ → ℕ) (owners : Set ℕ) : Prop :=
  ∀ t, t < next → frees t = 0 → t ∈ owners

namespace Covered

variable {next : ℕ} {frees frees' : ℕ → ℕ} {owners owners' : Set ℕ}

theorem empty : Covered 0 frees owners := fun _ hlt => absurd hlt (Nat.not_lt_zero _)

/-- Objects may be freed, and owners may give up what is freed. -/
theorem mono (h : Covered next frees owners) (hfrees : ∀ t, frees' t = 0 → frees t = 0)
    (howners : ∀ t ∈ owners, frees' t = 0 → t ∈ owners') : Covered next frees' owners' :=
  fun t hlt hzero => howners t (h t hlt (hfrees t hzero)) hzero

/-- The owner of a new object is there from its creation. -/
theorem create (h : Covered next frees owners) :
    Covered (next + 1) frees (insert next owners) := by
  intro t hlt hzero
  by_cases ht : t = next
  · exact Or.inl ht
  · exact Or.inr (h t (by omega) hzero)

end Covered

end CrashInvestigator.Library
