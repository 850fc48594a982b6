import Mathlib.Data.Set.Insert
import Mathlib.Logic.Function.Basic

/-!
# Custody of shared resources

Resources are handed out by an issuer that may reissue whatever was given back. At every moment a
resource that is out belongs to the common stock (`owned`) or is in the hand of one party, which is
about to put it into the stock or to give it back. Parties take turns in any order. The five moves
below keep custody exclusive, so that nothing is given back twice and nothing in the stock is given
back at all.
-/

namespace CrashInvestigator.Library

/-- The resources that are out, those of the stock, and the one in the hand of each party. -/
structure Custody (ι α : Type*) where
  live : Set α
  owned : Set α
  hand : ι → Option α

namespace Custody

variable {ι α : Type*}

/-- Every resource of the stock and every resource in a hand is out, in one place only. -/
structure Exclusive (c : Custody ι α) : Prop where
  owned_live : ∀ a ∈ c.owned, a ∈ c.live
  hand_live : ∀ i a, c.hand i = some a → a ∈ c.live
  hand_unowned : ∀ i a, c.hand i = some a → a ∉ c.owned
  hand_inj : ∀ i j a, c.hand i = some a → c.hand j = some a → i = j

section Moves

variable [DecidableEq ι]

/-- The issuer hands `a` to party `i`. -/
def acquire (c : Custody ι α) (i : ι) (a : α) : Custody ι α where
  live := insert a c.live
  owned := c.owned
  hand := Function.update c.hand i (some a)

/-- Party `i` puts `a` into the stock. -/
def deposit (c : Custody ι α) (i : ι) (a : α) : Custody ι α where
  live := c.live
  owned := insert a c.owned
  hand := Function.update c.hand i none

/-- Party `i` takes `a` out of the stock. -/
def withdraw (c : Custody ι α) (i : ι) (a : α) : Custody ι α where
  live := c.live
  owned := c.owned \ {a}
  hand := Function.update c.hand i (some a)

/-- Party `i` gives `a` back to the issuer. -/
def dispose (c : Custody ι α) (i : ι) (a : α) : Custody ι α where
  live := c.live \ {a}
  owned := c.owned
  hand := Function.update c.hand i none

/-- The issuer takes `a` from the stock and puts `b` there. -/
def exchange (c : Custody ι α) (a b : α) : Custody ι α where
  live := insert b (c.live \ {a})
  owned := insert b (c.owned \ {a})
  hand := c.hand

end Moves

section Preservation

variable {c c' : Custody ι α} {i : ι} {a b : α}

theorem Exclusive.congr (h : c.Exclusive) (hlive : c'.live = c.live) (howned : c'.owned = c.owned)
    (hhand : c'.hand = c.hand) : c'.Exclusive := by
  cases c
  cases c'
  subst hlive howned hhand
  exact h

/-- What is not out is in no hand. -/
theorem Exclusive.not_live_unheld (h : c.Exclusive) (ha : a ∉ c.live) (j : ι) :
    c.hand j ≠ some a := by
  intro hj
  exact ha (h.hand_live j a hj)

theorem Exclusive.exchange (h : c.Exclusive) (ha : a ∈ c.owned) (hb : b ∉ c.live) :
    (c.exchange a b).Exclusive := by
  refine ⟨?_, ?_, ?_, h.hand_inj⟩
  · rintro x (rfl | ⟨hx, hne⟩)
    · exact Set.mem_insert x _
    · exact Set.mem_insert_of_mem b ⟨h.owned_live x hx, hne⟩
  · intro j x hj
    refine Set.mem_insert_of_mem b ⟨h.hand_live j x hj, ?_⟩
    rintro rfl
    exact h.hand_unowned j x hj ha
  · rintro j x hj (rfl | ⟨hx, -⟩)
    · exact h.not_live_unheld hb j hj
    · exact h.hand_unowned j x hj hx

variable [DecidableEq ι]

/-- What party `j` holds after party `i` has changed its hand. -/
theorem update_some {h : ι → Option α} {v : Option α} {j : ι} {x : α}
    (hx : Function.update h i v j = some x) : (j = i ∧ v = some x) ∨ (j ≠ i ∧ h j = some x) := by
  by_cases hj : j = i
  · subst hj
    rw [Function.update_self] at hx
    exact Or.inl ⟨rfl, hx⟩
  · rw [Function.update_of_ne hj] at hx
    exact Or.inr ⟨hj, hx⟩

/-- A party that takes up what nobody holds holds it alone. -/
theorem Exclusive.hand_inj_of_filled (h : c.Exclusive) (hother : ∀ j, c.hand j ≠ some a)
    (j k : ι) (x : α) (hj : Function.update c.hand i (some a) j = some x)
    (hk : Function.update c.hand i (some a) k = some x) : j = k := by
  rcases update_some hj with ⟨hji, hv⟩ | ⟨-, hj⟩
  · cases hv
    rcases update_some hk with ⟨hki, -⟩ | ⟨-, hk⟩
    · rw [hji, hki]
    · exact absurd hk (hother k)
  · rcases update_some hk with ⟨-, hv⟩ | ⟨-, hk⟩
    · cases hv
      exact absurd hj (hother j)
    · exact h.hand_inj j k x hj hk

theorem Exclusive.acquire (h : c.Exclusive) (ha : a ∉ c.live) : (c.acquire i a).Exclusive := by
  have hother := h.not_live_unheld ha
  refine ⟨?_, ?_, ?_, ?_⟩
  · intro x hx
    exact Set.mem_insert_of_mem a (h.owned_live x hx)
  · intro j x hx
    rcases update_some hx with ⟨-, hv⟩ | ⟨-, hj⟩
    · cases hv
      exact Set.mem_insert a _
    · exact Set.mem_insert_of_mem a (h.hand_live j x hj)
  · intro j x hx hown
    rcases update_some hx with ⟨-, hv⟩ | ⟨-, hj⟩
    · cases hv
      exact ha (h.owned_live a hown)
    · exact h.hand_unowned j x hj hown
  · exact h.hand_inj_of_filled hother

/-- A party that empties its hand leaves the others as they were. -/
theorem Exclusive.hand_of_emptied (h : c.Exclusive) {j : ι} {x : α}
    (hx : Function.update c.hand i none j = some x) :
    c.hand j = some x ∧ (c.hand i = some a → x ≠ a) := by
  rcases update_some hx with ⟨-, hv⟩ | ⟨hne, hj⟩
  · cases hv
  · refine ⟨hj, ?_⟩
    rintro hi rfl
    exact hne (h.hand_inj j i x hj hi)

theorem Exclusive.deposit (h : c.Exclusive) (hi : c.hand i = some a) :
    (c.deposit i a).Exclusive := by
  refine ⟨?_, ?_, ?_, ?_⟩
  · intro x hx
    rcases hx with rfl | hx
    · exact h.hand_live i x hi
    · exact h.owned_live x hx
  · intro j x hx
    exact h.hand_live j x (h.hand_of_emptied hx (a := a)).1
  · intro j x hx hown
    obtain ⟨hj, hne⟩ := h.hand_of_emptied hx (a := a)
    rcases hown with rfl | hown
    · exact hne hi rfl
    · exact h.hand_unowned j x hj hown
  · intro j k x hj hk
    exact h.hand_inj j k x (h.hand_of_emptied hj (a := a)).1 (h.hand_of_emptied hk (a := a)).1

theorem Exclusive.withdraw (h : c.Exclusive) (ha : a ∈ c.owned) : (c.withdraw i a).Exclusive := by
  have hother : ∀ j, c.hand j ≠ some a := fun j hj => h.hand_unowned j a hj ha
  refine ⟨?_, ?_, ?_, ?_⟩
  · intro x hx
    exact h.owned_live x hx.1
  · intro j x hx
    rcases update_some hx with ⟨-, hv⟩ | ⟨-, hj⟩
    · cases hv
      exact h.owned_live a ha
    · exact h.hand_live j x hj
  · intro j x hx hown
    rcases update_some hx with ⟨-, hv⟩ | ⟨-, hj⟩
    · cases hv
      exact hown.2 rfl
    · exact h.hand_unowned j x hj hown.1
  · exact h.hand_inj_of_filled hother

theorem Exclusive.dispose (h : c.Exclusive) (hi : c.hand i = some a) :
    (c.dispose i a).Exclusive := by
  refine ⟨?_, ?_, ?_, ?_⟩
  · intro x hx
    refine ⟨h.owned_live x hx, ?_⟩
    rintro rfl
    exact h.hand_unowned i x hi hx
  · intro j x hx
    obtain ⟨hj, hne⟩ := h.hand_of_emptied hx (a := a)
    exact ⟨h.hand_live j x hj, hne hi⟩
  · intro j x hx
    exact h.hand_unowned j x (h.hand_of_emptied hx (a := a)).1
  · intro j k x hj hk
    exact h.hand_inj j k x (h.hand_of_emptied hj (a := a)).1 (h.hand_of_emptied hk (a := a)).1

end Preservation

end Custody

end CrashInvestigator.Library
