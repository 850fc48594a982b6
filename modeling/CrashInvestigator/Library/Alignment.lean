import Mathlib.Data.Nat.Bitwise
import Mathlib.Data.Nat.Size
import Mathlib.Order.Bounds.Basic
import Mathlib.Tactic.Ring

/-!
# Alignment of addresses

The least multiple of an alignment at or above an address, and the powers of two that serve as
alignments. Nothing here refers to a particular allocator.
-/

namespace CrashInvestigator.Library.Alignment

variable {a n m : ℕ}

/-- The least multiple of `a` that is at least `n`. -/
def alignUp (a n : ℕ) : ℕ := (n + a - 1) / a * a

theorem dvd_alignUp (a n : ℕ) : a ∣ alignUp a n := Nat.dvd_mul_left _ _

theorem le_alignUp (ha : 0 < a) (n : ℕ) : n ≤ alignUp a n := by
  have hdiv := Nat.div_add_mod (n + a - 1) a
  have hmod := Nat.mod_lt (n + a - 1) ha
  have hcomm : a * ((n + a - 1) / a) = alignUp a n := Nat.mul_comm _ _
  omega

/-- No multiple in between is left out. -/
theorem alignUp_le (ha : 0 < a) (hm : a ∣ m) (hn : n ≤ m) : alignUp a n ≤ m := by
  obtain ⟨k, rfl⟩ := hm
  have hdiv : (n + a - 1) / a ≤ k := by
    have hlt : (n + a - 1) / a < k + 1 := by
      rw [Nat.div_lt_iff_lt_mul ha]
      have : (k + 1) * a = a * k + a := by ring
      omega
    omega
  calc alignUp a n ≤ k * a := Nat.mul_le_mul_right a hdiv
    _ = a * k := Nat.mul_comm k a

/-- An address is its own alignment exactly when it is aligned. -/
theorem alignUp_eq_self_iff (ha : 0 < a) : alignUp a n = n ↔ a ∣ n := by
  constructor
  · intro h
    rw [← h]
    exact dvd_alignUp a n
  · intro h
    exact Nat.le_antisymm (alignUp_le ha h (Nat.le_refl n)) (le_alignUp ha n)

/-- An aligned address is less than one alignment away. -/
theorem alignUp_lt (ha : 0 < a) (n : ℕ) : alignUp a n < n + a := by
  have hmul : alignUp a n ≤ n + a - 1 := Nat.div_mul_le_self _ _
  omega

/-- No multiple of zero lies at or above a positive number. -/
theorem alignUp_zero (n : ℕ) : alignUp 0 n = 0 := Nat.mul_zero _

/-! ## Smearing the highest bit -/

/-- Each bit of `x` was copied to the `w - 1` bits below it. -/
def Smeared (x w u : ℕ) : Prop := ∀ i, u.testBit i = true ↔ ∃ j, j < w ∧ x.testBit (i + j) = true

theorem Smeared.one (x : ℕ) : Smeared x 1 x := by
  intro i
  constructor
  · intro h
    exact ⟨0, by omega, h⟩
  · rintro ⟨j, hj, h⟩
    obtain rfl : j = 0 := by omega
    exact h

/-- A shift by the width doubles it. -/
theorem Smeared.double {x w u : ℕ} (h : Smeared x w u) :
    Smeared x (w + w) (u ||| (u >>> w)) := by
  intro i
  rw [Nat.testBit_or, Nat.testBit_shiftRight, Bool.or_eq_true, h i, h (w + i)]
  constructor
  · rintro (⟨j, hj, hbit⟩ | ⟨j, hj, hbit⟩)
    · exact ⟨j, by omega, hbit⟩
    · exact ⟨w + j, by omega, by rw [← hbit]; congr 1; omega⟩
  · rintro ⟨j, hj, hbit⟩
    by_cases hlow : j < w
    · exact Or.inl ⟨j, hlow, hbit⟩
    · exact Or.inr ⟨j - w, by omega, by rw [← hbit]; congr 1; omega⟩

/-- A number that fits the width is smeared into all bits up to its highest one. -/
theorem Smeared.eq {x w u : ℕ} (h : Smeared x w u) (hx : x < 2 ^ w) : u = 2 ^ x.size - 1 := by
  refine Nat.eq_of_testBit_eq fun i => ?_
  rw [Nat.testBit_two_pow_sub_one, Bool.eq_iff_iff, decide_eq_true_eq, h i]
  constructor
  · rintro ⟨j, -, hbit⟩
    have hpow : 2 ^ (i + j) ≤ x := Nat.ge_two_pow_of_testBit hbit
    have := Nat.lt_size.mpr hpow
    omega
  · intro hi
    have hx0 : x ≠ 0 := by
      rintro rfl
      simp at hi
    have hlog : x.log2 < w := (Nat.log2_lt hx0).mpr hx
    have hle : i ≤ x.log2 := by
      have hpow := Nat.lt_size.mp hi
      exact (Nat.le_log2 hx0).mpr hpow
    exact ⟨x.log2 - i, by omega, by rw [Nat.add_sub_cancel' hle]; exact Nat.testBit_log2 hx0⟩

/-- Smearing sets no bit above the highest one. -/
theorem Smeared.lt {x w u k : ℕ} (h : Smeared x w u) (hx : x < 2 ^ k) : u < 2 ^ k := by
  refine Nat.lt_pow_two_of_testBit u fun i hi => ?_
  by_contra hbit
  obtain ⟨j, -, hj⟩ := (h i).mp (by simpa using hbit)
  have hle : 2 ^ (i + j) ≤ x := Nat.ge_two_pow_of_testBit hj
  have hpow : 2 ^ k ≤ 2 ^ (i + j) := Nat.pow_le_pow_right (by omega) (by omega)
  omega

/-! ## Rounding up to a power of two -/

theorem le_two_pow_size (n : ℕ) : n ≤ 2 ^ (n - 1).size := by
  have hlt : n - 1 < 2 ^ (n - 1).size := Nat.lt_size_self (n - 1)
  omega

/-- No power of two in between is left out. -/
theorem two_pow_size_le {k : ℕ} (hn : n ≤ 2 ^ k) : 2 ^ (n - 1).size ≤ 2 ^ k := by
  have hpos : 0 < 2 ^ k := Nat.two_pow_pos k
  have hsize : (n - 1).size ≤ k := Nat.size_le.mpr (by omega)
  exact Nat.pow_le_pow_right (by omega) hsize

theorem isLeast_two_pow_size (n : ℕ) : IsLeast {m | n ≤ m ∧ ∃ k, m = 2 ^ k} (2 ^ (n - 1).size) := by
  refine ⟨⟨le_two_pow_size n, _, rfl⟩, ?_⟩
  rintro m ⟨hn, k, rfl⟩
  exact two_pow_size_le hn

end CrashInvestigator.Library.Alignment
