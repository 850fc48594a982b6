import Mathlib.Algebra.Group.Nat.Defs
import Mathlib.Logic.Function.Basic
import Mathlib.Data.Nat.Basic

/-!
# Words in a byte memory

A memory gives the byte of every address. A word of `n` bytes lies with its lowest byte first. Writing
a word changes these bytes and no other, and a word that fits into its bytes is read back.
-/

namespace CrashInvestigator.Library

/-- The bytes of a memory. -/
abbrev Memory := ℕ → UInt8

namespace Memory

/-- The word of `n` bytes at `a`. -/
def load (m : Memory) (a : ℕ) : ℕ → ℕ
  | 0 => 0
  | n + 1 => (m a).toNat + 256 * load m (a + 1) n

/-- The word `v` is written to the `n` bytes at `a`. -/
def store (m : Memory) (a : ℕ) : ℕ → ℕ → Memory
  | 0, _ => m
  | n + 1, v => Function.update (store m (a + 1) n (v / 256)) a (UInt8.ofNat v)

/-- The byte `c` is written to the `n` bytes at `a`. -/
def fill (m : Memory) (a n : ℕ) (c : UInt8) : Memory := fun x => if a ≤ x ∧ x < a + n then c else m x

variable {m m' : Memory} {a b k n v x : ℕ} {c : UInt8}

/-- A word is written to its own bytes only. -/
theorem store_of_outside (h : x < a ∨ a + n ≤ x) : m.store a n v x = m x := by
  induction n generalizing a v with
  | zero => rfl
  | succ n ih =>
    have hne : x ≠ a := by omega
    rw [store, Function.update_of_ne hne]
    exact ih (by omega)

theorem fill_of_outside (h : x < a ∨ a + n ≤ x) : m.fill a n c x = m x := by
  unfold fill
  exact if_neg (by omega)

/-- Reading looks at the bytes of the word only. -/
theorem load_congr (h : ∀ y, a ≤ y → y < a + n → m y = m' y) : m.load a n = m'.load a n := by
  induction n generalizing a with
  | zero => rfl
  | succ n ih =>
    rw [load, load, h a (Nat.le_refl a) (by omega), ih fun y hy hlt => h y (by omega) (by omega)]

/-- What was written is read back. -/
theorem load_store_same (hv : v < 256 ^ n) : (m.store a n v).load a n = v := by
  induction n generalizing a v with
  | zero =>
    have hzero : v = 0 := by simpa using hv
    rw [hzero]
    rfl
  | succ n ih =>
    have hdiv : v / 256 < 256 ^ n := Nat.div_lt_of_lt_mul (by rwa [Nat.pow_succ, Nat.mul_comm] at hv)
    have hrest : (m.store a (n + 1) v).load (a + 1) n = v / 256 := by
      rw [← ih (a := a + 1) hdiv]
      refine load_congr fun y hy _ => ?_
      rw [store, Function.update_of_ne (by omega)]
    have hfirst : ((m.store a (n + 1) v) a).toNat = v % 256 := by
      rw [store, Function.update_self]
      exact UInt8.toNat_ofNat
    rw [load, hrest, hfirst]
    exact Nat.mod_add_div v 256

/-- Words that do not overlap do not disturb each other. -/
theorem load_store_of_disjoint (h : b + k ≤ a ∨ a + n ≤ b) :
    (m.store a n v).load b k = m.load b k :=
  load_congr fun _ hy hlt => store_of_outside (by omega)

end Memory

end CrashInvestigator.Library
