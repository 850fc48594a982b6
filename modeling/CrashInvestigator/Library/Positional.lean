import Mathlib.Data.Nat.Digits.Defs
import Mathlib.Data.Nat.ModEq
import Mathlib.Tactic.Ring

/-!
# Positional values

The value of a list of digits, the lowest one first, modulo a number: from the first power of the base
on that the modulus divides, the digits are lost. The digits need not be smaller than the base. At the
end, the bytes of a word.
-/

namespace CrashInvestigator.Library.Positional

variable {b m n i : ℕ} {L L' : List ℕ}

/-- Once the modulus divides a power of the base, only the digits below that power matter. -/
theorem ofDigits_mod_take (h : m ∣ b ^ n) (L : List ℕ) :
    Nat.ofDigits b L % m = Nat.ofDigits b (L.take n) % m := by
  by_cases hn : n ≤ L.length
  · have hlen : (L.take n).length = n := List.length_take_of_le hn
    obtain ⟨k, hk⟩ := h
    calc Nat.ofDigits b L % m
        = Nat.ofDigits b (L.take n ++ L.drop n) % m := by rw [List.take_append_drop]
      _ = (Nat.ofDigits b (L.take n) + m * (k * Nat.ofDigits b (L.drop n))) % m := by
          rw [Nat.ofDigits_append, hlen, hk, Nat.mul_assoc]
      _ = Nat.ofDigits b (L.take n) % m := Nat.add_mul_mod_self_left _ _ _
  · rw [List.take_of_length_le (by omega)]

/-- A single digit among zeros. -/
theorem ofDigits_single (b i x j : ℕ) :
    Nat.ofDigits b (List.replicate i 0 ++ x :: List.replicate j 0) = b ^ i * x := by
  rw [Nat.ofDigits_append, Nat.ofDigits_cons, Nat.ofDigits_replicate_zero,
    Nat.ofDigits_replicate_zero, List.length_replicate, Nat.mul_zero, Nat.add_zero, Nat.zero_add]

/-- Lists that differ in one digit only agree before it. -/
theorem take_eq_of_agree {α : Type*} {l l' : List α} (hagree : ∀ j, j ≠ i → l[j]? = l'[j]?) :
    l.take i = l'.take i := by
  refine List.ext_getElem? fun j => ?_
  rw [List.getElem?_take, List.getElem?_take]
  split_ifs with hj
  · exact hagree j (Nat.ne_of_lt hj)
  · rfl

/-- A digit at a position whose power the modulus divides does not matter. -/
theorem ofDigits_mod_eq_of_agree (h : m ∣ b ^ i) (hagree : ∀ j, j ≠ i → L[j]? = L'[j]?) :
    Nat.ofDigits b L % m = Nat.ofDigits b L' % m := by
  rw [ofDigits_mod_take h L, ofDigits_mod_take h L', take_eq_of_agree hagree]

/-! ## Bytes -/

/-- The lowest `n` bytes of a word, the lowest one first. -/
def littleEndian : ℕ → ℕ → List UInt8
  | 0, _ => []
  | n + 1, v => UInt8.ofNat v :: littleEndian n (v / 256)

@[simp] theorem littleEndian_length (n v : ℕ) : (littleEndian n v).length = n := by
  induction n generalizing v with
  | zero => rfl
  | succ n ih => rw [littleEndian, List.length_cons, ih]

/-- A word that fits into its bytes is their value. -/
theorem ofDigits_littleEndian {v : ℕ} (hv : v < 256 ^ n) :
    Nat.ofDigits 256 ((littleEndian n v).map UInt8.toNat) = v := by
  induction n generalizing v with
  | zero =>
    have hzero : v = 0 := by simpa using hv
    rw [hzero]
    rfl
  | succ n ih =>
    have hdiv : v / 256 < 256 ^ n := Nat.div_lt_of_lt_mul (by rwa [Nat.pow_succ, Nat.mul_comm] at hv)
    have hfirst : (UInt8.ofNat v).toNat = v % 256 := UInt8.toNat_ofNat
    rw [littleEndian, List.map_cons, Nat.ofDigits_cons, ih hdiv, hfirst]
    exact Nat.mod_add_div v 256

theorem littleEndian_inj {v w : ℕ} (hv : v < 256 ^ n) (hw : w < 256 ^ n)
    (h : littleEndian n v = littleEndian n w) : v = w := by
  rw [← ofDigits_littleEndian hv, h, ofDigits_littleEndian hw]

end CrashInvestigator.Library.Positional
