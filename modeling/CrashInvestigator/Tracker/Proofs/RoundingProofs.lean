import CrashInvestigator.Tracker.Proofs.AlignedProofs

/-!
# The rounding of an alignment

The words that `TestOperatorNewAligned` computes are those of the exact arithmetic, and up to the
highest bit of a word the result is the least power of two that is not below the alignment.
-/

namespace CrashInvestigator.Tracker

open Library

/-! ## Words -/

theorem shiftOr_toNat (u k : UInt64) (hk : k.toNat < 64) :
    (u ||| (u >>> k)).toNat = u.toNat ||| (u.toNat >>> k.toNat) := by
  rw [UInt64.toNat_or, UInt64.toNat_shiftRight, Nat.mod_eq_of_lt hk]

theorem smearWord_toNat (u : UInt64) : (smearWord u).toNat = smear u.toNat := by
  unfold smearWord smear
  simp only [shiftOr_toNat _ 1 (by decide), shiftOr_toNat _ 2 (by decide),
    shiftOr_toNat _ 4 (by decide), shiftOr_toNat _ 8 (by decide), shiftOr_toNat _ 16 (by decide),
    shiftOr_toNat _ 32 (by decide)]
  rfl

/-- The words are those of the model with unbounded numbers. -/
theorem effectiveAlignWord_toNat (align : UInt64) :
    (effectiveAlignWord align).toNat = effectiveAlign align.toNat := by
  unfold effectiveAlignWord effectiveAlign
  by_cases hsmall : align.toNat < stdcppDefaultNewAlignment
  · rw [if_pos hsmall, if_pos hsmall]
    rfl
  · rw [if_neg hsmall, if_neg hsmall]
    have hone : (1 : UInt64).toNat = 1 := rfl
    have hdef : stdcppDefaultNewAlignment = 16 := rfl
    have hle : (1 : UInt64) ≤ align := by
      rw [UInt64.le_iff_toNat_le, hone]
      omega
    have hword : (smearWord (align - 1) + 1).toNat = (smear (align.toNat - 1) + 1) % sizeModulus := by
      rw [UInt64.toNat_add, smearWord_toNat, UInt64.toNat_sub_of_le _ _ hle, hone]
      rfl
    have heq : smearWord (align - 1) + 1 = align ↔
        (smear (align.toNat - 1) + 1) % sizeModulus = align.toNat := by
      rw [← hword]
      exact UInt64.toNat_inj.symm
    by_cases hkept : smearWord (align - 1) + 1 = align
    · simp only [ne_eq, hkept, heq.mp hkept, not_true_eq_false, if_false]
    · simp only [ne_eq, hkept, mt heq.mpr hkept, not_false_eq_true, if_true]
      exact hword

/-! ## Exact values -/

/-- The values of the statements before the increment fit into as many bits as the alignment. -/
theorem ullnAlignValues_lt {align k : ℕ} (h : align - 1 < 2 ^ k) :
    ∀ u ∈ (ullnAlignValues align).dropLast, u < 2 ^ k := by
  have h₁ := Alignment.Smeared.one (align - 1)
  have h₂ := h₁.double
  have h₃ := h₂.double
  have h₄ := h₃.double
  have h₅ := h₄.double
  have h₆ := h₅.double
  have h₇ := h₆.double
  intro u hu
  simp only [ullnAlignValues, List.dropLast, List.mem_cons, List.not_mem_nil, or_false] at hu
  rcases hu with rfl | rfl | rfl | rfl | rfl | rfl | rfl
  · exact h₁.lt h
  · exact h₂.lt h
  · exact h₃.lt h
  · exact h₄.lt h
  · exact h₅.lt h
  · exact h₆.lt h
  · exact h₇.lt h

theorem ullnAlignValues_eq (align : ℕ) : ullnAlignValues align =
    (ullnAlignValues align).dropLast ++ [smear (align - 1) + 1] := rfl

/-- Up to the highest bit no statement wraps, the increment included. -/
theorem ullnAlignValues_fit {align : ℕ} (h : align ≤ 2 ^ 63) (hpos : 0 < align) :
    ∀ u ∈ ullnAlignValues align, u < sizeModulus := by
  have hmod : sizeModulus = 2 ^ 64 := rfl
  intro u hu
  rw [ullnAlignValues_eq, List.mem_append, List.mem_singleton] at hu
  rcases hu with hu | rfl
  · have hlt := ullnAlignValues_lt (k := 63) (by omega) u hu
    omega
  · have hsize : 2 ^ (align - 1).size ≤ 2 ^ 63 := Alignment.two_pow_size_le h
    rw [smear_eq (by omega)]
    omega

/-- The rounding of `TestOperatorNewAligned`: below the default alignment the default, up to the
highest bit the least power of two that is not below, with no statement that wraps. -/
theorem alignment_rounding (align : UInt64) :
    (align.toNat < stdcppDefaultNewAlignment →
      (effectiveAlignWord align).toNat = stdcppDefaultNewAlignment) ∧
    (stdcppDefaultNewAlignment ≤ align.toNat → align.toNat ≤ 2 ^ 63 →
      IsLeast {m | align.toNat ≤ m ∧ ∃ k, m = 2 ^ k} (effectiveAlignWord align).toNat ∧
      (∀ k, align.toNat = 2 ^ k → effectiveAlignWord align = align) ∧
      1 ≤ align.toNat ∧ ∀ u ∈ ullnAlignValues align.toNat, u < sizeModulus) := by
  have hdef : stdcppDefaultNewAlignment = 16 := rfl
  have hmod : sizeModulus = 2 ^ 64 := rfl
  rw [effectiveAlignWord_toNat]
  constructor
  · intro hsmall
    rw [effectiveAlign, if_pos hsmall]
  · intro hle htop
    have hsize : 2 ^ (align.toNat - 1).size ≤ 2 ^ 63 := Alignment.two_pow_size_le htop
    have heff : effectiveAlign align.toNat = 2 ^ (align.toNat - 1).size := by
      rw [effectiveAlign_eq (by omega) hle, Nat.mod_eq_of_lt (by omega)]
    have hleast : IsLeast {m | align.toNat ≤ m ∧ ∃ k, m = 2 ^ k} (effectiveAlign align.toNat) := by
      rw [heff]
      exact Alignment.isLeast_two_pow_size align.toNat
    refine ⟨hleast, ?_, by omega, ullnAlignValues_fit htop (by omega)⟩
    intro k hk
    apply UInt64.toNat_inj.mp
    rw [effectiveAlignWord_toNat]
    exact Nat.le_antisymm (hleast.2 ⟨Nat.le_refl _, k, hk⟩) hleast.1.1

/-- One above a power of two, and the highest bit itself. -/
theorem alignment_rounding_at_the_edges :
    IsLeast {m | (33 : UInt64).toNat ≤ m ∧ ∃ k, m = 2 ^ k} (effectiveAlignWord 33).toNat ∧
      effectiveAlignWord 0x8000000000000000 = 0x8000000000000000 ∧
      (effectiveAlignWord 0).toNat = stdcppDefaultNewAlignment :=
  ⟨((alignment_rounding 33).2 (by decide) (by decide)).1,
    ((alignment_rounding 0x8000000000000000).2 (by decide) (by decide)).2.1 63 (by decide),
    (alignment_rounding 0).1 (by decide)⟩

end CrashInvestigator.Tracker
