import CrashInvestigator.Stacks.Backtrace

/-!
# The bucket of a stack

`HashOfTheStack` is the value of the frames in base 1000 modulo `2 ^ 64`. The number of buckets is
`2 ^ 12` and divides `1000 ^ 4`, so a bucket depends on the four innermost frames only.
-/

namespace CrashInvestigator.Stacks

open Library HashItems

/-- The loop adds the value of the remaining frames at the current multiplier. -/
theorem hashLoop_toNat (frames : List UInt64) (cunRet unMult : UInt64) :
    (hashLoop cunRet unMult frames).toNat ≡
      cunRet.toNat + unMult.toNat * Nat.ofDigits 1000 (frames.map UInt64.toNat) [MOD 2 ^ 64] := by
  induction frames generalizing cunRet unMult with
  | nil => rfl
  | cons frame frames ih =>
    have hret : (cunRet + frame * unMult).toNat ≡
        cunRet.toNat + frame.toNat * unMult.toNat [MOD 2 ^ 64] := by
      rw [UInt64.toNat_add, UInt64.toNat_mul]
      exact (Nat.mod_modEq _ _).trans (Nat.ModEq.rfl.add (Nat.mod_modEq _ _))
    have hmult : (unMult * 1000).toNat ≡ unMult.toNat * 1000 [MOD 2 ^ 64] := by
      rw [UInt64.toNat_mul]
      exact Nat.mod_modEq _ _
    set rest := Nat.ofDigits 1000 (frames.map UInt64.toNat) with hrest
    calc (hashLoop cunRet unMult (frame :: frames)).toNat
        ≡ (cunRet + frame * unMult).toNat + (unMult * 1000).toNat * rest [MOD 2 ^ 64] := ih _ _
      _ ≡ cunRet.toNat + frame.toNat * unMult.toNat + unMult.toNat * 1000 * rest [MOD 2 ^ 64] :=
          hret.add (hmult.mul_right rest)
      _ = cunRet.toNat + unMult.toNat * (frame.toNat + 1000 * rest) := by ring
      _ = cunRet.toNat + unMult.toNat *
          Nat.ofDigits 1000 ((frame :: frames).map UInt64.toNat) := by
          rw [List.map_cons, Nat.ofDigits_cons]

/-- Reducing the hash to a bucket forgets that it was reduced to a word. -/
theorem unSize_eq (stack : Backtrace) :
    unSize stack = Nat.ofDigits 1000 (stack.ppBuffer.map UInt64.toNat) % cpputilsmHashSize := by
  have hdvd : cpputilsmHashSize ∣ 2 ^ 64 := ⟨2 ^ 52, rfl⟩
  have hloop := (hashLoop_toNat stack.ppBuffer 0 1).of_dvd hdvd
  have hzero : (0 : UInt64).toNat = 0 := rfl
  have hone : (1 : UInt64).toNat = 1 := rfl
  rw [hzero, hone, Nat.zero_add, Nat.one_mul] at hloop
  exact hloop

theorem cpputilsmHashSize_dvd_iff (i : ℕ) : cpputilsmHashSize ∣ 1000 ^ i ↔ 4 ≤ i := by
  constructor
  · intro h
    by_contra hlt
    have hcases : i = 0 ∨ i = 1 ∨ i = 2 ∨ i = 3 := by omega
    rcases hcases with rfl | rfl | rfl | rfl <;> revert h <;> decide
  · intro h
    have hfour : cpputilsmHashSize ∣ 1000 ^ 4 := ⟨244140625, rfl⟩
    exact hfour.trans (Nat.pow_dvd_pow 1000 h)

/-- Stacks with the same four innermost frames are in the same bucket. -/
theorem unSize_eq_of_take {stack stack' : Backtrace}
    (h : stack.ppBuffer.take 4 = stack'.ppBuffer.take 4) : unSize stack = unSize stack' := by
  have hfour := (cpputilsmHashSize_dvd_iff 4).mpr (Nat.le_refl 4)
  rw [unSize_eq, unSize_eq, Positional.ofDigits_mod_take hfour (stack.ppBuffer.map UInt64.toNat),
    Positional.ofDigits_mod_take hfour (stack'.ppBuffer.map UInt64.toNat), ← List.map_take,
    ← List.map_take, h]

/-- The stack of depth `d` whose only frame that is not null is `frame`, at `i`. -/
def singleFrame {d i : ℕ} (h : i < d) (frame : UInt64) : Backtrace where
  ppBuffer := List.replicate i 0 ++ frame :: List.replicate (d - i - 1) 0
  stackDeepness := d
  filled := by
    rw [List.length_append, List.length_cons, List.length_replicate, List.length_replicate]
    omega

theorem unSize_singleFrame {d i : ℕ} (h : i < d) (frame : UInt64) :
    unSize (singleFrame h frame) = 1000 ^ i * frame.toNat % cpputilsmHashSize := by
  have hzero : (0 : UInt64).toNat = 0 := rfl
  rw [unSize_eq, singleFrame, List.map_append, List.map_cons, List.map_replicate,
    List.map_replicate, hzero, Positional.ofDigits_single]

theorem singleFrame_differAt {d i : ℕ} (h : i < d) (frame frame' : UInt64) :
    DifferAt i (singleFrame h frame) (singleFrame h frame') := by
  refine ⟨rfl, fun j hj => ?_⟩
  show (List.replicate i 0 ++ frame :: List.replicate (d - i - 1) 0)[j]? =
    (List.replicate i 0 ++ frame' :: List.replicate (d - i - 1) 0)[j]?
  rcases Nat.lt_or_gt_of_ne hj with hlt | hgt
  · rw [List.getElem?_append_left (by simpa using hlt),
      List.getElem?_append_left (by simpa using hlt)]
  · have hpos : j - i ≠ 0 := by omega
    obtain ⟨k, hk⟩ := Nat.exists_eq_succ_of_ne_zero hpos
    rw [List.getElem?_append_right (by rw [List.length_replicate]; omega),
      List.getElem?_append_right (by rw [List.length_replicate]; omega), List.length_replicate, hk,
      Nat.succ_eq_add_one, List.getElem?_cons_succ, List.getElem?_cons_succ]

/-- The frames that contribute to the bucket are the four innermost ones. -/
theorem contributes_iff {d i : ℕ} (h : i < d) : Contributes d i ↔ i < 4 := by
  constructor
  · rintro ⟨stack, stack', -, hdiffer, hne⟩
    by_contra hfour
    have hdvd := (cpputilsmHashSize_dvd_iff i).mpr (by omega)
    apply hne
    rw [unSize_eq, unSize_eq]
    refine Positional.ofDigits_mod_eq_of_agree hdvd fun j hj => ?_
    rw [List.getElem?_map, List.getElem?_map, hdiffer.agree j hj]
  · intro hfour
    refine ⟨singleFrame h 0, singleFrame h 1, rfl, singleFrame_differAt h 0 1, ?_⟩
    have hzero : (0 : UInt64).toNat = 0 := rfl
    have hone : (1 : UInt64).toNat = 1 := rfl
    rw [unSize_singleFrame, unSize_singleFrame, hzero, hone, Nat.mul_zero, Nat.mul_one,
      Nat.zero_mod]
    intro hmod
    have := (cpputilsmHashSize_dvd_iff i).mp (Nat.dvd_of_mod_eq_zero hmod.symm)
    omega

/-- The fourth frame of a deep stack contributes. -/
theorem contributes_iff_fourth_frame : Contributes 100 3 :=
  (@contributes_iff 100 3 (by omega)).mpr (by omega)

/-- The fifth frame of a stack of five does not. -/
theorem fifth_frame_does_not_contribute : ¬ ∀ d i, i < d → Contributes d i := by
  intro h
  obtain ⟨stack, stack', -, hdiffer, hne⟩ := h 5 4 (by omega)
  apply hne
  exact unSize_eq_of_take (Positional.take_eq_of_agree hdiffer.agree)

end CrashInvestigator.Stacks
