import CrashInvestigator.Tracker.NewOperators
import CrashInvestigator.Tracker.Proofs.AlignedBoundsProofs

/-!
# The contract of the replaced allocation functions

A nested call hands out whatever the raw allocator answers, null too. An outermost call that may not
throw throws all the same when a table cannot grow, and the aligned ones throw on every failure. Where no
backtrace can be captured, the call crashes.
-/

namespace CrashInvestigator.Tracker

open Library

/-! ## When the contract is kept -/

/-- The raw block is obtained and, for an aligned overload, has room for the aligned one. -/
def Overload.Obtains (o : Overload) (env : Env) (count : ℕ) : Prop :=
  env.raw ≠ 0 ∧ ∀ al ∈ o.align, FitsAligned count al

/-- What an overload depends on. Nested in another routine, a throwing one needs a raw block. Outermost,
a throwing one needs a backtrace for a block that it can record; one that may not throw needs a
registration that goes through, and if it is aligned it needs the block too. -/
def Overload.MeetsNeeds (o : Overload) (st : State) (env : Env) (count : ℕ) : Prop :=
  if st.bIsAllocingOrDeallocing then o.nothrow = true ∨ env.raw ≠ 0
  else if o.nothrow then
    (o.align = none ∧ env.raw = 0) ∨
      (o.Obtains env count ∧ Recordable st env env.raw ∧ Countable st env)
  else o.Obtains env count → Recordable st env env.raw → st.captured env ≠ none

section Contract

variable {st : State} {env : Env} {count : ℕ} {o : Overload}

/-- The overloads differ in the memory type, the flag and the alignment only. The flag is that of the
declaration for the plain ones, and always to throw for the aligned ones. -/
theorem operator_eq (o : Overload) (st : State) (env : Env) (count : ℕ) :
    o.operator st env count =
      match o.align with
      | none => testOperatorAlloc st env count o.memoryType (!o.nothrow)
      | some al => testOperatorNewAligned st env count o.memoryType true al := by
  obtain ⟨array, nothrow, align⟩ := o
  cases align <;> cases array <;> cases nothrow <;> rfl

/-- A nested call is a raw request. -/
theorem operator_nested (hnested : st.bIsAllocingOrDeallocing = true) :
    (o.operator st env count).out = .returns env.raw := by
  rw [operator_eq]
  cases o.align with
  | none => simp [testOperatorAlloc, hnested]
  | some al => simp [testOperatorNewAligned, hnested]

/-- An outermost call fails as its flag says when it has no place for the block; otherwise it registers
the raw block, and returns an address of it or ends as the registration does. -/
theorem operator_outermost (ho : st.Outermost) (hn : count ≠ 0) (hal : ∀ al ∈ o.align, al < 2 ^ 64)
    {r : Res} (hr : r = o.operator st env count) :
    (¬ o.Obtains env count ∧
        r.out = if o.nothrow = true ∧ o.align = none then .returns 0 else .throwsBadAlloc) ∨
      (o.Obtains env count ∧ ∃ r',
        r' = addNewAllocatedMemoryAndCleanOldEntry (st.mallocn env.raw) env o.memoryType env.raw ∧
        r.st = r'.st ∧ (r'.out = .returns env.raw → ∃ p, r.out = .returns p ∧ p ≠ 0) ∧
        ((∀ q, r'.out ≠ .returns q) → r.out = r'.out)) := by
  rw [operator_eq] at hr
  cases halign : o.align with
  | none =>
    have hobt : o.Obtains env count ↔ env.raw ≠ 0 := by simp [Overload.Obtains, halign]
    rw [hobt]
    simp only [halign, testOperatorAlloc, ho.2, hn, if_false, Bool.false_eq_true] at hr
    by_cases hraw : env.raw = 0
    · left
      rw [if_pos hraw] at hr
      refine ⟨not_not.mpr hraw, ?_⟩
      rw [hr]
      cases o.nothrow <;> rfl
    · right
      rw [if_neg hraw] at hr
      refine ⟨hraw, _, rfl, by rw [hr], ?_, ?_⟩
      · intro h
        exact ⟨env.raw, by rw [hr]; exact h, hraw⟩
      · intro _
        rw [hr]
  | some al =>
    have hobt : o.Obtains env count ↔ env.raw ≠ 0 ∧ FitsAligned count al := by
      simp [Overload.Obtains, halign]
    rw [hobt]
    simp only [halign] at hr
    have hthrow : ∀ (u : State) (ev : List Event), (nullOrThrow u true ev).out =
        if o.nothrow = true ∧ some al = none then .returns 0 else .throwsBadAlloc := by
      intro u ev
      rw [if_neg (by simp)]
      rfl
    rcases testOperatorNewAligned_body ho (hal al (by simp [halign])) hn hr with ⟨hraw, hb⟩ |
      ⟨hraw, hno, hb⟩ | ⟨hraw, hyes, r', hr', hst, -, hret, hother⟩
    · left
      rw [hb]
      exact ⟨fun h => h.1 hraw, hthrow _ _⟩
    · left
      rw [hb]
      exact ⟨fun h => hno h.2, hthrow _ _⟩
    · right
      refine ⟨⟨hraw, hyes⟩, r', hr', hst, fun h => ⟨_, hret h, ?_⟩, hother⟩
      have hle := Alignment.le_alignUp (Nat.pos_of_ne_zero hyes.1) env.raw
      exact Nat.ne_of_gt (Nat.lt_of_lt_of_le (Nat.pos_of_ne_zero hraw) hle)

theorem keepsContract_returns_iff {r : Res} {p : Addr} (hout : r.out = .returns p) :
    KeepsContract o r ↔ o.nothrow = true ∨ p ≠ 0 := by
  unfold KeepsContract
  cases o.nothrow <;> simp [hout]

theorem keepsContract_throws_iff {r : Res} (hout : r.out = .throwsBadAlloc) :
    KeepsContract o r ↔ o.nothrow = false := by
  unfold KeepsContract
  cases o.nothrow <;> simp [hout]

theorem not_keepsContract_of_crash {r : Res} (hout : r.out = .processEnds)
    (hst : r.st.process = .crashed) : ¬ KeepsContract o r := by
  unfold KeepsContract
  cases o.nothrow <;> simp [hout, hst]

end Contract

end CrashInvestigator.Tracker
