import CrashInvestigator.Tracker.Proofs.AlignedProofs

/-!
# The bounds of an aligned allocation

`TestOperatorNewAligned` asks for the size, the alignment and a pointer more. When this sum does not
wrap, the aligned block always fits; when it wraps, `std::align` finds no place and the raw block is
not given back. It is not given back either when the registration throws.
-/

namespace CrashInvestigator.Tracker

open Library

/-! ## Statements -/

/-- The address has a record, or the table of records can grow. -/
def Recordable (st : State) (env : Env) (p : Addr) : Prop :=
  env.memoryItem = true ∨ ∃ old, st.findMemoryItem p = some old

/-- A stack is captured, and it is known or the table of stacks can grow. -/
def Countable (st : State) (env : Env) : Prop :=
  ∃ t, st.captured env = some t ∧
    (env.stackItem = true ∨ ∃ e, (st.capture env).findStackItem t = some e)

/-- The size with the alignment and a pointer is a `size_t`, and so is the alignment. -/
def FitsAligned (count align : ℕ) : Prop :=
  effectiveAlign align ≠ 0 ∧ count + effectiveAlign align + sizeofVoidPtr < sizeModulus

instance (count align : ℕ) : Decidable (FitsAligned count align) := by
  unfold FitsAligned
  infer_instance

/-- The call returns an aligned address whose bytes lie in the raw block it asked for, or it fails and
no raw block it asked for is left; or the callback of a leak report ends the process. -/
def AlignedInBounds (env : Env) (count align : ℕ) (r : Res) : Prop :=
  (∃ p n, r.out = .returns p ∧ p ≠ 0 ∧ .mallocn n env.raw ∈ r.events ∧
      max align stdcppDefaultNewAlignment ∣ p ∧ env.raw ≤ p ∧ p + count ≤ env.raw + n) ∨
    ((r.out = .returns 0 ∨ r.out = .throwsBadAlloc) ∧
      ∀ n q, .mallocn n q ∈ r.events → q ≠ 0 → q ∉ r.st.live) ∨
    ∃ code, r.st.process = .exited code

/-! ## Outcomes of a registration -/

section Registration

variable {st : State} {env : Env} {p : Addr} {ty : MemoryType}

/-- The report of a leak is answered by going on, or ends the process as the callback says. -/
theorem registerStackItem_goes_on (hrun : st.process = .running) (item : SMemoryItem) {t : ℕ}
    (h : env.stackItem = true ∨ ∃ e, st.findStackItem t = some e) {r : Res}
    (hr : r = registerStackItem st env item p (some t)) :
    r.out = .returns p ∨ (r.out = .processEnds ∧ ∃ code, r.st.process = .exited code) := by
  rcases registerStackItem_cases st env item p t with ⟨-, -, hc⟩ | ⟨hf, hgrow, -⟩ |
    ⟨e, -, -, hc⟩ | ⟨e, -, -, hc⟩ | ⟨e, hf, -, -, r', hr', hc⟩
  · rw [hr, hc]
    exact Or.inl rfl
  · rcases h with h | ⟨e, he⟩
    · rw [hgrow] at h
      cases h
    · rw [hf] at he
      cases he
  · rw [hr, hc]
    exact Or.inl rfl
  · rw [hr, hc]
    exact Or.inl rfl
  · rcases initFailure_process (by simp) hr' with hsame | ⟨hout, hend⟩
    · left
      have hgo : r'.st.process = .running := hsame.trans hrun
      rw [hr, hc, if_pos hgo]
    · right
      rw [hr, hc, if_neg (by rw [hend]; simp)]
      exact ⟨hout, 1, hend⟩

/-- How the registration of a raw block ends: it throws because a table cannot grow and keeps the
block, it dereferences a null backtrace, or it goes through. -/
theorem addNew_outcome (ho : st.Outermost) {q : Addr} {r : Res}
    (hr : r = addNewAllocatedMemoryAndCleanOldEntry (st.mallocn q) env ty p) :
    (¬ (Recordable st env p ∧ (st.captured env = none ∨ Countable st env)) ∧
        r.out = .throwsBadAlloc ∧ r.st.live = (st.mallocn q).live ∧ r.st.process = .running) ∨
      (Recordable st env p ∧ st.captured env = none ∧ r.out = .processEnds ∧
        r.st.process = .crashed) ∨
      (Recordable st env p ∧ Countable st env ∧
        (r.out = .returns p ∨ (r.out = .processEnds ∧ ∃ code, r.st.process = .exited code))) := by
  have hbody : r = addNewAllocatedMemoryAndCleanOldEntryNoLock ((st.mallocn q).capture env) env ty p
      (st.captured env) := by
    rw [hr, ← captured_mallocn q]
    rfl
  have hfindItem : ((st.mallocn q).capture env).findMemoryItem p = st.findMemoryItem p :=
    findMemoryItem_congr (by simp) p
  have hrun : ((st.mallocn q).capture env).process = .running := by simpa using ho.1
  rcases addNew_cases ((st.mallocn q).capture env) env ty p (st.captured env) with ⟨hnone, hc⟩ |
    ⟨st₁, hreg, hc⟩
  · obtain ⟨hf, hgrow⟩ := registerMemoryItem_none_iff.mp hnone
    rw [hfindItem] at hf
    left
    rw [hbody, hc]
    refine ⟨?_, rfl, rfl, hrun⟩
    rintro ⟨hg | ⟨old, hold⟩, -⟩
    · rw [hgrow] at hg
      cases hg
    · rw [hf] at hold
      cases hold
  · obtain ⟨hstk, hlive, hproc, -, -, -, -, hdata⟩ := registerMemoryItem_frame hreg
    have hrec : Recordable st env p := by
      rcases registerMemoryItem_cases hreg with ⟨-, hg, -⟩ | ⟨old, hf, -⟩
      · exact Or.inl hg
      · exact Or.inr ⟨old, hfindItem ▸ hf⟩
    have hdata' : st₁.traces.data = (st.capture env).traces.data := by
      rw [hdata]
      simp [State.capture]
    have hfind : ∀ t, st₁.findStackItem t = (st.capture env).findStackItem t := fun t =>
      findStackItem_congr (by simpa using hstk) hdata' t
    cases ht : st.captured env with
    | none =>
      right; left
      rw [ht] at hc hbody
      rw [hbody, hc]
      exact ⟨hrec, rfl, rfl, rfl⟩
    | some t =>
      rw [ht] at hc hbody
      by_cases hcount : env.stackItem = true ∨ ∃ e, st₁.findStackItem t = some e
      · right; right
        refine ⟨hrec, ⟨t, ht, by simpa only [hfind] using hcount⟩, ?_⟩
        exact registerStackItem_goes_on (hproc.trans hrun) _ hcount (hbody.trans hc)
      · left
        rw [not_or, Bool.not_eq_true] at hcount
        have hno : st₁.findStackItem t = none := by
          cases hf : st₁.findStackItem t with
          | none => rfl
          | some e => exact absurd ⟨e, hf⟩ hcount.2
        have hthrow : registerStackItem st₁ env ⟨ty, .allocated, p, some t, none⟩ p (some t) =
            ⟨st₁, .throwsBadAlloc, []⟩ := by
          simp [registerStackItem, hno, hcount.1]
        rw [hbody, hc, hthrow]
        refine ⟨?_, rfl, hlive, hproc.trans hrun⟩
        rintro ⟨-, hnone | ⟨t', ht', hcount'⟩⟩
        · cases hnone
        · rw [ht] at ht'
          cases ht'
          simp only [← hfind, hno, reduceCtorEq, exists_false, or_false] at hcount'
          rw [hcount.1] at hcount'
          cases hcount'

end Registration

/-! ## Where the aligned block lies -/

theorem effectiveAlign_le {align : ℕ} (h : align < 2 ^ 64) : effectiveAlign align ≤ 2 ^ 63 := by
  by_cases hsmall : align < stdcppDefaultNewAlignment
  · rw [effectiveAlign, if_pos hsmall]
    decide
  · rw [effectiveAlign_eq h (by omega)]
    have hsize : (align - 1).size ≤ 64 := Nat.size_le.mpr (by omega)
    by_cases hmax : (align - 1).size = 64
    · rw [hmax]
      decide
    · have hpow : 2 ^ (align - 1).size ≤ 2 ^ 63 := Nat.pow_le_pow_right (by decide) (by omega)
      exact Nat.le_trans (Nat.mod_le _ _) hpow

/-- The size that is requested, as the code computes it. -/
def actuallyAllocating (count align : ℕ) : ℕ :=
  (count + effectiveAlign align + sizeofVoidPtr) % sizeModulus

/-- A sum that wraps is below the size. -/
theorem actuallyAllocating_lt {count align : ℕ} (ha : align < 2 ^ 64)
    (h : sizeModulus ≤ count + effectiveAlign align + sizeofVoidPtr) :
    actuallyAllocating count align < count ∨ count = 0 := by
  have hle := effectiveAlign_le ha
  have hmod : actuallyAllocating count align < sizeModulus := Nat.mod_lt _ (by decide)
  simp only [sizeModulus, sizeofVoidPtr] at h hmod
  by_cases hbig : 2 ^ 64 ≤ count
  · omega
  · have hsub : actuallyAllocating count align =
        count + effectiveAlign align + 8 - 2 ^ 64 := by
      have hlt : count + effectiveAlign align + 8 - 2 ^ 64 < 2 ^ 64 := by omega
      rw [actuallyAllocating, sizeModulus, sizeofVoidPtr, Nat.mod_eq_sub_mod h,
        Nat.mod_eq_of_lt hlt]
    omega

/-- `std::align` finds a place exactly when the sum does not wrap. -/
theorem stdAlign_requested {count align raw : ℕ} (ha : align < 2 ^ 64) (hn : count ≠ 0)
    (hraw : raw ≠ 0) :
    stdAlign (effectiveAlign align) count raw (actuallyAllocating count align) =
      if FitsAligned count align then some (Alignment.alignUp (effectiveAlign align) raw) else none := by
  have hplace : (raw ≤ Alignment.alignUp (effectiveAlign align) raw ∧
      Alignment.alignUp (effectiveAlign align) raw + count ≤
        raw + actuallyAllocating count align) ↔ FitsAligned count align := by
    by_cases hzero : effectiveAlign align = 0
    · refine iff_of_false ?_ fun h => h.1 hzero
      rw [hzero, Alignment.alignUp_zero]
      omega
    · have hpos : 0 < effectiveAlign align := Nat.pos_of_ne_zero hzero
      have hle := Alignment.le_alignUp hpos raw
      have hlt := Alignment.alignUp_lt hpos raw
      by_cases hwrap : count + effectiveAlign align + sizeofVoidPtr < sizeModulus
      · have hact : actuallyAllocating count align = count + effectiveAlign align + sizeofVoidPtr :=
          Nat.mod_eq_of_lt hwrap
        exact iff_of_true ⟨hle, by omega⟩ ⟨hzero, hwrap⟩
      · have hsmall := (actuallyAllocating_lt ha (by omega)).resolve_right hn
        exact iff_of_false (by omega) fun h => hwrap h.2
  simp only [stdAlign, hplace]

section Aligned

variable {st : State} {env : Env} {count align : ℕ} {memoryType : MemoryType} {bThrow : Bool}

/-- What an aligned allocation by an outermost thread does: it gets no raw block, it gets one in which
the aligned block has no place, or it registers the raw block. -/
theorem testOperatorNewAligned_body (ho : st.Outermost) (ha : align < 2 ^ 64) (hn : count ≠ 0)
    {r : Res} (hr : r = testOperatorNewAligned st env count memoryType bThrow align) :
    (env.raw = 0 ∧ r = nullOrThrow st bThrow [.mallocn (actuallyAllocating count align) 0]) ∨
      (env.raw ≠ 0 ∧ ¬ FitsAligned count align ∧ r = nullOrThrow (st.mallocn env.raw) bThrow
        [.mallocn (actuallyAllocating count align) env.raw]) ∨
      (env.raw ≠ 0 ∧ FitsAligned count align ∧ ∃ r',
        r' = addNewAllocatedMemoryAndCleanOldEntry (st.mallocn env.raw) env memoryType env.raw ∧
        r.st = r'.st ∧ .mallocn (actuallyAllocating count align) env.raw ∈ r.events ∧
        (r'.out = .returns env.raw →
          r.out = .returns (Alignment.alignUp (effectiveAlign align) env.raw)) ∧
        ((∀ q, r'.out ≠ .returns q) → r.out = r'.out)) := by
  unfold testOperatorNewAligned at hr
  rw [if_neg (by simp [ho.2]), if_neg hn] at hr
  by_cases hraw : env.raw = 0
  · left
    simp only [if_pos hraw] at hr
    exact ⟨hraw, hr⟩
  · simp only [if_neg hraw] at hr
    have hplace := stdAlign_requested ha hn hraw
    unfold actuallyAllocating at hplace
    rw [hplace] at hr
    by_cases hfits : FitsAligned count align
    · rw [if_pos hfits] at hr
      right; right
      refine ⟨hraw, hfits, _, rfl, ?_, ?_, ?_, ?_⟩
      · rw [hr]
      · rw [hr]
        exact List.mem_cons_self ..
      · intro h
        simp only [hr, h]
      · intro h
        rw [hr]
        cases hout : (addNewAllocatedMemoryAndCleanOldEntry (st.mallocn env.raw) env memoryType
            env.raw).out with
        | returns q => exact absurd hout (h q)
        | throwsBadAlloc => simp only
        | processEnds => simp only
    · rw [if_neg hfits] at hr
      exact Or.inr (Or.inl ⟨hraw, hfits, hr⟩)

/-- A raw block that stays live after the call failed is a leak. -/
theorem not_alignedInBounds_of_kept {r : Res} {n : ℕ} (hraw : env.raw ≠ 0)
    (hev : .mallocn n env.raw ∈ r.events) (hlive : env.raw ∈ r.st.live)
    (hout : r.out = .returns 0 ∨ r.out = .throwsBadAlloc) (hrun : r.st.process = .running) :
    ¬ AlignedInBounds env count align r := by
  rintro (⟨p, m, hret, hp, -⟩ | ⟨-, hgone⟩ | ⟨code, hend⟩)
  · rcases hout with h | h
    · rw [h] at hret
      cases hret
      exact hp rfl
    · rw [h] at hret
      cases hret
  · exact hgone n _ hev hraw hlive
  · rw [hrun] at hend
    cases hend

theorem nullOrThrow_out (st : State) (bThrow : Bool) (events : List Event) :
    (nullOrThrow st bThrow events).out = .returns 0 ∨
      (nullOrThrow st bThrow events).out = .throwsBadAlloc := by
  cases bThrow
  · exact Or.inl rfl
  · exact Or.inr rfl

theorem raw_mem_mallocn (hraw : env.raw ≠ 0) : env.raw ∈ (st.mallocn env.raw).live := by
  rw [mallocn_live st env.raw hraw]
  exact Finset.mem_insert_self _ _

/-- An aligned allocation is in bounds or leaves nothing exactly when it gets no raw block, or the
enlarged size does not wrap and the registration can be completed. Beside, a block that is returned is
live unless the callback of its leak report freed it. -/
theorem aligned_in_bounds_iff (ho : st.Outermost) (env : Env) {count : ℕ} (hn : 1 ≤ count)
    (memoryType : MemoryType) (bThrow : Bool) {k : ℕ} (hk : k < 64) :
    (AlignedInBounds env count (2 ^ k)
        (testOperatorNewAligned st env count memoryType bThrow (2 ^ k)) ↔
      env.raw = 0 ∨
        (count + max (2 ^ k) stdcppDefaultNewAlignment + sizeofVoidPtr < 2 ^ 64 ∧
          Recordable st env env.raw ∧ Countable st env)) ∧
      ∀ p, (testOperatorNewAligned st env count memoryType bThrow (2 ^ k)).out = .returns p →
        p ≠ 0 → (env.raw ∈ (testOperatorNewAligned st env count memoryType bThrow (2 ^ k)).st.live ↔
          ¬ ActsOnLeak st env memoryType env.raw) := by
  refine ⟨?_, fun p hret hp => (testOperatorNewAligned_returns ho hp rfl hret).2.2.2.1⟩
  have ha : (2 : ℕ) ^ k < 2 ^ 64 := Nat.pow_lt_pow_right (by decide) hk
  have heff := effectiveAlign_two_pow hk
  have hmax : 0 < max (2 ^ k) stdcppDefaultNewAlignment :=
    Nat.lt_of_lt_of_le (by decide) (Nat.le_max_right _ _)
  have hfits : FitsAligned count (2 ^ k) ↔
      count + max (2 ^ k) stdcppDefaultNewAlignment + sizeofVoidPtr < 2 ^ 64 := by
    unfold FitsAligned
    rw [heff]
    exact ⟨fun h => h.2, fun h => ⟨by omega, h⟩⟩
  rw [← hfits]
  generalize hr : testOperatorNewAligned st env count memoryType bThrow (2 ^ k) = r
  rcases testOperatorNewAligned_body ho ha (by omega) hr.symm with ⟨hraw, hb⟩ | ⟨hraw, hno, hb⟩ |
    ⟨hraw, hyes, r', hr', hst, hev, hret, hother⟩
  · refine iff_of_true (Or.inr (Or.inl ⟨?_, ?_⟩)) (Or.inl hraw)
    · rw [hb]
      exact nullOrThrow_out _ _ _
    · intro n q hmem hq
      rw [hb] at hmem
      simp only [nullOrThrow, List.mem_singleton, Event.mallocn.injEq] at hmem
      exact absurd hmem.2 hq
  · refine iff_of_false ?_ (by simp [hraw, hno])
    subst hb
    exact not_alignedInBounds_of_kept hraw (List.mem_singleton_self _) (raw_mem_mallocn hraw)
      (nullOrThrow_out _ _ _) (by simpa [nullOrThrow] using ho.1)
  · rcases addNew_outcome ho hr' with ⟨hno, hout, hlive, hrun⟩ | ⟨-, hnull, hout, hcrash⟩ |
      ⟨hrec, hcount, hout | ⟨-, code, hend⟩⟩
    · refine iff_of_false ?_ (by tauto)
      refine not_alignedInBounds_of_kept hraw hev ?_ (Or.inr ?_) (by rw [hst, hrun])
      · rw [hst, hlive]
        exact raw_mem_mallocn hraw
      · rw [hother fun q => by simp [hout], hout]
    · refine iff_of_false ?_ ?_
      · have hout' : r.out = .processEnds := by rw [hother fun q => by simp [hout], hout]
        have hcrash' : r.st.process = .crashed := by rw [hst, hcrash]
        simp [AlignedInBounds, hout', hcrash']
      · rintro (h | ⟨-, -, t, ht, -⟩)
        · exact hraw h
        · rw [hnull] at ht
          cases ht
    · refine iff_of_true (Or.inl ?_) (Or.inr ⟨hyes, hrec, hcount⟩)
      have hpos : 0 < effectiveAlign (2 ^ k) := by
        rw [heff]
        exact hmax
      have hle := Alignment.le_alignUp hpos env.raw
      have hlt := Alignment.alignUp_lt hpos env.raw
      have hact : actuallyAllocating count (2 ^ k) =
          count + effectiveAlign (2 ^ k) + sizeofVoidPtr := Nat.mod_eq_of_lt hyes.2
      have hend : Alignment.alignUp (effectiveAlign (2 ^ k)) env.raw + count ≤
          env.raw + actuallyAllocating count (2 ^ k) := by
        omega
      refine ⟨_, _, hret hout, ?_, hev, ?_, hle, hend⟩
      · exact Nat.ne_of_gt (Nat.lt_of_lt_of_le (Nat.pos_of_ne_zero hraw) hle)
      · rw [← heff]
        exact Alignment.dvd_alignUp _ _
    · exact iff_of_true (Or.inr (Or.inr ⟨code, by rw [hst, hend]⟩)) (Or.inr ⟨hyes, hrec, hcount⟩)

/-- Eight bytes at an alignment of `64`. -/
theorem aligned_in_bounds_eight :
    let env : Env := .giving 16 [7] .doNotMakeActionToPreventCrash
    AlignedInBounds env 8 (2 ^ 6) (testOperatorNewAligned .init env 8 .new true (2 ^ 6)) := by
  intro env
  refine (aligned_in_bounds_iff (by decide) env (by omega) .new true (by omega)).1.mpr
    (Or.inr ⟨by decide, Or.inl rfl, 0, rfl, Or.inl rfl⟩)

/-- For `2 ^ 64 - 1` bytes the sum wraps to `23`: a small raw block is obtained and not given back. -/
theorem aligned_wraps_and_leaks :
    let env : Env := .giving 16 [7] .doNotMakeActionToPreventCrash
    let r := testOperatorNewAligned .init env (2 ^ 64 - 1) .new true (2 ^ 4)
    r.out = .throwsBadAlloc ∧ r.events = [.mallocn 23 16] ∧ 16 ∈ r.st.live ∧
      ¬ AlignedInBounds env (2 ^ 64 - 1) (2 ^ 4) r := by
  intro env r
  have hout : r.out = .throwsBadAlloc := by decide
  have hev : r.events = [.mallocn 23 16] := by decide
  have hlive : 16 ∈ r.st.live := by decide
  refine ⟨hout, hev, hlive, not_alignedInBounds_of_kept (n := 23) (by decide) ?_ hlive (Or.inr hout)
    (by decide)⟩
  rw [hev]
  exact List.mem_singleton_self _

end Aligned

end CrashInvestigator.Tracker
