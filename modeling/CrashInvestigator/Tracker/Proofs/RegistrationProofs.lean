import CrashInvestigator.Tracker.Proofs.AccountingProofs

/-!
# Registration of a block

What `AddNewAllocatedMemoryAndCleanOldEntryNoLock` does to the records, the counters, the process and
the live blocks, and when it reports a possible leak.
-/

namespace CrashInvestigator.Tracker

open Library

variable {st : State} {env : Env} {p : Addr} {memoryType : MemoryType} {t : ℕ}

/-- A registration fails before the counting, crashes on a null backtrace, or goes on to count. -/
theorem addNew_cases (st : State) (env : Env) (memoryType : MemoryType) (p : Addr)
    (bt : BacktracePtr) :
    (registerMemoryItem st env p ⟨memoryType, .allocated, p, bt, none⟩ = none ∧
        addNewAllocatedMemoryAndCleanOldEntryNoLock st env memoryType p bt =
          ⟨st, .throwsBadAlloc, []⟩) ∨
      ∃ st₁, registerMemoryItem st env p ⟨memoryType, .allocated, p, bt, none⟩ = some st₁ ∧
        addNewAllocatedMemoryAndCleanOldEntryNoLock st env memoryType p bt =
          registerStackItem st₁ env ⟨memoryType, .allocated, p, bt, none⟩ p bt := by
  unfold addNewAllocatedMemoryAndCleanOldEntryNoLock
  cases h : registerMemoryItem st env p ⟨memoryType, .allocated, p, bt, none⟩ with
  | none => exact Or.inl ⟨rfl, by simp only [h]⟩
  | some st₁ => exact Or.inr ⟨st₁, rfl, by simp only [h]⟩

/-- The first half touches the records and the release counts of traces only. -/
theorem registerMemoryItem_frame {item : SMemoryItem} {st' : State}
    (h : registerMemoryItem st env p item = some st') :
    st'.stackItems = st.stackItems ∧ st'.live = st.live ∧ st'.process = st.process ∧
      st'.ndebug = st.ndebug ∧ st'.bIsAllocingOrDeallocing = st.bIsAllocingOrDeallocing ∧
      st'.unMaxNumberOfAllocFromTheSameStack = st.unMaxNumberOfAllocFromTheSameStack ∧
      st'.traces.next = st.traces.next ∧ st'.traces.data = st.traces.data := by
  rcases registerMemoryItem_cases h with ⟨-, -, rfl⟩ | ⟨old, -, rfl⟩
  · simp
  · simp

theorem registerMemoryItem_find {item : SMemoryItem} {st' : State}
    (h : registerMemoryItem st env p item = some st') (q : Addr) :
    st'.findMemoryItem q = if q = p then some item else st.findMemoryItem q := by
  rcases registerMemoryItem_cases h with ⟨-, -, rfl⟩ | ⟨old, hf, rfl⟩
  · show Entries.lookup _ ((p, item) :: st.memoryItems) = _
    rw [Entries.lookup_cons]
    by_cases hq : q = p
    · rw [if_pos hq, if_pos (by simp [hq])]
    · rw [if_neg hq, if_neg (by simpa using fun e => hq e.symm)]
      rfl
  · exact findMemoryItem_setMemoryItem st p item (by simp [hf]) q

/-- A tracker that can grow its record table does not fail in the first half. -/
theorem registerMemoryItem_isSome (st : State) (p : Addr) (item : SMemoryItem) (h : env.memoryItem = true) :
    ∃ st', registerMemoryItem st env p item = some st' := by
  unfold registerMemoryItem
  cases st.findMemoryItem p with
  | none => exact ⟨_, if_pos h⟩
  | some old => exact ⟨_, rfl⟩

/-- The first half fails exactly when it has to add a record and the table cannot grow. -/
theorem registerMemoryItem_none_iff {item : SMemoryItem} :
    registerMemoryItem st env p item = none ↔
      st.findMemoryItem p = none ∧ env.memoryItem = false := by
  unfold registerMemoryItem
  cases st.findMemoryItem p with
  | none => simp
  | some old => simp

/-- A registration throws when there is no memory for the record. -/
theorem addNew_throws {memoryType : MemoryType} {bt : BacktracePtr} (hf : st.findMemoryItem p = none)
    (hgrow : env.memoryItem = false) :
    addNewAllocatedMemoryAndCleanOldEntryNoLock st env memoryType p bt =
      ⟨st, .throwsBadAlloc, []⟩ := by
  rcases addNew_cases st env memoryType p bt with ⟨-, hr⟩ | ⟨st₁, hreg, -⟩
  · exact hr
  · have hnone : registerMemoryItem st env p ⟨memoryType, .allocated, p, bt, none⟩ = none :=
      registerMemoryItem_none_iff.mpr ⟨hf, hgrow⟩
    rw [hnone] at hreg
    cases hreg

/-- The second half leaves the records and the frames of the stacks alone. -/
theorem registerStackItem_records (st : State) (env : Env) (item : SMemoryItem) (p : Addr)
    (bt : BacktracePtr) :
    (registerStackItem st env item p bt).st.memoryItems = st.memoryItems ∧
      (registerStackItem st env item p bt).st.traces.next = st.traces.next ∧
      (registerStackItem st env item p bt).st.traces.data = st.traces.data := by
  cases bt with
  | none => exact ⟨rfl, rfl, rfl⟩
  | some t =>
    rcases registerStackItem_cases st env item p t with ⟨-, -, hr⟩ | ⟨-, -, hr⟩ |
      ⟨e, -, -, hr⟩ | ⟨e, -, -, hr⟩ | ⟨e, -, -, -, r, hrr, hr⟩
    · rw [hr]
      exact ⟨rfl, rfl, rfl⟩
    · rw [hr]
      exact ⟨rfl, rfl, rfl⟩
    · rw [hr]
      exact ⟨rfl, rfl, rfl⟩
    · rw [hr]
      exact ⟨rfl, rfl, rfl⟩
    · obtain ⟨hmem, -, -, -, -, hnext, hdata⟩ := initFailure_frame (by simp) hrr
      rw [hr]
      split_ifs <;> exact ⟨hmem, hnext, hdata⟩

/-- The second half touches the counters, and the rest only through a report. -/
theorem registerStackItem_frame (st : State) (p : Addr) (t : ℕ) (href : RefusesActions env)
    (item : SMemoryItem) :
    let r := registerStackItem st env item p (some t)
    r.st.memoryItems = st.memoryItems ∧ r.st.live = st.live ∧ r.st.process = st.process ∧
      r.st.ndebug = st.ndebug ∧ r.st.bIsAllocingOrDeallocing = st.bIsAllocingOrDeallocing ∧
      r.st.unMaxNumberOfAllocFromTheSameStack = st.unMaxNumberOfAllocFromTheSameStack := by
  rcases registerStackItem_cases st env item p t with ⟨-, -, hr⟩ | ⟨-, -, hr⟩ |
    ⟨e, -, -, hr⟩ | ⟨e, -, -, hr⟩ | ⟨e, -, -, -, r, hrr, hr⟩
  · simp [hr]
  · simp [hr]
  · simp [hr]
  · simp [hr, State.setStackItem]
  · rw [initFailure_doNot _ _ _ _ _ _ _ _ (by simp) (href _)] at hrr
    have hst : r.st = (st.setStackItem t (e.2 + 1)).leaveScope env (some t) := by rw [hrr]
    simp only [hr]
    split_ifs <;> simp [hst, State.leaveScope, State.setStackItem]

/-- The second half reports a possible leak exactly when the stack is known and its counter has
reached a positive threshold. -/
theorem registerStackItem_reports (href : RefusesActions env) (item : SMemoryItem) :
    (registerStackItem st env item p (some t)).Reports .possibilityOfMemoryLeak ↔
      ∃ e, st.findStackItem t = some e ∧ 0 < st.unMaxNumberOfAllocFromTheSameStack ∧
        st.unMaxNumberOfAllocFromTheSameStack ≤ e.2 := by
  rcases registerStackItem_cases st env item p t with ⟨hf, -, hr⟩ | ⟨hf, -, hr⟩ |
    ⟨e, hf, hm, hr⟩ | ⟨e, hf, hm, hr⟩ | ⟨e, hf, hpos, hle, r, hrr, hr⟩
  · simp [hr, hf, Res.Reports]
  · simp [hr, hf, Res.Reports]
  · simp [hr, hf, hm, Res.Reports]
  · constructor
    · rintro ⟨d, a, hmem, -⟩
      simp [hr] at hmem
    · rintro ⟨e', he', -, hle⟩
      rw [hf] at he'
      cases he'
      omega
  · rw [initFailure_doNot _ _ _ _ _ _ _ _ (by simp) (href _)] at hrr
    constructor
    · intro _
      exact ⟨e, hf, hpos, hle⟩
    · intro _
      have hev : (registerStackItem st env item p (some t)).events = r.events := by
        rw [hr]
        split_ifs <;> rfl
      refine ⟨failureData (st.setStackItem t (e.2 + 1)) env item item.type p 0
        .possibilityOfMemoryLeak (some t), .doNotMakeActionToPreventCrash, ?_, rfl⟩
      rw [hev, hrr]
      exact List.mem_singleton_self _

/-- The counter of the block's stack after it was counted under a positive threshold. -/
theorem registerStackItem_stackCount (st : State) (p : Addr) (t : ℕ) (hne : (st.traces.data t).ppBuffer ≠ [])
    (hgrow : env.stackItem = true) (hpos : 0 < st.unMaxNumberOfAllocFromTheSameStack)
    (item : SMemoryItem) :
    (registerStackItem st env item p (some t)).st.stackCount (st.traces.data t) =
      some (((st.findStackItem t).map Prod.snd).getD 0 + 1) := by
  have hset : ∀ e, st.findStackItem t = some e →
      (st.setStackItem t (e.2 + 1)).stackCount (st.traces.data t) = some (e.2 + 1) := by
    intro e he
    rw [stackCount_setStackItem hne he, if_pos rfl]
  rcases registerStackItem_cases st env item p t with ⟨hf, -, hr⟩ | ⟨-, hg, -⟩ |
    ⟨e, -, hm, -⟩ | ⟨e, hf, -, hr⟩ | ⟨e, hf, -, -, r, hrr, hr⟩
  · rw [hr, hf]
    show Entries.lookup _ ((t, 1) :: st.stackItems) = _
    rw [Entries.lookup_cons, if_pos (by simp)]
    rfl
  · rw [hg] at hgrow
    cases hgrow
  · omega
  · rw [hr, hf]
    exact hset e hf
  · obtain ⟨-, hstk, -, -, -, -, hdata⟩ := initFailure_frame (by simp) hrr
    have hcount : r.st.stackCount (st.traces.data t) = some (e.2 + 1) := by
      rw [← hset e hf]
      unfold State.stackCount
      rw [hstk, hdata]
    rw [hr, hf]
    split_ifs <;> exact hcount

/-- A registration that replaces no allocated record keeps the accounts, but for a block of a known
stack that is not counted because the threshold is zero. -/
theorem Accounted.addNew (memoryType : MemoryType) {gap : Backtrace → ℕ} (h : Accounted st gap)
    (hlt : t < st.traces.next)
    (hne : (st.traces.data t).ppBuffer ≠ []) (hgrow : TablesGrow env)
    (hold : ∀ old, st.findMemoryItem p = some old → old.status ≠ .allocated) :
    Accounted (addNewAllocatedMemoryAndCleanOldEntryNoLock st env memoryType p (some t)).st
      (if st.unMaxNumberOfAllocFromTheSameStack = 0 ∧ (st.findStackItem t).isSome then
        bump gap (st.traces.data t) else gap) := by
  obtain ⟨st₁, hreg⟩ := registerMemoryItem_isSome st p ⟨memoryType, .allocated, p, some t, none⟩ hgrow.1
  obtain ⟨hstk, -, -, -, -, hmax, hnext, hdata⟩ := registerMemoryItem_frame hreg
  have hacc : Accounted st₁ (bump gap (st.traces.data t)) :=
    h.registerMemoryItem rfl rfl hlt hne hold hreg
  have hfind : st₁.findStackItem t = st.findStackItem t := findStackItem_congr hstk hdata t
  have hr : addNewAllocatedMemoryAndCleanOldEntryNoLock st env memoryType p (some t) =
      Tracker.registerStackItem st₁ env ⟨memoryType, .allocated, p, some t, none⟩ p (some t) := by
    simp only [addNewAllocatedMemoryAndCleanOldEntryNoLock, hreg]
  rw [← hdata] at hne hacc ⊢
  rw [hr]
  obtain ⟨hcounted, hskipped⟩ :=
    hacc.registerStackItem ⟨memoryType, .allocated, p, some t, none⟩ p (by omega) hne hgrow.2
  split_ifs with hskip
  · obtain ⟨hzero, hsome⟩ := hskip
    rw [hskipped (by omega) (Option.isSome_iff_exists.mp (by rw [hfind]; exact hsome))]
    exact hacc
  · refine hcounted ?_
    by_contra hcon
    push Not at hcon
    refine hskip ⟨by omega, ?_⟩
    rw [← hfind]
    exact Option.ne_none_iff_isSome.mp hcon.2

end CrashInvestigator.Tracker
