import CrashInvestigator.Tracker.Proofs.LeakReportProofs

/-!
# Every reachable state

What holds in every state that some run reaches, whatever the environment answers: the nesting flag
is down between calls, null is not a live block, and every trace that a table refers to was created.
-/

namespace CrashInvestigator.Tracker

open Library

/-- A trace pointer that is null or names an object of the heap. -/
def TraceHeap.Created (h : TraceHeap) (p : BacktracePtr) : Prop := ∀ t, p = some t → t < h.next

/-- The invariant of all reachable states. -/
structure Sound (st : State) : Prop where
  flag : st.bIsAllocingOrDeallocing = false
  ndebug : st.ndebug = false
  null : 0 ∉ st.live
  records : ∀ e ∈ st.memoryItems, st.traces.Created e.2.allocTrace
  keys : ∀ e ∈ st.stackItems, e.1 < st.traces.next

section Preservation

variable {st st' : State} {env : Env} {p : Addr} {bt : BacktracePtr}

theorem Sound.init : Sound .init := by
  refine ⟨rfl, rfl, ?_, ?_, ?_⟩
  · simp [State.init]
  · intro e he
    simp [State.init] at he
  · intro e he
    simp [State.init] at he

/-- The invariant reads the tables, the flags, the live blocks and the number of traces. -/
theorem Sound.congr (h : Sound st) (hmem : st'.memoryItems = st.memoryItems)
    (hstk : st'.stackItems = st.stackItems) (hnext : st.traces.next ≤ st'.traces.next)
    (hflag : st'.bIsAllocingOrDeallocing = st.bIsAllocingOrDeallocing)
    (hnd : st'.ndebug = st.ndebug) (hlive : 0 ∉ st'.live) : Sound st' := by
  refine ⟨by rw [hflag, h.flag], by rw [hnd, h.ndebug], hlive, ?_, ?_⟩
  · intro e he t ht
    rw [hmem] at he
    have := h.records e he t ht
    omega
  · intro e he
    rw [hstk] at he
    have := h.keys e he
    omega

theorem Sound.capture (h : Sound st) (env : Env) : Sound (st.capture env) :=
  h.congr rfl rfl (initBacktrace_next_le _ _) rfl rfl h.null

/-- The trace that is captured at the start of a call was created. -/
theorem captured_created (st : State) (env : Env) :
    (st.capture env).traces.Created (st.captured env) := by
  intro t ht
  cases hs : env.stack with
  | none => simp [State.captured, initBacktraceDataForCurrentStack, hs] at ht
  | some s =>
    obtain ⟨hcap, hnext, -⟩ := captured_spec st hs
    rw [hcap] at ht
    cases ht
    omega

theorem null_erase {L : Finset Addr} (h : 0 ∉ L) (p : Addr) : 0 ∉ L.erase p :=
  fun h0 => h (Finset.mem_of_mem_erase h0)

theorem Sound.mallocn (h : Sound st) (q : Addr) : Sound (st.mallocn q) := by
  refine h.congr (by simp) (by simp) (by simp) (by simp) (by simp) ?_
  by_cases hq : q = 0
  · simp [State.mallocn, hq, h.null]
  · rw [mallocn_live st q hq, Finset.mem_insert, not_or]
    exact ⟨fun h0 => hq h0.symm, h.null⟩

theorem Sound.reallocn (h : Sound st) (p q : Addr) : Sound (st.reallocn p q) := by
  refine h.congr (by simp) (by simp) (by simp) (by simp) (by simp) ?_
  by_cases hq : q = 0
  · simp [hq, h.null]
  · rw [reallocn_live st p q hq, Finset.mem_insert, not_or]
    exact ⟨fun h0 => hq h0.symm, null_erase h.null p⟩

theorem Sound.freen (h : Sound st) (p : Addr) : Sound (st.freen p) :=
  h.congr rfl rfl (Nat.le_refl _) rfl rfl (null_erase h.null p)

theorem Sound.leaveScope (h : Sound st) (env : Env) (bt : BacktracePtr) :
    Sound (st.leaveScope env bt) :=
  h.congr rfl rfl (by simp [State.leaveScope]) rfl rfl h.null

theorem Sound.initFailure (h : Sound st) {item : SMemoryItem} {freeType : MemoryType} {n : ℕ}
    {failureType : FailureType} (hft : failureType ≠ .unknown) :
    Sound (initFailureDataAndCallClbk st env item freeType p n failureType bt).st := by
  obtain ⟨data, -, ⟨-, hr⟩ | ⟨-, hr⟩ | ⟨-, -, hr⟩⟩ :=
    initFailure_cases st env item freeType p n failureType bt hft
  · rw [hr]
    split_ifs
    · exact (h.reallocn p env.raw).leaveScope env bt
    · exact (h.freen p).leaveScope env bt
  · rw [hr]
    exact h.leaveScope env bt
  · rw [hr]
    exact h.congr rfl rfl (Nat.le_refl _) rfl rfl h.null

theorem Sound.setMemoryItem (h : Sound st) {item : SMemoryItem}
    (hitem : st.traces.Created item.allocTrace) : Sound (st.setMemoryItem p item) := by
  refine ⟨h.flag, h.ndebug, h.null, ?_, h.keys⟩
  intro e he
  rcases Entries.mem_setFirst he with he | ⟨hv, -, -⟩
  · exact h.records e he
  · rw [hv]
    exact hitem

theorem Sound.registerMemoryItem (h : Sound st) {item : SMemoryItem}
    (hitem : st.traces.Created item.allocTrace)
    (hr : Tracker.registerMemoryItem st env p item = some st') : Sound st' := by
  rcases registerMemoryItem_cases hr with ⟨-, -, rfl⟩ | ⟨old, -, rfl⟩
  · refine ⟨h.flag, h.ndebug, h.null, ?_, h.keys⟩
    intro e he
    rcases List.mem_cons.mp he with rfl | he
    · exact hitem
    · exact h.records e he
  · have hset : Sound (st.setMemoryItem p item) := h.setMemoryItem hitem
    exact hset.congr rfl rfl (by simp [State.setMemoryItem]) rfl rfl h.null

theorem Sound.setStackItem (h : Sound st) (t n : ℕ) : Sound (st.setStackItem t n) := by
  refine ⟨h.flag, h.ndebug, h.null, h.records, ?_⟩
  intro e he
  rcases Entries.mem_setFirst he with he | ⟨-, -, w, hw⟩
  · exact h.keys e he
  · exact h.keys (e.1, w) hw

theorem Sound.registerStackItem (h : Sound st) {item : SMemoryItem} (hbt : st.traces.Created bt) :
    Sound (Tracker.registerStackItem st env item p bt).st := by
  cases bt with
  | none => exact h.congr rfl rfl (Nat.le_refl _) rfl rfl h.null
  | some t =>
    rcases registerStackItem_cases st env item p t with ⟨-, -, hr⟩ | ⟨-, -, hr⟩ |
      ⟨e, -, -, hr⟩ | ⟨e, -, -, hr⟩ | ⟨e, -, -, -, r, hrr, hr⟩
    · rw [hr]
      refine ⟨h.flag, h.ndebug, h.null, h.records, ?_⟩
      intro e he
      rcases List.mem_cons.mp he with rfl | he
      · exact hbt t rfl
      · exact h.keys e he
    · rw [hr]
      exact h
    · rw [hr]
      exact h
    · rw [hr]
      exact h.setStackItem t _
    · have hrs : Sound r.st := by
        rw [hrr]
        exact (h.setStackItem t _).initFailure (by simp)
      rw [hr]
      split_ifs <;> exact hrs

theorem Sound.addNew (h : Sound st) (ty : MemoryType) (hbt : st.traces.Created bt) :
    Sound (addNewAllocatedMemoryAndCleanOldEntryNoLock st env ty p bt).st := by
  rcases addNew_cases st env ty p bt with ⟨-, hr⟩ | ⟨st₁, hreg, hr⟩
  · rw [hr]
    exact h
  · obtain ⟨-, -, -, -, -, -, hnext, -⟩ := registerMemoryItem_frame hreg
    rw [hr]
    refine (h.registerMemoryItem hbt hreg).registerStackItem ?_
    intro t ht
    rw [hnext]
    exact hbt t ht

theorem Sound.removeCorrespondingTrace (h : Sound st)
    (hr : Tracker.removeCorrespondingTrace st bt = .ok st') : Sound st' := by
  cases bt with
  | none => cases hr
  | some t =>
    rcases removeCorrespondingTrace_cases h.ndebug t with ⟨herr, -⟩ | ⟨e, -, -, hok⟩ |
      ⟨e, -, -, hok⟩
    · rw [herr] at hr
      cases hr
    · rw [hok] at hr
      cases hr
      exact ⟨h.flag, h.ndebug, h.null, h.records,
        fun e he => h.keys e (Entries.mem_of_mem_removeFirst he)⟩
    · rw [hok] at hr
      cases hr
      exact h.setStackItem t _

/-- The trace of a record that was found was created. -/
theorem Sound.record (h : Sound st) {item : SMemoryItem} (hf : st.findMemoryItem p = some item) :
    st.traces.Created item.allocTrace := by
  obtain ⟨-, hmem⟩ := findMemoryItem_some hf
  exact h.records _ hmem

theorem Sound.testOperatorDelete (h : Sound st) (ho : st.Outermost) (hp : p ≠ 0)
    (t : MemoryType) : Sound (Tracker.testOperatorDelete st env p t).st := by
  have hcap := h.capture env
  rcases testOperatorDelete_cases env ho hp t with ⟨-, hr⟩ | ⟨item, -, -, hr⟩ |
    ⟨item, pr, -, -, -, hr⟩ | ⟨item, st₁, -, -, hrem, -, hr⟩ | ⟨item, st₁, hf, -, hrem, -, hr⟩
  · rw [hr]
    unfold deleteUntracked
    split_ifs
    · exact hcap
    · exact hcap.congr rfl rfl (by simp) rfl rfl (null_erase h.null p)
  · rw [hr]
    exact hcap.initFailure (by simp)
  · rw [hr]
    exact hcap.congr rfl rfl (Nat.le_refl _) rfl rfl h.null
  · rw [hr]
    exact (hcap.removeCorrespondingTrace hrem).initFailure (by simp)
  · have hitem : (st.capture env).traces.Created item.allocTrace := hcap.record hf
    have hst₁ := hcap.removeCorrespondingTrace hrem
    have htr : st₁.traces = (st.capture env).traces := by rw [removeCorrespondingTrace_frame hrem]
    rw [hr]
    exact (hst₁.setMemoryItem (by rw [htr]; exact hitem)).freen _

theorem Sound.testOperatorReAlloc (h : Sound st) (ho : st.Outermost) (hp : p ≠ 0) {n : ℕ}
    (hn : n ≠ 0) : Sound (Tracker.testOperatorReAlloc st env p n).st := by
  have hcap := h.capture env
  rcases testOperatorReAlloc_cases env ho hp hn with ⟨-, hr⟩ | ⟨item, -, -, hr⟩ |
    ⟨item, -, -, -, hr⟩ | ⟨item, -, -, -, -, hr⟩ | ⟨item, pr, -, -, -, -, -, hr⟩ |
    ⟨item, st₁, r, hf, -, -, -, hrem, hrr, hr⟩
  · rw [hr]
    unfold reAllocUntracked
    cases env.initialRealloc with
    | some q => exact hcap
    | none =>
      have hfree : Sound { st.capture env with
          traces := freeBacktraceData (st.capture env).traces
            (env.handlerMemory.getD .default).deallocTrace } :=
        hcap.congr rfl rfl (by simp) rfl rfl h.null
      exact hfree.reallocn p env.raw
  · rw [hr]
    exact hcap.initFailure (by simp)
  · rw [hr]
    exact hcap.initFailure (by simp)
  · rw [hr]
    exact (hcap.reallocn item.realAddress env.raw).congr rfl rfl (by simp) rfl rfl
      (hcap.reallocn item.realAddress env.raw).null
  · rw [hr]
    exact (hcap.reallocn item.realAddress env.raw).congr rfl rfl (Nat.le_refl _) rfl rfl
      (hcap.reallocn item.realAddress env.raw).null
  · have hst₁ := (hcap.reallocn item.realAddress env.raw).removeCorrespondingTrace hrem
    have htr : st₁.traces = (st.capture env).traces := by
      rw [removeCorrespondingTrace_frame hrem]
      simp
    have hitem : (st.capture env).traces.Created item.allocTrace := hcap.record hf
    rw [hr, hrr]
    refine Sound.addNew (hst₁.setMemoryItem (by rw [htr]; exact hitem)) .malloc ?_
    show st₁.traces.Created _
    rw [htr]
    exact captured_created st env

/-- One call in a running process keeps the invariant. -/
theorem Sound.call (h : Sound st) (ho : st.Outermost) (c : Call) :
    Sound (Tracker.call st env c).st := by
  have hreq := (h.mallocn env.raw).capture env
  have hbt := captured_created (st.mallocn env.raw) env
  rw [captured_mallocn] at hbt
  exact call_preserves ho c h (fun t => hreq.addNew t hbt)
    (fun _ _ hp hn => h.testOperatorReAlloc ho hp hn) (fun _ t hp => h.testOperatorDelete ho hp t)
    (fun _ => h.congr rfl rfl (Nat.le_refl _) rfl rfl h.null)

theorem Sound.step (h : Sound st) (c : Call × Env) : Sound (Tracker.step st c) := by
  unfold Tracker.step
  split_ifs with hrun
  · exact h.call ⟨hrun, h.flag⟩ c.1
  · exact h

/-- The invariant holds in every reachable state. -/
theorem Reachable.sound (h : Reachable st) : Sound st := by
  obtain ⟨cs, rfl⟩ := h
  exact (Runs.always_of_invariant (fun s c hs _ => hs.step c) Sound.init
    (Runs.along_of_forall (fun _ _ => trivial) _ cs)).final

/-- A running process that was reached is outermost: no call leaves the nesting flag set. -/
theorem Reachable.outermost (h : Reachable st) (hrun : st.process = .running) : st.Outermost :=
  ⟨hrun, h.sound.flag⟩

end Preservation

end CrashInvestigator.Tracker
