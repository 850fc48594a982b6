import CrashInvestigator.Tracker.Proofs.RefusalProofs

/-!
# Failed reallocs and leak reports

`TestOperatorReAlloc` takes every answer other than the old address for a move, the null answer of a
failed `reallocn` too. A report of a possible leak is given the trace of the new record as its
analysis trace, and frees it.
-/

namespace CrashInvestigator.Tracker

open Library

section

variable {st st' : State} {env : Env} {p : Addr} {ty : MemoryType} {bt : BacktracePtr}

/-- The counting of a block keeps the records; when it returns, the process still runs. -/
theorem registerStackItem_returns {item : SMemoryItem} {q : Addr}
    (hrun : st.process = .running)
    (h : (registerStackItem st env item p bt).out = .returns q) :
    q = p ∧ (registerStackItem st env item p bt).st.process = .running := by
  cases bt with
  | none => simp [registerStackItem, State.ends] at h
  | some t =>
    rcases registerStackItem_cases st env item p t with ⟨-, -, hr⟩ | ⟨-, -, hr⟩ |
      ⟨e, -, -, hr⟩ | ⟨e, -, -, hr⟩ | ⟨e, -, -, -, r, hrr, hr⟩
    · rw [hr] at h ⊢
      cases h
      exact ⟨rfl, hrun⟩
    · rw [hr] at h
      cases h
    · rw [hr] at h ⊢
      cases h
      exact ⟨rfl, hrun⟩
    · rw [hr] at h ⊢
      cases h
      exact ⟨rfl, hrun⟩
    · rw [hr] at h ⊢
      split_ifs at h ⊢ with hrs
      · cases h
        exact ⟨rfl, hrs⟩
      · -- the report ended the process, so the call does not return
        exfalso
        rcases initFailure_process (by simp) hrr with hgo | ⟨hends, -⟩
        · exact hrs (hgo.trans hrun)
        · rw [hends] at h
          cases h

theorem registerStackItem_memoryItems (item : SMemoryItem) :
    (registerStackItem st env item p bt).st.memoryItems = st.memoryItems :=
  (registerStackItem_records st env item p bt).1

theorem registerStackItem_find (item : SMemoryItem) (a : Addr) :
    (registerStackItem st env item p bt).st.findMemoryItem a = st.findMemoryItem a :=
  findMemoryItem_congr (registerStackItem_memoryItems item) a

/-- A registration that returns has recorded the block. -/
theorem addNew_returns {q : Addr} (hrun : st.process = .running)
    (h : (addNewAllocatedMemoryAndCleanOldEntryNoLock st env ty p bt).out = .returns q) :
    q = p ∧ (addNewAllocatedMemoryAndCleanOldEntryNoLock st env ty p bt).st.process = .running ∧
      ∀ a, (addNewAllocatedMemoryAndCleanOldEntryNoLock st env ty p bt).st.findMemoryItem a =
        if a = p then some ⟨ty, .allocated, p, bt, none⟩ else st.findMemoryItem a := by
  rcases addNew_cases st env ty p bt with ⟨-, hr⟩ | ⟨st₁, hreg, hr⟩
  · rw [hr] at h
    cases h
  · obtain ⟨-, -, hproc, -⟩ := registerMemoryItem_frame hreg
    rw [hr] at h ⊢
    obtain ⟨hq, hrun'⟩ := registerStackItem_returns (by rw [hproc]; exact hrun) h
    refine ⟨hq, hrun', fun a => ?_⟩
    rw [registerStackItem_find, registerMemoryItem_find hreg]

/-- A registration leaves every other record alone. -/
theorem addNew_find_of_ne {a : Addr} (ha : a ≠ p) :
    (addNewAllocatedMemoryAndCleanOldEntryNoLock st env ty p bt).st.findMemoryItem a =
      st.findMemoryItem a := by
  rcases addNew_cases st env ty p bt with ⟨-, hr⟩ | ⟨st₁, hreg, hr⟩
  · rw [hr]
  · rw [hr]
    rw [registerStackItem_find, registerMemoryItem_find hreg, if_neg ha]

/-! ## Failed reallocs -/

/-- A failed raw `reallocn` of an allocated block either ends the process, or leaves the block
recorded as released. -/
theorem failed_realloc_cases (ho : st.Outermost) {n : ℕ} {item : SMemoryItem} (hp : p ≠ 0)
    (hn : n ≠ 0) (hf : st.findMemoryItem p = some item) (hty : item.type = .malloc)
    (hst : item.status = .allocated) (hraw : env.raw = 0) :
    (call st env (.reAlloc p n)).out = .processEnds ∨
      ((∃ item', (call st env (.reAlloc p n)).st.findMemoryItem p = some item' ∧
          item'.status ≠ .allocated) ∧
        ((call st env (.reAlloc p n)).out = .returns 0 →
          (call st env (.reAlloc p n)).st.process = .running ∧
          ∃ item', (call st env (.reAlloc p n)).st.findMemoryItem 0 = some item' ∧
            item'.status = .allocated)) := by
  have hcall : call st env (.reAlloc p n) = testOperatorReAlloc st env p n := rfl
  have hraw' : env.raw ≠ p := by
    rw [hraw]
    exact hp.symm
  rw [hcall]
  rcases testOperatorReAlloc_cases env ho hp hn with ⟨hf', -⟩ | ⟨item', hf', hty', -⟩ |
    ⟨item', hf', -, hst', -⟩ | ⟨item', hf', -, -, hkeep, -⟩ | ⟨item', pr, hf', -, -, -, -, hr⟩ |
    ⟨item', st₁, r, hf', -, -, -, hrem, hrr, hr⟩
  · rw [hf] at hf'
    cases hf'
  · rw [hf] at hf'
    cases hf'
    exact absurd hty hty'
  · rw [hf] at hf'
    cases hf'
    exact absurd hst hst'
  · exact absurd hkeep hraw'
  · left
    rw [hr]
    rfl
  · right
    rw [hf] at hf'
    cases hf'
    set moved : SMemoryItem := { item with status := .duringReallocChanged } with hmoved
    have hframe := removeCorrespondingTrace_frame hrem
    have hfind : (st₁.setMemoryItem p moved).findMemoryItem p = some moved := by
      refine findMemoryItem_setMemoryItem_self _ _ _ ?_
      have hf₁ : st₁.findMemoryItem p = some item := by
        rw [hframe, reallocn_eq]
        exact hf
      simp [hf₁]
    have hrun₁ : (st₁.setMemoryItem p moved).process = .running := by
      show st₁.process = .running
      rw [hframe, reallocn_eq]
      exact ho.1
    have hret : ∀ q, r.out = .returns q → r.st.process = .running ∧
        r.st.findMemoryItem 0 = some ⟨.malloc, .allocated, env.raw, st.captured env, none⟩ := by
      intro q hq
      rw [hrr] at hq ⊢
      obtain ⟨-, hrun', hall⟩ := addNew_returns hrun₁ hq
      refine ⟨hrun', ?_⟩
      rw [hall, if_pos hraw.symm]
    rw [hr]
    refine ⟨⟨moved, ?_, by simp [hmoved, MemoryStatus.duringReallocChanged]⟩, ?_⟩
    · show r.st.findMemoryItem p = some moved
      rw [hrr, addNew_find_of_ne hraw'.symm, hfind]
    · intro hout
      obtain ⟨hrun', h0⟩ := hret 0 hout
      exact ⟨hrun', _, h0, rfl⟩

/-- The release of a recorded block that is not allocated is reported as a double free. -/
theorem delete_reports_doubleFree (ho : st.Outermost) {item : SMemoryItem} (hp : p ≠ 0)
    (hf : st.findMemoryItem p = some item) (hst : item.status ≠ .allocated) (t : MemoryType) :
    (call st env (.delete p t)).Reports .doubleFree := by
  have hcall : call st env (.delete p t) = testOperatorDelete st env p t := rfl
  rw [hcall]
  rcases testOperatorDelete_cases env ho hp t with ⟨hf', -⟩ | ⟨item', hf', -, hr⟩ |
    ⟨item', pr, hf', hst', -, -⟩ | ⟨item', st₁, hf', hst', -, -, -⟩ |
    ⟨item', st₁, hf', hst', -, -, -⟩
  · rw [hf] at hf'
    cases hf'
  · obtain ⟨d, a, hd, hmem⟩ := initFailure_reported (st.capture env) env item' .notProvided p 0
      (by simp : FailureType.doubleFree ≠ .unknown) (st.captured env)
    exact ⟨d, a, by rw [hr]; exact hmem, hd⟩
  · rw [hf] at hf'
    cases hf'
    exact absurd hst' hst
  · rw [hf] at hf'
    cases hf'
    exact absurd hst' hst
  · rw [hf] at hf'
    cases hf'
    exact absurd hst' hst

/-- A failed realloc never leaves the tracker unchanged: when it returns null, the block that is
still valid is recorded as released, null is recorded as an allocated block, and the release of the
block is reported as a double free. -/
theorem failed_realloc_changes_tracker {n : ℕ} {item : SMemoryItem} (hreach : Reachable st)
    (hrun : st.process = .running) (hlive : p ∈ st.live) (hf : st.findMemoryItem p = some item)
    (hty : item.type = .malloc) (hst : item.status = .allocated) (hn : 0 < n)
    (hraw : env.raw = 0) :
    ¬ ((call st env (.reAlloc p n)).out = .returns 0 ∧
        (call st env (.reAlloc p n)).st.memoryItems = st.memoryItems ∧
        (call st env (.reAlloc p n)).st.stackItems = st.stackItems) ∧
      ((call st env (.reAlloc p n)).out = .returns 0 →
        (∀ item', (call st env (.reAlloc p n)).st.findMemoryItem p = some item' →
          item'.status ≠ .allocated) ∧
        (∃ item', (call st env (.reAlloc p n)).st.findMemoryItem 0 = some item' ∧
          item'.status = .allocated) ∧
        ∀ env', (call (call st env (.reAlloc p n)).st env' (.delete p .malloc)).Reports
          .doubleFree) := by
  have hp : p ≠ 0 := by
    rintro rfl
    exact hreach.sound.null hlive
  have ho := hreach.outermost hrun
  rcases failed_realloc_cases ho hp (Nat.pos_iff_ne_zero.mp hn) hf hty hst hraw with hend |
    ⟨⟨item', hf', hst'⟩, hret⟩
  · rw [hend]
    refine ⟨?_, ?_⟩
    · rintro ⟨h, -⟩
      cases h
    · intro h
      cases h
  · refine ⟨?_, fun hout => ⟨?_, (hret hout).2, fun env' => ?_⟩⟩
    · rintro ⟨-, hmem, -⟩
      rw [findMemoryItem_congr hmem, hf] at hf'
      cases hf'
      exact hst' hst
    · intro x hx
      rw [hf'] at hx
      cases hx
      exact hst'
    · have hsound : Sound (call st env (.reAlloc p n)).st := hreach.sound.call ho (.reAlloc p n)
      exact delete_reports_doubleFree ⟨(hret hout).1, hsound.flag⟩ hp hf' hst' .malloc

/-- A block of eight bytes whose realloc fails. -/
theorem failed_realloc_changes_tracker_block :
    let st := Runs.final step .init
      [(.alloc 8 .malloc false, .giving 16 [7] .doNotMakeActionToPreventCrash)]
    let env : Env := .giving 0 [8] .doNotMakeActionToPreventCrash
    ¬ ((call st env (.reAlloc 16 9)).out = .returns 0 ∧
        (call st env (.reAlloc 16 9)).st.memoryItems = st.memoryItems ∧
        (call st env (.reAlloc 16 9)).st.stackItems = st.stackItems) ∧
      ((call st env (.reAlloc 16 9)).out = .returns 0 →
        (∀ item', (call st env (.reAlloc 16 9)).st.findMemoryItem 16 = some item' →
          item'.status ≠ .allocated) ∧
        (∃ item', (call st env (.reAlloc 16 9)).st.findMemoryItem 0 = some item' ∧
          item'.status = .allocated) ∧
        ∀ env', (call (call st env (.reAlloc 16 9)).st env' (.delete 16 .malloc)).Reports
          .doubleFree) :=
  failed_realloc_changes_tracker ⟨_, rfl⟩ rfl (by decide) rfl rfl rfl (by decide) rfl

/-- The failed realloc of that block returns null, and the release of the block that follows is
reported although the block is live. -/
theorem failed_realloc_then_doubleFree :
    ∃ st env, Reachable st ∧ st.process = .running ∧ 16 ∈ st.live ∧
      (∃ item, st.findMemoryItem 16 = some item ∧ item.type = .malloc ∧ item.status = .allocated) ∧
      env.raw = 0 ∧ (call st env (.reAlloc 16 9)).out = .returns 0 ∧
      16 ∈ (call st env (.reAlloc 16 9)).st.live ∧
      (call st env (.reAlloc 16 9)).st.memoryItems ≠ st.memoryItems ∧
      (call (call st env (.reAlloc 16 9)).st env (.delete 16 .malloc)).Reports .doubleFree := by
  refine ⟨Runs.final step .init
      [(.alloc 8 .malloc false, .giving 16 [7] .doNotMakeActionToPreventCrash)],
    .giving 0 [8] .doNotMakeActionToPreventCrash, ⟨_, rfl⟩, rfl, by decide, ⟨_, rfl, rfl, rfl⟩, rfl,
    rfl, by decide, by decide, ?_⟩
  exact ⟨_, _, List.mem_singleton_self _, rfl⟩

/-! ## Leak reports -/

/-- The block that a call returned is live and recorded as allocated, under a trace that has not been
freed. -/
def Res.Undamaged (r : Res) : Prop :=
  ∃ q item t, r.out = .returns q ∧ q ∈ r.st.live ∧ r.st.findMemoryItem q = some item ∧
    item.status = .allocated ∧ item.allocTrace = some t ∧ r.st.traces.frees t = 0

/-- Counting a block with a report frees the trace it is counted under, and on `MakeAction` the block
too. -/
theorem registerStackItem_reported (hclean : env.inScopeCleanerRuns = 1) {item : SMemoryItem}
    {r : Res} (hr : r = registerStackItem st env item p bt)
    (hrep : r.Reports .possibilityOfMemoryLeak) (hrun : r.st.process = .running) :
    ∃ t, bt = some t ∧ r.out = .returns p ∧ 0 < r.st.traces.frees t ∧
      ∀ d, Event.clbkFnc d .makeAction ∈ r.events → p ∉ r.st.live := by
  subst hr
  obtain ⟨d, a, hmem, -⟩ := hrep
  cases bt with
  | none => simp [registerStackItem, State.ends] at hmem
  | some t =>
    refine ⟨t, rfl, ?_⟩
    rcases registerStackItem_cases st env item p t with ⟨-, -, hr⟩ | ⟨-, -, hr⟩ |
      ⟨e, -, -, hr⟩ | ⟨e, -, -, hr⟩ | ⟨e, -, -, -, r, hrr, hr⟩
    · simp [hr] at hmem
    · simp [hr] at hmem
    · simp [hr] at hmem
    · simp [hr] at hmem
    · have hst : (registerStackItem st env item p (some t)).st = r.st := by
        rw [hr]
        split_ifs <;> rfl
      rw [hst] at hrun
      rw [hr, if_pos hrun]
      refine ⟨rfl, ?_⟩
      show 0 < r.st.traces.frees t ∧ ∀ d, Event.clbkFnc d .makeAction ∈ r.events → p ∉ r.st.live
      obtain ⟨data, -, ⟨-, hi⟩ | ⟨-, hi⟩ | ⟨-, -, hi⟩⟩ := initFailure_cases
        (st.setStackItem t (e.2 + 1)) env item item.type p 0 .possibilityOfMemoryLeak (some t)
        (by simp)
      · rw [hrr, hi]
        simp [FailureType.actionIsRealloc, State.leaveScope, State.freen, hclean]
      · rw [hrr, hi]
        simp [State.leaveScope, hclean]
      · rw [hrr, hi] at hrun
        cases hrun

/-- A registration that reports a possible leak and goes on has freed the trace of its record. -/
theorem addNew_reported (hclean : env.inScopeCleanerRuns = 1) {r : Res}
    (hr : r = addNewAllocatedMemoryAndCleanOldEntryNoLock st env ty p bt)
    (hrep : r.Reports .possibilityOfMemoryLeak) (hrun : r.st.process = .running) :
    ∃ t, r.out = .returns p ∧ r.st.findMemoryItem p = some ⟨ty, .allocated, p, some t, none⟩ ∧
      0 < r.st.traces.frees t ∧
      ∀ d, Event.clbkFnc d .makeAction ∈ r.events → p ∉ r.st.live := by
  rcases addNew_cases st env ty p bt with ⟨-, hr'⟩ | ⟨st₁, hreg, hr'⟩
  · obtain ⟨d, a, hmem, -⟩ := hrep
    rw [hr, hr'] at hmem
    simp at hmem
  · obtain ⟨t, rfl, hout, hfrees, hlive⟩ :=
      registerStackItem_reported hclean (hr.trans hr') hrep hrun
    refine ⟨t, hout, ?_, hfrees, hlive⟩
    have hfind := registerMemoryItem_find hreg p
    rw [if_pos rfl] at hfind
    rw [hr, hr', registerStackItem_find]
    exact hfind

/-- The report of a possible leak in a call is that of its registration. -/
theorem reported_leak (ho : st.Outermost) (hclean : env.inScopeCleanerRuns = 1) {c : Call}
    (hrep : (call st env c).Reports .possibilityOfMemoryLeak)
    (hrun : (call st env c).st.process = .running) :
    ∃ t item, (call st env c).out = .returns env.raw ∧
      (call st env c).st.findMemoryItem env.raw = some item ∧ item.allocTrace = some t ∧
      0 < (call st env c).st.traces.frees t ∧
      ∀ d, Event.clbkFnc d .makeAction ∈ (call st env c).events →
        env.raw ∉ (call st env c).st.live := by
  -- a call that ends in a registration carries over what is known of it
  have hadd : ∀ {st' : State} {ty : MemoryType} {bt : BacktracePtr} {e : Event} {r : Res},
      r = addNewAllocatedMemoryAndCleanOldEntryNoLock st' env ty env.raw bt →
      (∀ d a, e ≠ Event.clbkFnc d a) →
      call st env c = { r with events := e :: r.events } →
      ∃ t item, (call st env c).out = .returns env.raw ∧
        (call st env c).st.findMemoryItem env.raw = some item ∧ item.allocTrace = some t ∧
        0 < (call st env c).st.traces.frees t ∧
        ∀ d, Event.clbkFnc d .makeAction ∈ (call st env c).events →
          env.raw ∉ (call st env c).st.live := by
    intro st' ty bt e r hr he hcall
    rw [hcall] at hrep hrun ⊢
    obtain ⟨t, hout, hfind, hfrees, hlive⟩ :=
      addNew_reported hclean hr ((reports_cons he).mp hrep) hrun
    refine ⟨t, _, hout, hfind, rfl, hfrees, ?_⟩
    intro d hd
    rcases List.mem_cons.mp hd with hd | hd
    · exact absurd hd.symm (he d _)
    · exact hlive d hd
  have hkind : ∀ {st' : State} {item : SMemoryItem} {fr : MemoryType} {p : Addr} {n : ℕ}
      {failureType : FailureType} {bt : BacktracePtr}, failureType ≠ .unknown →
      failureType ≠ .possibilityOfMemoryLeak → call st env c =
        initFailureDataAndCallClbk st' env item fr p n failureType bt → False := by
    intro st' item fr p n failureType bt hft hne hcall
    obtain ⟨d, a, hmem, hd⟩ := hrep
    rw [hcall] at hmem
    rw [(initFailure_events hft hmem).1] at hd
    exact hne hd
  obtain ⟨d, a, hmem, -⟩ := hrep
  cases heff : c.effect with
  | nothing =>
    rw [(call_nothing ho heff).2] at hmem
    simp at hmem
  | setMax n =>
    rw [(call_setMax heff).2] at hmem
    simp at hmem
  | allocate t =>
    by_cases hraw : env.raw = 0
    · have halloc := (call_allocate_null ho heff hraw).2 _ hmem
      exact absurd rfl (Event.isAllocation.ne_clbkFnc halloc d a)
    · obtain ⟨e, he, hcall⟩ := call_allocate ho heff hraw
      exact hadd rfl (Event.isAllocation.ne_clbkFnc he) hcall
  | release p t =>
    have hcall : call st env c = testOperatorDelete st env p t := call_release ho heff
    rcases testOperatorDelete_cases env ho (release_ne_zero heff).1 t with ⟨-, hr⟩ |
      ⟨item, -, -, hr⟩ | ⟨item, pr, -, -, -, hr⟩ | ⟨item, st₁, -, -, -, -, hr⟩ |
      ⟨item, st₁, -, -, -, -, hr⟩
    · rw [hcall, hr] at hmem
      unfold deleteUntracked at hmem
      split_ifs at hmem
      · simp at hmem
      · simp at hmem
    · exact (hkind (by simp) (by simp) (hcall.trans hr)).elim
    · rw [hcall, hr] at hmem
      simp [State.ends] at hmem
    · exact (hkind (by simp) (by simp) (hcall.trans hr)).elim
    · rw [hcall, hr] at hmem
      simp at hmem
  | move p n =>
    obtain ⟨-, hp, hn⟩ := move_ne_zero heff
    have hcall : call st env c = testOperatorReAlloc st env p n := call_move heff
    rcases testOperatorReAlloc_cases env ho hp hn with ⟨-, hr⟩ | ⟨item, -, -, hr⟩ |
      ⟨item, -, -, -, hr⟩ | ⟨item, -, -, -, -, hr⟩ | ⟨item, pr, -, -, -, -, -, hr⟩ |
      ⟨item, st₁, r, -, -, -, -, -, hrr, hr⟩
    · rw [hcall, hr] at hmem
      unfold reAllocUntracked at hmem
      cases hinit : env.initialRealloc with
      | some q => simp [hinit] at hmem
      | none => simp [hinit] at hmem
    · exact (hkind (by simp) (by simp) (hcall.trans hr)).elim
    · exact (hkind (by simp) (by simp) (hcall.trans hr)).elim
    · rw [hcall, hr] at hmem
      simp at hmem
    · rw [hcall, hr] at hmem
      simp [State.ends] at hmem
    · exact hadd hrr (by simp) (hcall.trans hr)

/-- A call that reports a possible leak and goes on never returns an undamaged block: the trace of
its record has been freed, and on `MakeAction` the block is not live any more. -/
theorem leak_report_damages_block {c : Call} (hreach : Reachable st)
    (hrunning : st.process = .running) (hclean : env.inScopeCleanerRuns = 1)
    (hrep : (call st env c).Reports .possibilityOfMemoryLeak)
    (hrun : (call st env c).st.process = .running) :
    ¬ (call st env c).Undamaged ∧ ∃ q item t, (call st env c).out = .returns q ∧
      (call st env c).st.findMemoryItem q = some item ∧ item.allocTrace = some t ∧
      0 < (call st env c).st.traces.frees t ∧
      ∀ d, Event.clbkFnc d .makeAction ∈ (call st env c).events →
        q ∉ (call st env c).st.live := by
  obtain ⟨t, item, hout, hfind, ht, hfrees, hlive⟩ :=
    reported_leak (hreach.outermost hrunning) hclean hrep hrun
  refine ⟨?_, env.raw, item, t, hout, hfind, ht, hfrees, hlive⟩
  rintro ⟨q, item', t', hout', -, hfind', -, ht', hzero⟩
  rw [hout] at hout'
  cases hout'
  rw [hfind] at hfind'
  cases hfind'
  rw [ht] at ht'
  cases ht'
  omega

/-- The second block of one stack under a threshold of one. -/
theorem leak_report_damages_second_block :
    let st := Runs.final step .init
      [(.setMaxAllowedAllocInTheSameStack 1, .giving 0 [7] .doNotMakeActionToPreventCrash),
        (.alloc 8 .malloc false, .giving 16 [7] .doNotMakeActionToPreventCrash)]
    let r := call st (.giving 32 [7] .doNotMakeActionToPreventCrash) (.alloc 8 .malloc false)
    ¬ r.Undamaged ∧ ∃ q item t, r.out = .returns q ∧ r.st.findMemoryItem q = some item ∧
      item.allocTrace = some t ∧ 0 < r.st.traces.frees t ∧
      ∀ d, Event.clbkFnc d .makeAction ∈ r.events → q ∉ r.st.live :=
  leak_report_damages_block ⟨_, rfl⟩ rfl rfl
    ⟨_, _, List.mem_cons_of_mem _ (List.mem_singleton_self _), rfl⟩ rfl

/-- The trace of that block is freed by the report, and once more when its address is registered
again after its release. -/
theorem leak_report_frees_trace_twice :
    ∃ st env c, Reachable st ∧ (call st env c).Reports .possibilityOfMemoryLeak ∧
      (call st env c).st.process = .running ∧ ¬ (call st env c).Undamaged ∧
      ∃ t, (Runs.final step (call st env c).st
        [(.delete 32 .malloc, .giving 1 [8] .doNotMakeActionToPreventCrash),
          (.alloc 8 .malloc false, .giving 32 [9] .doNotMakeActionToPreventCrash)]).traces.frees t =
        2 := by
  refine ⟨Runs.final step .init
      [(.setMaxAllowedAllocInTheSameStack 1, .giving 0 [7] .doNotMakeActionToPreventCrash),
        (.alloc 8 .malloc false, .giving 16 [7] .doNotMakeActionToPreventCrash)],
    .giving 32 [7] .doNotMakeActionToPreventCrash, .alloc 8 .malloc false, ⟨_, rfl⟩,
    ⟨_, _, List.mem_cons_of_mem _ (List.mem_singleton_self _), rfl⟩, rfl, ?_, 1, by decide⟩
  rintro ⟨q, item, t, hout, -, hfind, -, ht, hzero⟩
  cases hout
  cases hfind
  cases ht
  revert hzero
  decide

end

end CrashInvestigator.Tracker
