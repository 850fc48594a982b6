import CrashInvestigator.Tracker.Proofs.ReachableProofs

/-!
# Refused operations

A release or realloc that is reported and refused leaves the tables and the blocks as they were, with
one exception: `TestOperatorDelete` takes the stack of an allocated block out of `m_stackItems` before
it compares the types.
-/

namespace CrashInvestigator.Tracker

open Library

/-- The call ended in a report that the callback answered with `DoNotMakeActionToPreventCrash`. -/
def Res.Refused (r : Res) : Prop :=
  ∃ d, Event.clbkFnc d .doNotMakeActionToPreventCrash ∈ r.events ∧
    d.failureType ∈ [.doubleFree, .freeMissmatch, .badReallocCreatedByWrongAlloc,
      .badReallocDeletedMem]

/-- The routine of type `t` releases `p`, without a report and without a failed assertion. -/
def State.ReleasedBy (st : State) (p : Addr) (t : MemoryType) : Prop :=
  ∀ env, (call st env (.delete p t)).events = [.freen p] ∧
    (call st env (.delete p t)).st.process = .running

section

variable {st st' : State} {env : Env}

/-- A report calls the callback once, with its own data. -/
theorem initFailure_events {item : SMemoryItem} {freeType : MemoryType} {p : Addr} {n : ℕ}
    {failureType : FailureType} (hft : failureType ≠ .unknown) {bt : BacktracePtr} {d : FailureData}
    {a : FailureAction} (h : Event.clbkFnc d a ∈
      (initFailureDataAndCallClbk st env item freeType p n failureType bt).events) :
    d = failureData st env item freeType p n failureType bt ∧ a = env.clbkFnc d := by
  obtain ⟨data, hdata, ⟨hans, hr⟩ | ⟨hans, hr⟩ | ⟨-, -, hr⟩⟩ :=
    initFailure_cases st env item freeType p n failureType bt hft
  · have hmem : d = data ∧ a = .makeAction := by
      rw [hr] at h
      split_ifs at h <;> simpa using h
    rw [hmem.1, hmem.2]
    exact ⟨hdata, hans.symm⟩
  · have hmem : d = data ∧ a = .doNotMakeActionToPreventCrash := by
      rw [hr] at h
      simpa using h
    rw [hmem.1, hmem.2]
    exact ⟨hdata, hans.symm⟩
  · have hmem : d = data ∧ a = env.clbkFnc data := by
      rw [hr] at h
      simpa [State.ends] using h
    rw [hmem.2, hmem.1]
    exact ⟨hdata, rfl⟩

/-- A report of a known kind calls the callback. -/
theorem initFailure_reported (st : State) (env : Env) (item : SMemoryItem) (freeType : MemoryType)
    (p : Addr) (n : ℕ) {failureType : FailureType} (hft : failureType ≠ .unknown)
    (bt : BacktracePtr) : ∃ d a, d.failureType = failureType ∧ Event.clbkFnc d a ∈
      (initFailureDataAndCallClbk st env item freeType p n failureType bt).events := by
  obtain ⟨data, hdata, hr⟩ := initFailure_cases st env item freeType p n failureType bt hft
  have hkind : data.failureType = failureType := by rw [hdata]; rfl
  rcases hr with ⟨-, hr⟩ | ⟨-, hr⟩ | ⟨-, -, hr⟩
  · refine ⟨data, .makeAction, hkind, ?_⟩
    rw [hr]
    split_ifs <;> exact List.mem_cons_self ..
  · refine ⟨data, .doNotMakeActionToPreventCrash, hkind, ?_⟩
    rw [hr]
    exact List.mem_singleton_self _
  · refine ⟨data, env.clbkFnc data, hkind, ?_⟩
    rw [hr]
    exact List.mem_singleton_self _

/-- The only report of a registration is that of a possible leak. -/
theorem addNew_events {ty : MemoryType} {p : Addr} {bt : BacktracePtr} {d : FailureData}
    {a : FailureAction}
    (h : Event.clbkFnc d a ∈ (addNewAllocatedMemoryAndCleanOldEntryNoLock st env ty p bt).events) :
    d.failureType = .possibilityOfMemoryLeak := by
  rcases addNew_cases st env ty p bt with ⟨-, hr⟩ | ⟨st₁, -, hr⟩
  · rw [hr] at h
    simp at h
  · rw [hr] at h
    cases bt with
    | none => simp [registerStackItem, State.ends] at h
    | some t =>
      rcases registerStackItem_cases st₁ env ⟨ty, .allocated, p, some t, none⟩ p t with
        ⟨-, -, hr'⟩ | ⟨-, -, hr'⟩ | ⟨e, -, -, hr'⟩ | ⟨e, -, -, hr'⟩ | ⟨e, -, -, -, r, hrr, hr'⟩
      · simp [hr'] at h
      · simp [hr'] at h
      · simp [hr'] at h
      · simp [hr'] at h
      · have hmem : Event.clbkFnc d a ∈ r.events := by
          rw [hr'] at h
          split_ifs at h <;> exact h
        rw [hrr] at hmem
        rw [(initFailure_events (by simp) hmem).1]
        rfl

/-- A refused report ends in the state it was raised in, but for the analysis trace. -/
theorem initFailure_refused {item : SMemoryItem} {freeType : MemoryType} {p : Addr} {n : ℕ}
    {failureType : FailureType} (hft : failureType ≠ .unknown) {bt : BacktracePtr} {r : Res}
    (hr : r = initFailureDataAndCallClbk st env item freeType p n failureType bt)
    (h : r.Refused) : r.st = st.leaveScope env bt := by
  subst hr
  obtain ⟨d, hmem, -⟩ := h
  obtain ⟨hd, ha⟩ := initFailure_events hft hmem
  rw [hd] at ha
  rw [initFailure_doNot st env item freeType p n failureType bt hft ha.symm]

theorem not_refused_of_silent {r : Res} (h : ∀ d a, Event.clbkFnc d a ∉ r.events) :
    ¬ r.Refused := by
  rintro ⟨d, hmem, -⟩
  exact h d _ hmem

theorem addNew_not_refused {ty : MemoryType} {p : Addr} {bt : BacktracePtr} {e : Event}
    (he : ∀ d a, e ≠ Event.clbkFnc d a) {r : Res}
    (hr : r = addNewAllocatedMemoryAndCleanOldEntryNoLock st env ty p bt) :
    ¬ ({ r with events := e :: r.events } : Res).Refused := by
  rintro ⟨d, hmem, hd⟩
  rcases List.mem_cons.mp hmem with h | h
  · exact he _ _ h.symm
  · rw [hr] at h
    rw [addNew_events h] at hd
    simp at hd

/-- The two ways a call is refused: nothing was done before the report, or the stack of an allocated
block was taken out before its type was found to mismatch. -/
theorem refused_cases (ho : st.Outermost) {c : Call} (h : (call st env c).Refused) :
    (¬ Mismatching st c ∧ (call st env c).st = (st.capture env).leaveScope env (st.captured env)) ∨
      (Mismatching st c ∧ ∃ bt st₁, removeCorrespondingTrace (st.capture env) bt = .ok st₁ ∧
        (call st env c).st = st₁.leaveScope env (st.captured env)) := by
  cases heff : c.effect with
  | nothing =>
    refine absurd h (not_refused_of_silent ?_)
    simp [(call_nothing ho heff).2]
  | setMax n =>
    refine absurd h (not_refused_of_silent ?_)
    simp [(call_setMax heff).2]
  | allocate t =>
    by_cases hraw : env.raw = 0
    · refine absurd h (not_refused_of_silent fun d a hmem => ?_)
      exact Event.isAllocation.ne_clbkFnc ((call_allocate_null ho heff hraw).2 _ hmem) d a rfl
    · obtain ⟨e, he, hcall⟩ := call_allocate ho heff hraw
      rw [hcall] at h
      exact absurd h (addNew_not_refused (Event.isAllocation.ne_clbkFnc he) rfl)
  | release p t =>
    have hcall : call st env c = testOperatorDelete st env p t := call_release ho heff
    rw [hcall] at h ⊢
    have hmis : Mismatching st c ↔ ∃ item, st.findMemoryItem p = some item ∧
        item.status = .allocated ∧ item.type ≠ t := by
      constructor
      · rintro ⟨p', t', item, heff', hrest⟩
        rw [heff] at heff'
        cases heff'
        exact ⟨item, hrest⟩
      · rintro ⟨item, hrest⟩
        exact ⟨p, t, item, heff, hrest⟩
    rcases testOperatorDelete_cases env ho (release_ne_zero heff).1 t with ⟨-, hr⟩ |
      ⟨item, hf, hst, hr⟩ | ⟨item, pr, -, -, -, hr⟩ | ⟨item, st₁, hf, hst, hrem, hty, hr⟩ |
      ⟨item, st₁, -, -, -, -, hr⟩
    · refine absurd h (not_refused_of_silent ?_)
      rw [hr]
      unfold deleteUntracked
      split_ifs <;> simp
    · refine Or.inl ⟨?_, initFailure_refused (by simp) hr h⟩
      rw [hmis]
      rintro ⟨item', hf', hst', -⟩
      rw [hf] at hf'
      cases hf'
      exact hst hst'
    · refine absurd h (not_refused_of_silent ?_)
      simp [hr, State.ends]
    · exact Or.inr ⟨hmis.mpr ⟨item, hf, hst, hty⟩, _, st₁, hrem,
        initFailure_refused (by simp) hr h⟩
    · refine absurd h (not_refused_of_silent ?_)
      simp [hr]
  | move p n =>
    obtain ⟨-, hp, hn⟩ := move_ne_zero heff
    have hcall : call st env c = testOperatorReAlloc st env p n := call_move heff
    have hmis : ¬ Mismatching st c := by
      rintro ⟨p', t', item, heff', -⟩
      rw [heff] at heff'
      cases heff'
    rw [hcall] at h ⊢
    rcases testOperatorReAlloc_cases env ho hp hn with ⟨-, hr⟩ | ⟨item, -, -, hr⟩ |
      ⟨item, -, -, -, hr⟩ | ⟨item, -, -, -, -, hr⟩ | ⟨item, pr, -, -, -, -, -, hr⟩ |
      ⟨item, st₁, r, -, -, -, -, -, hrr, hr⟩
    · refine absurd h (not_refused_of_silent ?_)
      rw [hr]
      unfold reAllocUntracked
      cases env.initialRealloc <;> simp
    · exact Or.inl ⟨hmis, initFailure_refused (by simp) hr h⟩
    · exact Or.inl ⟨hmis, initFailure_refused (by simp) hr h⟩
    · refine absurd h (not_refused_of_silent ?_)
      simp [hr]
    · refine absurd h (not_refused_of_silent ?_)
      simp [hr, State.ends]
    · rw [hr] at h
      exact absurd h (addNew_not_refused (by simp) hrr)

/-- Taking a stack out always shows in the stack table. -/
theorem removeCorrespondingTrace_ne (hd : st.ndebug = false) {bt : BacktracePtr}
    (h : removeCorrespondingTrace st bt = .ok st') : st'.stackItems ≠ st.stackItems := by
  cases bt with
  | none => cases h
  | some t =>
    rcases removeCorrespondingTrace_cases hd t with ⟨herr, -⟩ | ⟨e, hf, -, hok⟩ | ⟨e, hf, he, hok⟩
    · rw [herr] at h
      cases h
    · rw [hok] at h
      cases h
      exact Entries.removeFirst_ne hf
    · rw [hok] at h
      cases h
      exact Entries.setFirst_ne hf (by omega)

/-- A later state with the same stack table finds the counters of the older traces unchanged. -/
theorem findStackItem_eq (st' : State) (h : Sound st) (hstk : st'.stackItems = st.stackItems)
    (hdata : ∀ t, t < st.traces.next → st'.traces.data t = st.traces.data t) {t : ℕ}
    (ht : t < st.traces.next) : st'.findStackItem t = st.findStackItem t := by
  unfold State.findStackItem
  rw [hstk]
  refine Entries.findEntry_congr fun e he => ?_
  simp only [TraceHeap.sameStackAs]
  rw [hdata _ (h.keys e he), hdata t ht]

/-- A stack can be taken out exactly when its counter is there and not zero. -/
theorem removeCorrespondingTrace_ok_iff (hd : st.ndebug = false) {bt : BacktracePtr} :
    (∃ st', removeCorrespondingTrace st bt = .ok st') ↔
      ∃ t e, bt = some t ∧ st.findStackItem t = some e ∧ 0 < e.2 := by
  cases bt with
  | none =>
    constructor
    · rintro ⟨st', h⟩
      cases h
    · rintro ⟨t, e, ht, -⟩
      cases ht
  | some t =>
    rcases removeCorrespondingTrace_cases hd t with ⟨herr, hz⟩ | ⟨e, hf, he, hok⟩ | ⟨e, hf, he, hok⟩
    · constructor
      · rintro ⟨st', h⟩
        rw [herr] at h
        cases h
      · rintro ⟨t', e, ht, hf, hpos⟩
        cases ht
        have := hz e hf
        omega
    · exact ⟨fun _ => ⟨t, e, rfl, hf, by omega⟩, fun _ => ⟨_, hok⟩⟩
    · exact ⟨fun _ => ⟨t, e, rfl, hf, by omega⟩, fun _ => ⟨_, hok⟩⟩

/-- A report calls the callback before anything else is done. -/
theorem initFailure_events_ne {item : SMemoryItem} {freeType : MemoryType} {p q : Addr} {n : ℕ}
    {failureType : FailureType} (hft : failureType ≠ .unknown) {bt : BacktracePtr} :
    (initFailureDataAndCallClbk st env item freeType p n failureType bt).events ≠ [.freen q] := by
  obtain ⟨data, -, ⟨-, hr⟩ | ⟨-, hr⟩ | ⟨-, -, hr⟩⟩ :=
    initFailure_cases st env item freeType p n failureType bt hft
  · rw [hr]
    split_ifs <;> simp
  · simp [hr]
  · simp [hr, State.ends]

/-- What it takes for the routine of type `t` to release `p`. -/
theorem releasedBy_iff (h : Sound st) (ho : st.Outermost) {p : Addr} {t : MemoryType} :
    st.ReleasedBy p t ↔ p ≠ 0 ∧ ∃ item, st.findMemoryItem p = some item ∧
      item.status = .allocated ∧ item.type = t ∧ item.realAddress = p ∧
      ∃ u e, item.allocTrace = some u ∧ st.findStackItem u = some e ∧ 0 < e.2 := by
  -- the capture at the start of the release creates a new trace, the counters stay
  have hcount : ∀ (env : Env) (item : SMemoryItem), st.findMemoryItem p = some item →
      ((∃ st₁, removeCorrespondingTrace (st.capture env) item.allocTrace = .ok st₁) ↔
        ∃ u e, item.allocTrace = some u ∧ st.findStackItem u = some e ∧ 0 < e.2) := by
    intro env item hf
    rw [removeCorrespondingTrace_ok_iff (h.capture env).ndebug]
    have heq : ∀ u, item.allocTrace = some u →
        (st.capture env).findStackItem u = st.findStackItem u := fun u hu =>
      findStackItem_eq (st.capture env) h rfl (fun t ht => initBacktrace_data_of_lt _ _ ht)
        (h.record hf u hu)
    constructor
    · rintro ⟨u, e, hu, hfe, he⟩
      exact ⟨u, e, hu, by rw [← heq u hu]; exact hfe, he⟩
    · rintro ⟨u, e, hu, hfe, he⟩
      exact ⟨u, e, hu, by rw [heq u hu]; exact hfe, he⟩
  constructor
  · intro hrel
    have hp : p ≠ 0 := by
      rintro rfl
      have hev := (hrel (.giving 0 [] .exitApp)).1
      simp [call, testOperatorDelete] at hev
    refine ⟨hp, ?_⟩
    set env : Env := .giving 0 [] .exitApp
    have hev : (testOperatorDelete st env p t).events = [.freen p] := (hrel env).1
    rcases testOperatorDelete_cases env ho hp t with ⟨-, hr⟩ | ⟨item, -, -, hr⟩ |
      ⟨item, pr, -, -, -, hr⟩ | ⟨item, st₁, -, -, -, -, hr⟩ | ⟨item, st₁, hf, hst, hrem, hty, hr⟩
    · exfalso
      rw [hr] at hev
      unfold deleteUntracked at hev
      split_ifs at hev
      simp at hev
    · exact absurd (hr ▸ hev) (initFailure_events_ne (by simp))
    · simp [hr, State.ends] at hev
    · exact absurd (hr ▸ hev) (initFailure_events_ne (by simp))
    · have hreal : item.realAddress = p := by simpa [hr] using hev
      exact ⟨item, hf, hst, hty, hreal, (hcount env item hf).mp ⟨st₁, hrem⟩⟩
  · rintro ⟨hp, item, hf, hst, hty, hreal, hpos⟩ env
    obtain ⟨st₁, hrem⟩ := (hcount env item hf).mpr hpos
    have hcall : call st env (.delete p t) = testOperatorDelete st env p t := rfl
    rw [hcall]
    rcases testOperatorDelete_cases env ho hp t with ⟨hf', -⟩ | ⟨item', hf', hst', -⟩ |
      ⟨item', pr, hf', -, hrem', -⟩ | ⟨item', st₂, hf', -, -, hty', -⟩ |
      ⟨item', st₂, hf', -, hrem', -, hr⟩
    · rw [hf] at hf'
      cases hf'
    · rw [hf] at hf'
      cases hf'
      exact absurd hst hst'
    · rw [hf] at hf'
      cases hf'
      rw [hrem] at hrem'
      cases hrem'
    · rw [hf] at hf'
      cases hf'
      exact absurd hty hty'
    · rw [hf] at hf'
      cases hf'
      refine ⟨by rw [hr, hreal], ?_⟩
      rw [hr]
      show st₂.process = .running
      rw [removeCorrespondingTrace_frame hrem']
      exact ho.1

/-- A refusal that did nothing before its report does not stand in the way of later releases. -/
theorem State.ReleasedBy.after_refusal (h : Sound st) (ho : st.Outermost) {bt : BacktracePtr}
    {p : Addr} {t : MemoryType} (hrel : st.ReleasedBy p t) :
    ((st.capture env).leaveScope env bt).ReleasedBy p t := by
  set st' := (st.capture env).leaveScope env bt
  have h' : Sound st' := (h.capture env).leaveScope env bt
  have hdata : ∀ t, t < st.traces.next → st'.traces.data t = st.traces.data t := by
    intro t ht
    show (State.leaveScope _ env bt).traces.data t = _
    simp only [State.leaveScope, iterate_freeBacktraceData_data]
    exact initBacktrace_data_of_lt _ _ ht
  obtain ⟨hp, item, hf, hst, hty, hreal, u, e, hu, hfe, he⟩ := (releasedBy_iff h ho).mp hrel
  have hfe' : st'.findStackItem u = some e := by
    rw [findStackItem_eq st' h rfl hdata (h.record hf u hu)]
    exact hfe
  exact (releasedBy_iff h' ho).mpr ⟨hp, item, hf, hst, hty, hreal, u, e, hu, hfe', he⟩

/-- A refused call leaves the tables and the live blocks as they were, and every block that could be
released can still be released, exactly when it is not a mismatching release of an allocated
block. -/
theorem refusal_leaves_no_trace_iff {c : Call} (hreach : Reachable st)
    (hrun : st.process = .running) (hc : (call st env c).Refused) :
    ((call st env c).st.memoryItems = st.memoryItems ∧
        (call st env c).st.stackItems = st.stackItems ∧ (call st env c).st.live = st.live ∧
        ∀ p t, st.ReleasedBy p t → (call st env c).st.ReleasedBy p t) ↔
      ¬ Mismatching st c := by
  have ho := hreach.outermost hrun
  rcases refused_cases ho hc with ⟨hmis, hr⟩ | ⟨hmis, bt, st₁, hrem, hr⟩
  · rw [hr]
    refine ⟨fun _ => hmis, fun _ => ⟨rfl, rfl, rfl, fun p t hrel => ?_⟩⟩
    exact hrel.after_refusal hreach.sound ho
  · rw [hr]
    constructor
    · rintro ⟨-, hstk, -⟩
      have hne := removeCorrespondingTrace_ne (hreach.sound.capture env).ndebug hrem
      exact absurd hstk hne
    · intro h
      exact absurd hmis h

/-- A double free that is refused. -/
theorem refusal_leaves_no_trace_doubleFree :
    let st := Runs.final step .init
      [(.alloc 8 .malloc false, .giving 16 [7] .doNotMakeActionToPreventCrash),
        (.delete 16 .malloc, .giving 1 [8] .doNotMakeActionToPreventCrash)]
    let r := call st (.giving 1 [8] .doNotMakeActionToPreventCrash) (.delete 16 .malloc)
    (r.st.memoryItems = st.memoryItems ∧ r.st.stackItems = st.stackItems ∧ r.st.live = st.live ∧
        ∀ p t, st.ReleasedBy p t → r.st.ReleasedBy p t) ↔
      ¬ Mismatching st (.delete 16 .malloc) :=
  refusal_leaves_no_trace_iff ⟨_, rfl⟩ (by decide)
    ⟨_, List.mem_singleton_self _, by decide⟩

/-- A block of `new` whose release by `free` is refused: its stack is gone from `m_stackItems`, and
the release by the proper routine fails the assertion. -/
theorem refusal_leaves_trace_new :
    ∃ st c env, Reachable st ∧ st.process = .running ∧ (call st env c).Refused ∧
      st.ReleasedBy 16 .new ∧ (call st env c).st.stackItems ≠ st.stackItems ∧
      (call (call st env c).st env (.delete 16 .new)).st.process = .aborted := by
  set env : Env := .giving 16 [7] .doNotMakeActionToPreventCrash with henv
  set st := Runs.final step .init [(Call.alloc 8 .new true, env)] with hst
  have hreach : Reachable st := ⟨_, rfl⟩
  refine ⟨st, .delete 16 .malloc, env, hreach, rfl, ⟨_, List.mem_singleton_self _, by decide⟩, ?_,
    by decide, rfl⟩
  rw [releasedBy_iff hreach.sound (hreach.outermost rfl)]
  exact ⟨by decide, _, rfl, rfl, rfl, rfl, 0, _, rfl, rfl, by decide⟩

end

end CrashInvestigator.Tracker
