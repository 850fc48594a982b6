import CrashInvestigator.Tracker.Operations

/-!
# What a single call can do

A realloc of the null pointer is an allocation and a realloc to size zero a release, so every call is
one of the few kinds of `Effect`. The frame lemmas say which parts of the state the helpers of the
tracker leave alone; the `step` lemmas reduce a call of an outermost, running thread to the body that
serves its effect.
-/

namespace CrashInvestigator.Tracker

open Library

/-! ## Frame lemmas -/

/-- The lookups see the tables and the captured frames only. -/
theorem findMemoryItem_congr {st st' : State} (hmem : st'.memoryItems = st.memoryItems)
    (ptr : Addr) : st'.findMemoryItem ptr = st.findMemoryItem ptr := by
  unfold State.findMemoryItem
  rw [hmem]

theorem findStackItem_congr {st st' : State} (hstk : st'.stackItems = st.stackItems)
    (hdata : st'.traces.data = st.traces.data) (t : ℕ) :
    st'.findStackItem t = st.findStackItem t := by
  unfold State.findStackItem TraceHeap.sameStackAs
  rw [hstk, hdata]

theorem names_congr {h h' : TraceHeap} (hdata : h'.data = h.data) (env : Env) :
    env.names h' = env.names h := by
  funext bt
  cases bt with
  | none => rfl
  | some t => simp only [Env.names, convertBacktraceToNames_congr hdata]

/-- A report tells the frames of the stacks and nothing else of the state. -/
theorem failureData_congr {st st' : State} (hdata : st'.traces.data = st.traces.data) (env : Env)
    (item : SMemoryItem) (freeType : MemoryType) (addr : Addr) (count : ℕ)
    (failureType : FailureType) (trace : BacktracePtr) :
    failureData st' env item freeType addr count failureType trace =
      failureData st env item freeType addr count failureType trace := by
  unfold failureData
  rw [names_congr hdata]

section Frames

variable (st : State) (ptr q : Addr) (item : SMemoryItem)

@[simp] theorem freen_memoryItems : (st.freen ptr).memoryItems = st.memoryItems := rfl
@[simp] theorem freen_stackItems : (st.freen ptr).stackItems = st.stackItems := rfl
@[simp] theorem freen_traces : (st.freen ptr).traces = st.traces := rfl
@[simp] theorem freen_ndebug : (st.freen ptr).ndebug = st.ndebug := rfl
@[simp] theorem freen_process : (st.freen ptr).process = st.process := rfl
@[simp] theorem freen_threshold : (st.freen ptr).unMaxNumberOfAllocFromTheSameStack =
    st.unMaxNumberOfAllocFromTheSameStack := rfl
@[simp] theorem freen_flag : (st.freen ptr).bIsAllocingOrDeallocing =
    st.bIsAllocingOrDeallocing := rfl

/-- A raw request changes nothing but the live blocks. -/
theorem mallocn_eq : st.mallocn q = { st with live := (st.mallocn q).live } := by
  unfold State.mallocn
  split <;> rfl

theorem reallocn_eq : st.reallocn ptr q = { st with live := (st.reallocn ptr q).live } := by
  unfold State.reallocn
  split <;> rfl

@[simp] theorem mallocn_memoryItems : (st.mallocn q).memoryItems = st.memoryItems := by
  rw [mallocn_eq]
@[simp] theorem mallocn_stackItems : (st.mallocn q).stackItems = st.stackItems := by
  rw [mallocn_eq]
@[simp] theorem mallocn_traces : (st.mallocn q).traces = st.traces := by rw [mallocn_eq]
@[simp] theorem mallocn_ndebug : (st.mallocn q).ndebug = st.ndebug := by rw [mallocn_eq]
@[simp] theorem mallocn_process : (st.mallocn q).process = st.process := by rw [mallocn_eq]
@[simp] theorem mallocn_threshold : (st.mallocn q).unMaxNumberOfAllocFromTheSameStack =
    st.unMaxNumberOfAllocFromTheSameStack := by rw [mallocn_eq]
@[simp] theorem mallocn_flag : (st.mallocn q).bIsAllocingOrDeallocing =
    st.bIsAllocingOrDeallocing := by rw [mallocn_eq]

@[simp] theorem reallocn_memoryItems : (st.reallocn ptr q).memoryItems = st.memoryItems := by
  rw [reallocn_eq]
@[simp] theorem reallocn_stackItems : (st.reallocn ptr q).stackItems = st.stackItems := by
  rw [reallocn_eq]
@[simp] theorem reallocn_traces : (st.reallocn ptr q).traces = st.traces := by rw [reallocn_eq]
@[simp] theorem reallocn_ndebug : (st.reallocn ptr q).ndebug = st.ndebug := by rw [reallocn_eq]
@[simp] theorem reallocn_process : (st.reallocn ptr q).process = st.process := by rw [reallocn_eq]
@[simp] theorem reallocn_threshold : (st.reallocn ptr q).unMaxNumberOfAllocFromTheSameStack =
    st.unMaxNumberOfAllocFromTheSameStack := by rw [reallocn_eq]
@[simp] theorem reallocn_flag : (st.reallocn ptr q).bIsAllocingOrDeallocing =
    st.bIsAllocingOrDeallocing := by rw [reallocn_eq]

theorem mallocn_live (hq : q ≠ 0) : (st.mallocn q).live = insert q st.live := by
  simp [State.mallocn, hq]

theorem reallocn_live (hq : q ≠ 0) :
    (st.reallocn ptr q).live = insert q (st.live.erase ptr) := by
  simp [State.reallocn, hq]

@[simp] theorem reallocn_null : st.reallocn ptr 0 = st := by simp [State.reallocn]

/-- The record of another address is untouched by an assignment. -/
theorem findMemoryItem_setMemoryItem_of_ne (h : q ≠ ptr) :
    (st.setMemoryItem ptr item).findMemoryItem q = st.findMemoryItem q := by
  refine Entries.lookup_setFirst_of_disjoint fun k hk => ?_
  simp only [decide_eq_true_eq] at hk
  simp [hk, h]

theorem findMemoryItem_setMemoryItem_self (h : (st.findMemoryItem ptr).isSome) :
    (st.setMemoryItem ptr item).findMemoryItem ptr = some item :=
  Entries.lookup_setFirst_self h

theorem findMemoryItem_setMemoryItem (h : (st.findMemoryItem ptr).isSome) (a : Addr) :
    (st.setMemoryItem ptr item).findMemoryItem a =
      if a = ptr then some item else st.findMemoryItem a := by
  split_ifs with ha
  · rw [ha]
    exact findMemoryItem_setMemoryItem_self st ptr item h
  · exact findMemoryItem_setMemoryItem_of_ne st ptr a item ha

end Frames

/-! ## Reports -/

section Reports

variable (st : State) (env : Env) (item : SMemoryItem) (freeType : MemoryType) (addr : Addr)
  (count : ℕ) (failureType : FailureType) (trace : BacktracePtr)

/-- What a report does is decided by the callback's answer. -/
theorem initFailure_eq (hft : failureType ≠ .unknown) :
    initFailureDataAndCallClbk st env item freeType addr count failureType trace =
      let data := failureData st env item freeType addr count failureType trace
      match env.clbkFnc data with
      | .makeAction =>
        if failureType.actionIsRealloc then
          ⟨(st.reallocn addr env.raw).leaveScope env trace, .returns env.raw,
            [.clbkFnc data (env.clbkFnc data), .reallocn addr count env.raw]⟩
        else
          ⟨(st.freen addr).leaveScope env trace, .returns 0,
            [.clbkFnc data (env.clbkFnc data), .freen addr]⟩
      | .doNotMakeActionToPreventCrash =>
        ⟨st.leaveScope env trace, .returns 0, [.clbkFnc data (env.clbkFnc data)]⟩
      | _ => st.ends (.exited 1) [.clbkFnc data (env.clbkFnc data)] := by
  cases failureType with
  | unknown => exact absurd rfl hft
  | _ => rfl

/-- The three ways a report of a known kind ends, by the answer of the callback. -/
theorem initFailure_cases (hft : failureType ≠ .unknown) :
    ∃ data, data = failureData st env item freeType addr count failureType trace ∧
      ((env.clbkFnc data = .makeAction ∧
          initFailureDataAndCallClbk st env item freeType addr count failureType trace =
            if failureType.actionIsRealloc then
              ⟨(st.reallocn addr env.raw).leaveScope env trace, .returns env.raw,
                [.clbkFnc data .makeAction, .reallocn addr count env.raw]⟩
            else
              ⟨(st.freen addr).leaveScope env trace, .returns 0,
                [.clbkFnc data .makeAction, .freen addr]⟩) ∨
        (env.clbkFnc data = .doNotMakeActionToPreventCrash ∧
          initFailureDataAndCallClbk st env item freeType addr count failureType trace =
            ⟨st.leaveScope env trace, .returns 0,
              [.clbkFnc data .doNotMakeActionToPreventCrash]⟩) ∨
        (env.clbkFnc data ≠ .makeAction ∧ env.clbkFnc data ≠ .doNotMakeActionToPreventCrash ∧
          initFailureDataAndCallClbk st env item freeType addr count failureType trace =
            st.ends (.exited 1) [.clbkFnc data (env.clbkFnc data)])) := by
  refine ⟨_, rfl, ?_⟩
  rw [initFailure_eq st env item freeType addr count failureType trace hft]
  simp only
  cases hans : env.clbkFnc (failureData st env item freeType addr count failureType trace) with
  | makeAction => exact Or.inl ⟨rfl, rfl⟩
  | doNotMakeActionToPreventCrash => exact Or.inr (Or.inl ⟨rfl, rfl⟩)
  | unknown => exact Or.inr (Or.inr ⟨by simp, by simp, rfl⟩)
  | exitApp => exact Or.inr (Or.inr ⟨by simp, by simp, rfl⟩)

/-- A report whose callback answers `DoNotMakeActionToPreventCrash` only frees the analysis trace. -/
theorem initFailure_doNot (hft : failureType ≠ .unknown)
    (h : env.clbkFnc (failureData st env item freeType addr count failureType trace) =
      .doNotMakeActionToPreventCrash) :
    initFailureDataAndCallClbk st env item freeType addr count failureType trace =
      ⟨st.leaveScope env trace, .returns 0,
        [.clbkFnc (failureData st env item freeType addr count failureType trace)
          .doNotMakeActionToPreventCrash]⟩ := by
  obtain ⟨data, rfl, ⟨hans, -⟩ | ⟨-, hr⟩ | ⟨-, hans, -⟩⟩ :=
    initFailure_cases st env item freeType addr count failureType trace hft
  · rw [h] at hans
    cases hans
  · exact hr
  · exact absurd h hans

variable {st env item freeType addr count failureType trace}

/-- A report leaves the tables, the threshold, the flag and the frames of every stack alone. -/
theorem initFailure_frame (hft : failureType ≠ .unknown) {r : Res}
    (hr : r = initFailureDataAndCallClbk st env item freeType addr count failureType trace) :
    r.st.memoryItems = st.memoryItems ∧ r.st.stackItems = st.stackItems ∧
      r.st.unMaxNumberOfAllocFromTheSameStack = st.unMaxNumberOfAllocFromTheSameStack ∧
      r.st.bIsAllocingOrDeallocing = st.bIsAllocingOrDeallocing ∧ r.st.ndebug = st.ndebug ∧
      r.st.traces.next = st.traces.next ∧ r.st.traces.data = st.traces.data := by
  subst hr
  obtain ⟨data, -, ⟨-, hr⟩ | ⟨-, hr⟩ | ⟨-, -, hr⟩⟩ :=
    initFailure_cases st env item freeType addr count failureType trace hft
  · rw [hr]
    split <;> simp [State.leaveScope]
  · rw [hr]
    simp [State.leaveScope]
  · rw [hr]
    simp [State.ends]

/-- After a report the process goes on as before, or the callback has ended it. -/
theorem initFailure_process (hft : failureType ≠ .unknown) {r : Res}
    (hr : r = initFailureDataAndCallClbk st env item freeType addr count failureType trace) :
    r.st.process = st.process ∨ (r.out = .processEnds ∧ r.st.process = .exited 1) := by
  obtain ⟨data, -, ⟨-, hi⟩ | ⟨-, hi⟩ | ⟨-, -, hi⟩⟩ :=
    initFailure_cases st env item freeType addr count failureType trace hft
  · left
    rw [hr, hi]
    split_ifs <;> simp [State.leaveScope]
  · left
    rw [hr, hi]
    simp [State.leaveScope]
  · right
    rw [hr, hi]
    exact ⟨rfl, rfl⟩

end Reports

/-! ## Effects -/

/-- What a call asks for once the arguments that make it another routine's call are sorted out. -/
inductive Effect where
  | nothing
  | allocate (memoryType : MemoryType)
  | move (ptr : Addr) (count : ℕ)
  | release (ptr : Addr) (typeExpected : MemoryType)
  | setMax (newNumber : ℕ)
  deriving DecidableEq, Repr

/-- `realloc(0, n)` allocates, `realloc(p, 0)` releases, and an allocation of size zero or the
release of the null pointer does nothing. -/
def Call.effect : Call → Effect
  | .alloc count memoryType _ => if count = 0 then .nothing else .allocate memoryType
  | .calloc nmemb size => if nmemb * size % sizeModulus = 0 then .nothing else .allocate .malloc
  | .reAlloc ptr count =>
    if ptr = 0 then if count = 0 then .nothing else .allocate .malloc
    else if count = 0 then .release ptr .malloc else .move ptr count
  | .delete ptr typeExpected => if ptr = 0 then .nothing else .release ptr typeExpected
  | .setMaxAllowedAllocInTheSameStack newNumber => .setMax newNumber

/-- The calls of an outermost thread of a running process. -/
def State.Outermost (st : State) : Prop :=
  st.process = .running ∧ st.bIsAllocingOrDeallocing = false

instance (st : State) : Decidable st.Outermost :=
  inferInstanceAs (Decidable (_ ∧ _))

theorem nothing_zero {c : Call} (h : c.effect = .nothing) :
    (∃ t b, c = .alloc 0 t b) ∨ (∃ m s, c = .calloc m s ∧ m * s % sizeModulus = 0) ∨
      c = .reAlloc 0 0 ∨ ∃ t, c = .delete 0 t := by
  cases c with
  | alloc n t b =>
    simp only [Call.effect] at h
    split_ifs at h with hn
    subst hn
    exact Or.inl ⟨t, b, rfl⟩
  | calloc m s =>
    simp only [Call.effect] at h
    split_ifs at h with hn
    exact Or.inr (Or.inl ⟨m, s, rfl, hn⟩)
  | reAlloc p n =>
    simp only [Call.effect] at h
    split_ifs at h with hp hn
    subst hp hn
    exact Or.inr (Or.inr (Or.inl rfl))
  | delete p t =>
    simp only [Call.effect] at h
    split_ifs at h with hp
    subst hp
    exact Or.inr (Or.inr (Or.inr ⟨t, rfl⟩))
  | setMaxAllowedAllocInTheSameStack n => cases h

theorem allocate_ne_zero {c : Call} {t : MemoryType} (h : c.effect = .allocate t) :
    (∃ n b, c = .alloc n t b ∧ n ≠ 0) ∨ (t = .malloc ∧
      ((∃ m s, c = .calloc m s ∧ m * s % sizeModulus ≠ 0) ∨ ∃ n, c = .reAlloc 0 n ∧ n ≠ 0)) := by
  cases c with
  | alloc n t' b =>
    simp only [Call.effect] at h
    split_ifs at h with hn
    cases h
    exact Or.inl ⟨n, b, rfl, hn⟩
  | calloc m s =>
    simp only [Call.effect] at h
    split_ifs at h with hn
    cases h
    exact Or.inr ⟨rfl, Or.inl ⟨m, s, rfl, hn⟩⟩
  | reAlloc p n =>
    simp only [Call.effect] at h
    split_ifs at h with hp hn
    cases h
    subst hp
    exact Or.inr ⟨rfl, Or.inr ⟨n, rfl, hn⟩⟩
  | delete p t' =>
    simp only [Call.effect] at h
    split_ifs at h
  | setMaxAllowedAllocInTheSameStack n => cases h

theorem setMax_eq {c : Call} {n : ℕ} (h : c.effect = .setMax n) :
    c = .setMaxAllowedAllocInTheSameStack n := by
  cases c with
  | setMaxAllowedAllocInTheSameStack m =>
    cases h
    rfl
  | alloc m t => simp only [Call.effect] at h; split_ifs at h
  | calloc m k => simp only [Call.effect] at h; split_ifs at h
  | reAlloc q m => simp only [Call.effect] at h; split_ifs at h
  | delete q t => simp only [Call.effect] at h; split_ifs at h

theorem move_ne_zero {c : Call} {ptr : Addr} {count : ℕ} (h : c.effect = .move ptr count) :
    c = .reAlloc ptr count ∧ ptr ≠ 0 ∧ count ≠ 0 := by
  cases c with
  | reAlloc p n =>
    simp only [Call.effect] at h
    split_ifs at h with hp hz hn
    cases h
    exact ⟨rfl, hp, hn⟩
  | alloc n t => simp only [Call.effect] at h; split_ifs at h
  | calloc m s => simp only [Call.effect] at h; split_ifs at h
  | delete p t => simp only [Call.effect] at h; split_ifs at h
  | setMaxAllowedAllocInTheSameStack n => cases h

theorem release_ne_zero {c : Call} {ptr : Addr} {t : MemoryType}
    (h : c.effect = .release ptr t) :
    ptr ≠ 0 ∧ (c = .delete ptr t ∨ (c = .reAlloc ptr 0 ∧ t = .malloc)) := by
  cases c with
  | delete p t' =>
    simp only [Call.effect] at h
    split_ifs at h with hp
    cases h
    exact ⟨hp, Or.inl rfl⟩
  | reAlloc p n =>
    simp only [Call.effect] at h
    split_ifs at h with hp hz hn
    cases h
    subst hn
    exact ⟨hp, Or.inr ⟨rfl, rfl⟩⟩
  | alloc n t' => simp only [Call.effect] at h; split_ifs at h
  | calloc m s => simp only [Call.effect] at h; split_ifs at h
  | setMaxAllowedAllocInTheSameStack n => cases h

/-- `delete` releases the address that it is called for, and moves nothing. -/
theorem release_of_delete {p q : Addr} {t t' : MemoryType}
    (h : (Call.delete p t).effect = .release q t') : q = p := by
  obtain ⟨-, hc | ⟨hc, -⟩⟩ := release_ne_zero h
  · cases hc
    rfl
  · cases hc

theorem delete_ne_move {p q : Addr} {t : MemoryType} {n : ℕ} :
    (Call.delete p t).effect ≠ .move q n := by
  intro h
  obtain ⟨hc, -⟩ := move_ne_zero h
  cases hc

section Outermost

variable {st : State} {env : Env} {c : Call}

/-- A call without effect returns or throws, and leaves the state alone. -/
theorem call_nothing (ho : st.Outermost) (h : c.effect = .nothing) :
    (call st env c).st = st ∧ (call st env c).events = [] := by
  obtain ⟨-, hf⟩ := ho
  rcases nothing_zero h with ⟨t, b, rfl⟩ | ⟨m, s, rfl, hn⟩ | rfl | ⟨t, rfl⟩
  · simp [call, testOperatorAlloc, hf, nullOrThrow]
  · simp [call, testOperatorCalloc, hf, hn, nullOrThrow]
  · simp [call, testOperatorReAlloc, testOperatorAlloc, hf, nullOrThrow]
  · simp [call, testOperatorDelete]

theorem call_setMax {n : ℕ} (h : c.effect = .setMax n) :
    (call st env c).st = { st with unMaxNumberOfAllocFromTheSameStack := n } ∧
      (call st env c).events = [] := by
  rw [setMax_eq h]
  exact ⟨rfl, rfl⟩

/-- A release is served by `TestOperatorDelete`. -/
theorem call_release (ho : st.Outermost) {ptr : Addr} {t : MemoryType}
    (h : c.effect = .release ptr t) : call st env c = testOperatorDelete st env ptr t := by
  obtain ⟨hp, rfl | ⟨rfl, rfl⟩⟩ := release_ne_zero h
  · rfl
  · simp [call, testOperatorReAlloc, ho.2, hp]

/-- The raw requests that make a new block. -/
def Event.isAllocation : Event → Bool
  | .mallocn _ _ | .callocn _ _ _ => true
  | _ => false

theorem Event.isAllocation.ne_clbkFnc {e : Event} (h : e.isAllocation = true) (d : FailureData)
    (a : FailureAction) : e ≠ .clbkFnc d a := by
  rintro rfl
  cases h

/-- An allocation whose raw request fails leaves the state alone. -/
theorem call_allocate_null (ho : st.Outermost) {t : MemoryType} (h : c.effect = .allocate t)
    (hraw : env.raw = 0) :
    (call st env c).st = st ∧ ∀ e ∈ (call st env c).events, e.isAllocation = true := by
  obtain ⟨-, hf⟩ := ho
  rcases allocate_ne_zero h with ⟨n, b, rfl, hn⟩ | ⟨-, ⟨m, s, rfl, hn⟩ | ⟨n, rfl, hn⟩⟩
  · simp [call, testOperatorAlloc, hf, hn, hraw, nullOrThrow, Event.isAllocation]
  · simp [call, testOperatorCalloc, hf, hn, hraw, nullOrThrow, Event.isAllocation]
  · simp [call, testOperatorReAlloc, testOperatorAlloc, hf, hn, hraw, nullOrThrow,
      Event.isAllocation]

/-- An allocation whose raw request succeeds registers the block. -/
theorem call_allocate (ho : st.Outermost) {t : MemoryType} (h : c.effect = .allocate t)
    (hraw : env.raw ≠ 0) :
    ∃ e : Event, e.isAllocation = true ∧ call st env c =
      { addNewAllocatedMemoryAndCleanOldEntry (st.mallocn env.raw) env t env.raw with
        events := e ::
          (addNewAllocatedMemoryAndCleanOldEntry (st.mallocn env.raw) env t env.raw).events } := by
  obtain ⟨-, hf⟩ := ho
  rcases allocate_ne_zero h with ⟨n, b, rfl, hn⟩ | ⟨rfl, ⟨m, s, rfl, hn⟩ | ⟨n, rfl, hn⟩⟩
  · exact ⟨.mallocn n env.raw, rfl, by simp [call, testOperatorAlloc, hf, hn, hraw]⟩
  · exact ⟨.callocn m s env.raw, rfl, by simp [call, testOperatorCalloc, hf, hn, hraw]⟩
  · exact ⟨.mallocn n env.raw, rfl,
      by simp [call, testOperatorReAlloc, testOperatorAlloc, hf, hn, hraw]⟩

/-- A realloc of a block to a positive size is served by the last part of `TestOperatorReAlloc`. -/
theorem call_move {ptr : Addr} {count : ℕ} (h : c.effect = .move ptr count) :
    call st env c = testOperatorReAlloc st env ptr count := by
  obtain ⟨rfl, -, -⟩ := move_ne_zero h
  rfl

theorem step_eq (ho : st.Outermost) : step st (c, env) = (call st env c).st := by
  simp [step, ho.1]

end Outermost

/-! ## The bodies, case by case -/

/-- The state after the capture of the current stack, at the start of a release or realloc. -/
def State.capture (st : State) (env : Env) : State :=
  { st with traces := (initBacktraceDataForCurrentStack st.traces env.stack).1 }

/-- The `Backtrace*` that this capture returns. -/
def State.captured (st : State) (env : Env) : BacktracePtr :=
  (initBacktraceDataForCurrentStack st.traces env.stack).2

section Bodies

variable {st : State} {env : Env}

@[simp] theorem findMemoryItem_capture (p : Addr) :
    (st.capture env).findMemoryItem p = st.findMemoryItem p := rfl
@[simp] theorem capture_memoryItems : (st.capture env).memoryItems = st.memoryItems := rfl
@[simp] theorem capture_stackItems : (st.capture env).stackItems = st.stackItems := rfl
@[simp] theorem capture_live : (st.capture env).live = st.live := rfl
@[simp] theorem capture_process : (st.capture env).process = st.process := rfl
@[simp] theorem capture_ndebug : (st.capture env).ndebug = st.ndebug := rfl
@[simp] theorem capture_flag : (st.capture env).bIsAllocingOrDeallocing =
    st.bIsAllocingOrDeallocing := rfl
@[simp] theorem capture_threshold : (st.capture env).unMaxNumberOfAllocFromTheSameStack =
    st.unMaxNumberOfAllocFromTheSameStack := rfl

@[simp] theorem captured_mallocn (q : Addr) : (st.mallocn q).captured env = st.captured env := by
  simp [State.captured]

/-- An allocation is a registration after the capture of the stack. -/
theorem call_allocate_st (ho : st.Outermost) {c : Call} {t : MemoryType}
    (heff : c.effect = .allocate t) (hraw : env.raw ≠ 0) : (call st env c).st =
      (addNewAllocatedMemoryAndCleanOldEntryNoLock ((st.mallocn env.raw).capture env) env t env.raw
        (st.captured env)).st := by
  obtain ⟨e, -, hcall⟩ : ∃ e : Event, e.isAllocation = true ∧ _ := call_allocate ho heff hraw
  rw [hcall, ← captured_mallocn env.raw]
  rfl

/-- What registrations, moves, releases and new thresholds keep, every call keeps. -/
theorem call_preserves {I : State → Prop} (ho : st.Outermost) (c : Call) (h : I st)
    (hadd : ∀ t, I (addNewAllocatedMemoryAndCleanOldEntryNoLock ((st.mallocn env.raw).capture env)
      env t env.raw (st.captured env)).st)
    (hmove : ∀ p n, p ≠ 0 → n ≠ 0 → I (testOperatorReAlloc st env p n).st)
    (hrelease : ∀ p t, p ≠ 0 → I (testOperatorDelete st env p t).st)
    (hmax : ∀ n, I { st with unMaxNumberOfAllocFromTheSameStack := n }) :
    I (call st env c).st := by
  cases heff : c.effect with
  | nothing =>
    rw [(call_nothing ho heff).1]
    exact h
  | allocate t =>
    by_cases hraw : env.raw = 0
    · rw [(call_allocate_null ho heff hraw).1]
      exact h
    · rw [call_allocate_st ho heff hraw]
      exact hadd t
  | move p n =>
    obtain ⟨-, hp, hn⟩ := move_ne_zero heff
    rw [call_move heff]
    exact hmove p n hp hn
  | release p t =>
    rw [call_release ho heff]
    exact hrelease p t (release_ne_zero heff).1
  | setMax n =>
    rw [(call_setMax heff).1]
    exact hmax n

/-- The release of a non-null pointer by an outermost thread, after the capture of its stack. -/
theorem testOperatorDelete_body (env : Env) (ho : st.Outermost) {p : Addr} (hp : p ≠ 0)
    (t : MemoryType) :
    testOperatorDelete st env p t =
      match (st.capture env).findMemoryItem p with
      | none => deleteUntracked (st.capture env) env p (st.captured env)
      | some item =>
        if item.status ≠ .allocated then
          initFailureDataAndCallClbk (st.capture env) env item .notProvided p 0 .doubleFree
            (st.captured env)
        else
          match removeCorrespondingTrace (st.capture env) item.allocTrace with
          | .error pr => (st.capture env).ends pr []
          | .ok st₁ =>
            if item.type ≠ t then
              initFailureDataAndCallClbk st₁ env item .notProvided p 0 .freeMissmatch
                (st.captured env)
            else
              ⟨(st₁.setMemoryItem p { item with
                  status := .deallocated, deallocTrace := st.captured env }).freen item.realAddress,
                .returns 0, [.freen item.realAddress]⟩ := by
  rw [testOperatorDelete, if_neg hp, if_neg (by simp [ho.2])]
  rfl

/-- The five ways a release of a non-null pointer ends. -/
theorem testOperatorDelete_cases (env : Env) (ho : st.Outermost) {p : Addr} (hp : p ≠ 0)
    (t : MemoryType) :
    (st.findMemoryItem p = none ∧ testOperatorDelete st env p t =
        deleteUntracked (st.capture env) env p (st.captured env)) ∨
      (∃ item, st.findMemoryItem p = some item ∧ item.status ≠ .allocated ∧
        testOperatorDelete st env p t = initFailureDataAndCallClbk (st.capture env) env item
          .notProvided p 0 .doubleFree (st.captured env)) ∨
      (∃ item pr, st.findMemoryItem p = some item ∧ item.status = .allocated ∧
        removeCorrespondingTrace (st.capture env) item.allocTrace = .error pr ∧
        testOperatorDelete st env p t = (st.capture env).ends pr []) ∨
      (∃ item st₁, st.findMemoryItem p = some item ∧ item.status = .allocated ∧
        removeCorrespondingTrace (st.capture env) item.allocTrace = .ok st₁ ∧ item.type ≠ t ∧
        testOperatorDelete st env p t = initFailureDataAndCallClbk st₁ env item .notProvided p 0
          .freeMissmatch (st.captured env)) ∨
      (∃ item st₁, st.findMemoryItem p = some item ∧ item.status = .allocated ∧
        removeCorrespondingTrace (st.capture env) item.allocTrace = .ok st₁ ∧ item.type = t ∧
        testOperatorDelete st env p t =
          ⟨(st₁.setMemoryItem p { item with
              status := .deallocated, deallocTrace := st.captured env }).freen item.realAddress,
            .returns 0, [.freen item.realAddress]⟩) := by
  rw [testOperatorDelete_body env ho hp, findMemoryItem_capture]
  cases hf : st.findMemoryItem p with
  | none => exact Or.inl ⟨rfl, rfl⟩
  | some item =>
    by_cases hst : item.status = .allocated
    · simp only [hst, ne_eq, not_true_eq_false, if_false]
      cases hrem : removeCorrespondingTrace (st.capture env) item.allocTrace with
      | error pr => exact Or.inr (Or.inr (Or.inl ⟨item, pr, rfl, hst, hrem, rfl⟩))
      | ok st₁ =>
        by_cases ht : item.type = t
        · refine Or.inr (Or.inr (Or.inr (Or.inr ⟨item, st₁, rfl, hst, hrem, ht, ?_⟩)))
          simp only [ht, not_true_eq_false, if_false]
        · refine Or.inr (Or.inr (Or.inr (Or.inl ⟨item, st₁, rfl, hst, hrem, ht, ?_⟩)))
          simp only [ht, not_false_eq_true, if_true]
    · refine Or.inr (Or.inl ⟨item, rfl, hst, ?_⟩)
      simp only [hst, ne_eq, not_false_eq_true, if_true]

/-- The realloc of a non-null pointer to a positive size, after the capture of its stack. -/
theorem testOperatorReAlloc_body (env : Env) (ho : st.Outermost) {p : Addr} {n : ℕ} (hp : p ≠ 0)
    (hn : n ≠ 0) :
    testOperatorReAlloc st env p n =
      match (st.capture env).findMemoryItem p with
      | none => reAllocUntracked (st.capture env) env p n (st.captured env)
      | some item =>
        if item.type ≠ .malloc then
          initFailureDataAndCallClbk (st.capture env) env item .notProvided p n
            .badReallocCreatedByWrongAlloc (st.captured env)
        else if item.status ≠ .allocated then
          initFailureDataAndCallClbk (st.capture env) env item .notProvided p n
            .badReallocDeletedMem (st.captured env)
        else
          let st₁ := (st.capture env).reallocn item.realAddress env.raw
          if env.raw = p then
            ⟨{ st₁ with traces := freeBacktraceData st₁.traces (st.captured env) },
              .returns env.raw, [.reallocn item.realAddress n env.raw]⟩
          else
            match removeCorrespondingTrace st₁ item.allocTrace with
            | .error pr => st₁.ends pr [.reallocn item.realAddress n env.raw]
            | .ok st₂ =>
              let r := addNewAllocatedMemoryAndCleanOldEntryNoLock
                (st₂.setMemoryItem p { item with status := .duringReallocChanged }) env .malloc
                env.raw (st.captured env)
              { r with events := .reallocn item.realAddress n env.raw :: r.events } := by
  rw [testOperatorReAlloc, if_neg (by simp [ho.2]), if_neg hp, if_neg hn]
  rfl

/-- The six ways a realloc of a non-null pointer to a positive size ends. -/
theorem testOperatorReAlloc_cases (env : Env) (ho : st.Outermost) {p : Addr} {n : ℕ} (hp : p ≠ 0)
    (hn : n ≠ 0) :
    (st.findMemoryItem p = none ∧ testOperatorReAlloc st env p n =
        reAllocUntracked (st.capture env) env p n (st.captured env)) ∨
      (∃ item, st.findMemoryItem p = some item ∧ item.type ≠ .malloc ∧
        testOperatorReAlloc st env p n = initFailureDataAndCallClbk (st.capture env) env item
          .notProvided p n .badReallocCreatedByWrongAlloc (st.captured env)) ∨
      (∃ item, st.findMemoryItem p = some item ∧ item.type = .malloc ∧ item.status ≠ .allocated ∧
        testOperatorReAlloc st env p n = initFailureDataAndCallClbk (st.capture env) env item
          .notProvided p n .badReallocDeletedMem (st.captured env)) ∨
      (∃ item, st.findMemoryItem p = some item ∧ item.type = .malloc ∧ item.status = .allocated ∧
        env.raw = p ∧ testOperatorReAlloc st env p n =
          ⟨{ (st.capture env).reallocn item.realAddress env.raw with
              traces := freeBacktraceData (st.capture env).traces (st.captured env) },
            .returns env.raw, [.reallocn item.realAddress n env.raw]⟩) ∨
      (∃ item pr, st.findMemoryItem p = some item ∧ item.type = .malloc ∧
        item.status = .allocated ∧ env.raw ≠ p ∧
        removeCorrespondingTrace ((st.capture env).reallocn item.realAddress env.raw)
          item.allocTrace = .error pr ∧
        testOperatorReAlloc st env p n =
          ((st.capture env).reallocn item.realAddress env.raw).ends pr
            [.reallocn item.realAddress n env.raw]) ∨
      (∃ item st₁ r, st.findMemoryItem p = some item ∧ item.type = .malloc ∧
        item.status = .allocated ∧ env.raw ≠ p ∧
        removeCorrespondingTrace ((st.capture env).reallocn item.realAddress env.raw)
          item.allocTrace = .ok st₁ ∧
        r = addNewAllocatedMemoryAndCleanOldEntryNoLock
          (st₁.setMemoryItem p { item with status := .duringReallocChanged }) env .malloc env.raw
          (st.captured env) ∧
        testOperatorReAlloc st env p n =
          { r with events := .reallocn item.realAddress n env.raw :: r.events }) := by
  rw [testOperatorReAlloc_body env ho hp hn, findMemoryItem_capture]
  cases hf : st.findMemoryItem p with
  | none => exact Or.inl ⟨rfl, rfl⟩
  | some item =>
    by_cases ht : item.type = .malloc
    · by_cases hst : item.status = .allocated
      · simp only
        rw [if_neg (by simp [ht]), if_neg (by simp [hst])]
        by_cases hraw : env.raw = p
        · refine Or.inr (Or.inr (Or.inr (Or.inl ⟨item, rfl, ht, hst, hraw, ?_⟩)))
          rw [if_pos hraw, reallocn_traces]
        · rw [if_neg hraw]
          cases hrem : removeCorrespondingTrace
              ((st.capture env).reallocn item.realAddress env.raw) item.allocTrace with
          | error pr =>
            exact Or.inr (Or.inr (Or.inr (Or.inr (Or.inl ⟨item, pr, rfl, ht, hst, hraw, hrem, rfl⟩))))
          | ok st₁ =>
            exact Or.inr (Or.inr (Or.inr (Or.inr (Or.inr
              ⟨item, st₁, _, rfl, ht, hst, hraw, hrem, rfl, rfl⟩))))
      · refine Or.inr (Or.inr (Or.inl ⟨item, rfl, ht, hst, ?_⟩))
        simp only [ht, hst, ne_eq, not_true_eq_false, not_false_eq_true, if_false, if_true]
    · refine Or.inr (Or.inl ⟨item, rfl, ht, ?_⟩)
      simp only [ht, ne_eq, not_false_eq_true, if_true]

end Bodies

end CrashInvestigator.Tracker
