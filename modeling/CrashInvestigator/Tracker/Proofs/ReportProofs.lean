import CrashInvestigator.Tracker.Chronicle
import CrashInvestigator.Tracker.Proofs.AgreementProofs

/-!
# Reports and history

What a report says of the registration of its address, of the address itself and of the current stack
is right in every run. The type of the deallocation routine is never passed to it, and the stack of the
last release only where the record still holds it.
-/

namespace CrashInvestigator.Tracker

open Library

section

variable {st st' : State} {env : Env} {p q : Addr} {item : SMemoryItem} {bt : BacktracePtr}

/-! ## What the history says of a record -/

/-- The record of `p` and the history of `p` agree. -/
structure Told (h : Chronicle) (st : State) (p : Addr) (item : SMemoryItem) : Prop where
  registered : h.registered p = some (item.type, convertBacktraceToNames st.traces item.allocTrace)
  allocTrace : st.traces.Created item.allocTrace
  deallocTrace : st.traces.Created item.deallocTrace
  allocated : item.status = .allocated → item.deallocTrace = none
  released : item.status ≠ .allocated → ∃ rel, h.released p = some rel ∧
    convertBacktraceToNames st.traces item.deallocTrace = if rel.byReAlloc then [] else rel.stack

/-- The history tells of every record. -/
def Chronicle.Tells (h : Chronicle) (st : State) : Prop :=
  ∀ p item, st.findMemoryItem p = some item → Told h st p item

/-- The objects of `st` are still there in `st'`. -/
def TraceHeap.Extends (h' h : TraceHeap) : Prop :=
  h.next ≤ h'.next ∧ ∀ t, t < h.next → h'.data t = h.data t

theorem TraceHeap.Extends.created {h h' : TraceHeap} (he : h'.Extends h) (hb : h.Created bt) :
    h'.Created bt := fun t ht => Nat.lt_of_lt_of_le (hb t ht) he.1

theorem TraceHeap.Extends.names {h h' : TraceHeap} (he : h'.Extends h) (hb : h.Created bt) :
    convertBacktraceToNames h' bt = convertBacktraceToNames h bt := by
  cases bt with
  | none => rfl
  | some t => simp [convertBacktraceToNames, he.2 t (hb t rfl)]

theorem extends_of_eq {h h' : TraceHeap} (hnext : h'.next = h.next) (hdata : h'.data = h.data) :
    h'.Extends h := ⟨Nat.le_of_eq hnext.symm, fun t _ => by rw [hdata]⟩

theorem TraceHeap.Extends.trans {h₁ h₂ h₃ : TraceHeap} (h : h₃.Extends h₂) (h' : h₂.Extends h₁) :
    h₃.Extends h₁ := by
  refine ⟨Nat.le_trans h'.1 h.1, fun t ht => ?_⟩
  rw [h.2 t (Nat.lt_of_lt_of_le ht h'.1), h'.2 t ht]

theorem capture_extends (st : State) (env : Env) : (st.capture env).traces.Extends st.traces :=
  ⟨initBacktrace_next_le _ _, fun _ ht => initBacktrace_data_of_lt _ _ ht⟩

/-- The names of the captured stack are the frames of the call. -/
theorem captured_names (he : st'.traces.data = (st.capture env).traces.data) :
    convertBacktraceToNames st'.traces (st.captured env) = env.frames := by
  cases hs : env.stack with
  | none => simp [State.captured, initBacktraceDataForCurrentStack, hs, convertBacktraceToNames,
      Env.frames]
  | some s =>
    obtain ⟨hcap, -, hdata⟩ := captured_spec st hs
    simp [hcap, convertBacktraceToNames, he, hdata, Env.frames, hs]

variable {h h' : Chronicle}

theorem Told.extends (ht : Told h st p item) (he : st'.traces.Extends st.traces)
    (hr : h'.registered p = h.registered p) (hl : h'.released p = h.released p) :
    Told h' st' p item := by
  refine ⟨?_, he.created ht.allocTrace, he.created ht.deallocTrace, ht.allocated, fun hs => ?_⟩
  · rw [hr, he.names ht.allocTrace]
    exact ht.registered
  · rw [hl, he.names ht.deallocTrace]
    exact ht.released hs

/-- A call that leaves the records alone and adds nothing to the history. -/
theorem Chronicle.Tells.same (ht : h.Tells st) (hmem : st'.memoryItems = st.memoryItems)
    (he : st'.traces.Extends st.traces) : h.Tells st' := by
  intro p item hf
  rw [findMemoryItem_congr hmem] at hf
  exact (ht p item hf).extends he rfl rfl

/-! ## Preservation -/

/-- A registration extends the objects, and keeps their frames. -/
theorem addNew_extends (st : State) (env : Env) (ty : MemoryType) (p : Addr) (bt : BacktracePtr) :
    (addNewAllocatedMemoryAndCleanOldEntryNoLock st env ty p bt).st.traces.next = st.traces.next ∧
      (addNewAllocatedMemoryAndCleanOldEntryNoLock st env ty p bt).st.traces.data =
        st.traces.data := by
  rcases addNew_cases st env ty p bt with ⟨-, hr⟩ | ⟨st₁, hreg, hr⟩
  · rw [hr]
    exact ⟨rfl, rfl⟩
  · obtain ⟨-, -, -, -, -, -, hnext, hdata⟩ := registerMemoryItem_frame hreg
    rw [hr, (registerStackItem_records ..).2.1, (registerStackItem_records ..).2.2]
    exact ⟨hnext, hdata⟩

/-- A registration and its entry in the history. -/
theorem Chronicle.Tells.addNew (ht : h.Tells st) (ty : MemoryType)
    (hbt : st.traces.Created bt) (hframes : convertBacktraceToNames st.traces bt = env.frames)
    {st₀ : State} (hfind : st.findMemoryItem env.raw = st₀.findMemoryItem env.raw) :
    (h.registration st₀ env ty).Tells
      (addNewAllocatedMemoryAndCleanOldEntryNoLock st env ty env.raw bt).st := by
  obtain ⟨hnext, hdata⟩ := addNew_extends st env ty env.raw bt
  have he := extends_of_eq hnext hdata
  intro p item hf
  have hcan : CanRecord st env env.raw ↔
      env.memoryItem = true ∨ (st₀.findMemoryItem env.raw).isSome := by
    rw [CanRecord, hfind]
  by_cases hrec : CanRecord st env env.raw
  · unfold Chronicle.registration
    rw [if_pos (hcan.mp hrec)]
    rw [addNew_find hrec] at hf
    by_cases hp : p = env.raw
    · rw [if_pos hp] at hf
      cases hf
      have hnone : (addNewAllocatedMemoryAndCleanOldEntryNoLock st env ty env.raw bt).st.traces.Created
          none := fun t h => by cases h
      refine ⟨?_, he.created hbt, hnone, fun _ => rfl, fun h => absurd rfl h⟩
      rw [he.names hbt, hframes]
      simp [Chronicle.register, hp]
    · rw [if_neg hp] at hf
      exact (ht p item hf).extends he (by simp [Chronicle.register, hp]) rfl
  · unfold Chronicle.registration
    rw [if_neg (mt hcan.mpr hrec)]
    by_cases hp : p = env.raw
    · rw [hp, addNew_find_of_not hrec] at hf
      cases hf
    · rw [addNew_find_of_ne hp] at hf
      exact (ht p item hf).extends he rfl rfl

/-- The registration of a block that was just obtained. -/
theorem Chronicle.Tells.registration (ht : h.Tells st) (env : Env) (ty : MemoryType) :
    (h.registration st env ty).Tells (addNewAllocatedMemoryAndCleanOldEntryNoLock
      ((st.mallocn env.raw).capture env) env ty env.raw (st.captured env)).st := by
  have htraces : ((st.mallocn env.raw).capture env).traces = (st.capture env).traces := by
    simp [State.capture]
  have hreq : h.Tells ((st.mallocn env.raw).capture env) := by
    refine ht.same (by simp) ?_
    rw [htraces]
    exact capture_extends st env
  refine hreq.addNew ty ?_ (captured_names (by rw [htraces])) ?_
  · rw [htraces]
    exact captured_created st env
  · simp [State.findMemoryItem]

/-- The release of a record and its entry in the history. -/
theorem Chronicle.Tells.release (ht : h.Tells st) (hf : st.findMemoryItem p = some item)
    {rel : Release} {item' : SMemoryItem}
    (hsame : item'.type = item.type ∧ item'.allocTrace = item.allocTrace)
    (hst : item'.status ≠ .allocated) (hbt : st.traces.Created item'.deallocTrace)
    (hnames : convertBacktraceToNames st.traces item'.deallocTrace =
      if rel.byReAlloc then [] else rel.stack) :
    (h.release p rel).Tells (st.setMemoryItem p item') := by
  intro q item₁ hf₁
  rw [findMemoryItem_setMemoryItem st p item' (by simp [hf])] at hf₁
  by_cases hq : q = p
  · rw [if_pos hq] at hf₁
    cases hf₁
    have hold := ht p item hf
    refine ⟨?_, ?_, hbt, fun h => absurd h hst, fun _ => ⟨rel, ?_, hnames⟩⟩
    · rw [hq, hsame.1, hsame.2]
      exact hold.registered
    · rw [hsame.2]
      exact hold.allocTrace
    · simp [Chronicle.release, hq]
  · rw [if_neg hq] at hf₁
    exact (ht q item₁ hf₁).extends (extends_of_eq rfl rfl) rfl (by simp [Chronicle.release, hq])

/-- A deallocation keeps history and records in step. -/
theorem Chronicle.Tells.testOperatorDelete (ht : h.Tells st) (ho : st.Outermost) (hp : p ≠ 0)
    {t : MemoryType} (hrun : (Tracker.testOperatorDelete st env p t).st.process = .running) :
    (h.deallocation st env p t).Tells (Tracker.testOperatorDelete st env p t).st := by
  have hcap : h.Tells (st.capture env) := ht.same rfl (capture_extends st env)
  unfold Chronicle.deallocation
  rcases testOperatorDelete_cases env ho hp t with ⟨hf, hr⟩ | ⟨item, hf, hst, hr⟩ |
    ⟨item, pr, -, -, herr, hr⟩ | ⟨item, st₁, hf, hst, hrem, hty, hr⟩ |
    ⟨item, st₁, hf, hst, hrem, hty, hr⟩
  · simp only [hf]
    rw [hr]
    unfold deleteUntracked
    split_ifs
    · exact hcap
    · exact hcap.same rfl (extends_of_eq (by simp) (by simp))
  · obtain ⟨hmem, -, -, -, -, hnext, hdata⟩ := initFailure_frame (by simp) hr
    simp only [hf, hst, false_and, if_false]
    exact hcap.same hmem (extends_of_eq hnext hdata)
  · exfalso
    rw [hr] at hrun
    exact removeCorrespondingTrace_error herr hrun
  · obtain ⟨hmem, -, -, -, -, hnext, hdata⟩ := initFailure_frame (by simp) hr
    have hframe := removeCorrespondingTrace_frame hrem
    simp only [hf, hty, and_false, if_false]
    refine hcap.same ?_ (extends_of_eq ?_ ?_)
    · rw [hmem, hframe]
    · rw [hnext, hframe]
    · rw [hdata, hframe]
  · have hframe := removeCorrespondingTrace_frame hrem
    have htraces : st₁.traces = (st.capture env).traces := by rw [hframe]
    have hst₁ : h.Tells st₁ :=
      hcap.same (by rw [hframe]) (extends_of_eq (by rw [htraces]) (by rw [htraces]))
    have hf₁ : st₁.findMemoryItem p = some item := by
      rw [hframe]
      exact hf
    simp only [hf, hst, hty, and_self, if_true]
    rw [hr]
    have hset : (h.release p ⟨env.frames, false⟩).Tells (st₁.setMemoryItem p { item with
        status := .deallocated, deallocTrace := st.captured env }) := by
      refine hst₁.release hf₁ ⟨rfl, rfl⟩ (by simp) ?_ ?_
      · rw [htraces]
        exact captured_created st env
      · exact captured_names (by rw [htraces])
    exact hset.same rfl (extends_of_eq rfl rfl)

/-- A realloc keeps history and records in step. -/
theorem Chronicle.Tells.testOperatorReAlloc (ht : h.Tells st) (ho : st.Outermost) (hp : p ≠ 0)
    {n : ℕ} (hn : n ≠ 0)
    (hrun : (Tracker.testOperatorReAlloc st env p n).st.process = .running) :
    (h.reallocation st env p).Tells (Tracker.testOperatorReAlloc st env p n).st := by
  have hcap : h.Tells (st.capture env) := ht.same rfl (capture_extends st env)
  unfold Chronicle.reallocation
  rcases testOperatorReAlloc_cases env ho hp hn with ⟨hf, hr⟩ | ⟨item, hf, hty, hr⟩ |
    ⟨item, hf, -, hst, hr⟩ | ⟨item, hf, -, -, hraw, hr⟩ | ⟨item, pr, -, -, -, -, herr, hr⟩ |
    ⟨item, st₁, r, hf, hty, hst, hraw, hrem, hrr, hr⟩
  · simp only [hf]
    rw [hr]
    unfold reAllocUntracked
    cases env.initialRealloc with
    | some q => exact hcap
    | none => exact hcap.same (by simp) (extends_of_eq (by simp) (by simp))
  · obtain ⟨hmem, -, -, -, -, hnext, hdata⟩ := initFailure_frame (by simp) hr
    simp only [hf, hty, false_and, if_false]
    exact hcap.same hmem (extends_of_eq hnext hdata)
  · obtain ⟨hmem, -, -, -, -, hnext, hdata⟩ := initFailure_frame (by simp) hr
    simp only [hf, hst, false_and, and_false, if_false]
    exact hcap.same hmem (extends_of_eq hnext hdata)
  · simp only [hf, hraw, ne_eq, not_true_eq_false, and_false, if_false]
    rw [hr]
    exact hcap.same (by simp) (extends_of_eq (by simp) (by simp))
  · exfalso
    rw [hr] at hrun
    exact removeCorrespondingTrace_error herr hrun
  · have hframe := removeCorrespondingTrace_frame hrem
    have htraces : st₁.traces = (st.capture env).traces := by
      rw [hframe]
      simp
    have hmem : st₁.memoryItems = (st.capture env).memoryItems := by
      rw [hframe]
      simp
    have hst₁ : h.Tells st₁ := hcap.same hmem (extends_of_eq (by rw [htraces]) (by rw [htraces]))
    have hfind₁ : ∀ a, st₁.findMemoryItem a = st.findMemoryItem a := findMemoryItem_congr hmem
    have hmoved : (h.release p ⟨env.frames, true⟩).Tells (st₁.setMemoryItem p { item with
        status := .duringReallocChanged }) := by
      have hold := ht p item hf
      have hnone : item.deallocTrace = none := hold.allocated hst
      have hf₁ : st₁.findMemoryItem p = some item := by rw [hfind₁, hf]
      refine hst₁.release hf₁ ⟨rfl, rfl⟩ ?_ ?_ ?_
      · simp [MemoryStatus.duringReallocChanged]
      · rw [htraces]
        exact (capture_extends st env).created hold.deallocTrace
      · simp [hnone, convertBacktraceToNames]
    have hbt : (st₁.setMemoryItem p { item with
        status := .duringReallocChanged }).traces.Created (st.captured env) := by
      show st₁.traces.Created _
      rw [htraces]
      exact captured_created st env
    have hnames : convertBacktraceToNames (st₁.setMemoryItem p { item with
        status := .duringReallocChanged }).traces (st.captured env) = env.frames :=
      captured_names (by show st₁.traces.data = _; rw [htraces])
    have hsame : (st₁.setMemoryItem p { item with
        status := .duringReallocChanged }).findMemoryItem env.raw = st.findMemoryItem env.raw := by
      rw [findMemoryItem_setMemoryItem_of_ne _ _ _ _ hraw, hfind₁]
    simp only [hf, hty, hst, hraw, ne_eq, not_false_eq_true, and_self, if_true]
    rw [hr, hrr]
    exact hmoved.addNew .malloc hbt hnames hsame

/-- Every call keeps history and records in step, unless it ends the process. -/
theorem Chronicle.Tells.call (ht : h.Tells st) (ho : st.Outermost) (c : Call)
    (hrun : (Tracker.call st env c).st.process = .running) :
    (h.after st c env).Tells (Tracker.call st env c).st := by
  unfold Chronicle.after
  cases heff : c.effect with
  | nothing =>
    rw [(call_nothing ho heff).1]
    exact ht
  | setMax n =>
    rw [(call_setMax heff).1]
    exact ht.same rfl (extends_of_eq rfl rfl)
  | allocate ty =>
    by_cases hraw : env.raw = 0
    · simp only [if_pos hraw]
      rw [(call_allocate_null ho heff hraw).1]
      exact ht
    · simp only [if_neg hraw]
      rw [call_allocate_st ho heff hraw]
      exact ht.registration env ty
  | release p t =>
    rw [call_release ho heff] at hrun ⊢
    exact ht.testOperatorDelete ho (release_ne_zero heff).1 hrun
  | move p n =>
    obtain ⟨-, hp, hn⟩ := move_ne_zero heff
    rw [call_move heff] at hrun ⊢
    exact ht.testOperatorReAlloc ho hp hn hrun

theorem Chronicle.Tells.newAligned (ht : h.Tells st) (ho : st.Outermost) (count : ℕ)
    (ty : MemoryType) (bThrow : Bool) (align : ℕ) :
    (h.afterExported st env (.newAligned count ty bThrow align)).Tells
      (testOperatorNewAligned st env count ty bThrow align).st := by
  have hnull : ∀ ev, h.Tells (nullOrThrow st bThrow ev).st := fun ev => ht.same rfl (extends_of_eq rfl rfl)
  simp only [Chronicle.afterExported, testOperatorNewAligned, ho.2, Bool.false_eq_true, if_false]
  by_cases hcount : count = 0
  · simp only [hcount, ne_eq, not_true_eq_false, false_and, if_false, if_true]
    exact hnull _
  by_cases hraw : env.raw = 0
  · simp only [hcount, hraw, ne_eq, not_true_eq_false, false_and, and_false, if_false, if_true]
    exact hnull _
  cases hal : stdAlign (effectiveAlign align) count env.raw
      ((count + effectiveAlign align + sizeofVoidPtr) % sizeModulus) with
  | none =>
    simp only [hcount, hraw, ne_eq, Option.isSome_none, Bool.false_eq_true, and_false, if_false]
    exact ht.same (by simp [nullOrThrow]) (extends_of_eq (by simp [nullOrThrow]) (by simp [nullOrThrow]))
  | some q =>
    simp only [hcount, hraw, ne_eq, not_false_eq_true, Option.isSome_some, and_self, if_true, if_false]
    have hreg := ht.registration env ty
    rw [← captured_mallocn env.raw] at hreg
    exact hreg

/-- A call of any routine, after which the process runs, keeps history and records in step. -/
theorem Chronicle.Tells.exportedCall (ht : h.Tells st) (ho : st.Outermost) (c : ExportedCall)
    (hrun : (Tracker.exportedCall st env c).st.process = .running) :
    (h.afterExported st env c).Tells (Tracker.exportedCall st env c).st := by
  cases c with
  | plain c => exact ht.call ho c hrun
  | newAligned count ty bThrow align => exact ht.newAligned ho count ty bThrow align

/-! ## What a call reports -/

/-- The four reports on an address with a record. -/
theorem reported_cases (ho : st.Outermost) {c : Call} {d : FailureData} {a : FailureAction}
    (hev : Event.clbkFnc d a ∈ (Tracker.call st env c).events) (hkind : d.failureType.onTracked) :
    ∃ item s n, st.findMemoryItem c.address = some item ∧
      s.traces.data = (st.capture env).traces.data ∧
      d = failureData s env item .notProvided c.address n d.failureType (st.captured env) ∧
      (d.failureType = .doubleFree → item.status ≠ .allocated) ∧
      (d.failureType = .freeMissmatch → item.status = .allocated) ∧
      (d.failureType ≠ .doubleFree → d.failureType ≠ .freeMissmatch → c.routineType = .malloc) := by
  -- a registration reports possible leaks only
  have hleak : ∀ {s : State} {ty : MemoryType} {q : Addr} {bt : BacktracePtr}, Event.clbkFnc d a ∈
      (addNewAllocatedMemoryAndCleanOldEntryNoLock s env ty q bt).events → False := by
    intro s ty q bt hmem
    rw [addNew_events hmem] at hkind
    cases hkind
  cases heff : c.effect with
  | nothing =>
    rw [(call_nothing ho heff).2] at hev
    cases hev
  | setMax n =>
    rw [(call_setMax heff).2] at hev
    cases hev
  | allocate ty =>
    exfalso
    by_cases hraw : env.raw = 0
    · exact Event.isAllocation.ne_clbkFnc ((call_allocate_null ho heff hraw).2 _ hev) d a rfl
    · obtain ⟨e, he, hcall⟩ := call_allocate ho heff hraw
      rw [hcall] at hev
      rcases List.mem_cons.mp hev with h | h
      · exact Event.isAllocation.ne_clbkFnc he d a h.symm
      · exact hleak h
  | release p t =>
    obtain ⟨hp, hc⟩ := release_ne_zero heff
    have haddr : c.address = p := by
      rcases hc with rfl | ⟨rfl, -⟩
      · rfl
      · rfl
    rw [call_release ho heff] at hev
    rw [haddr]
    rcases testOperatorDelete_cases env ho hp t with ⟨-, hr⟩ | ⟨item, hf, hst, hr⟩ |
      ⟨item, pr, -, -, -, hr⟩ | ⟨item, st₁, hf, hst, hrem, -, hr⟩ | ⟨item, st₁, -, -, -, -, hr⟩
    · exfalso
      rw [hr, deleteUntracked] at hev
      split_ifs at hev
      · simp at hev
      · simp at hev
    · rw [hr] at hev
      have hd := (initFailure_events (by simp) hev).1
      have hft : d.failureType = .doubleFree := by rw [hd]; rfl
      refine ⟨item, st.capture env, 0, hf, rfl, by rw [hft]; exact hd, fun _ => hst, ?_, ?_⟩
      · rw [hft]
        intro h
        cases h
      · exact fun h => absurd hft h
    · exfalso
      rw [hr] at hev
      cases hev
    · rw [hr] at hev
      have hd := (initFailure_events (by simp) hev).1
      have hft : d.failureType = .freeMissmatch := by rw [hd]; rfl
      have hdata : st₁.traces.data = (st.capture env).traces.data := by
        rw [removeCorrespondingTrace_frame hrem]
      refine ⟨item, st₁, 0, hf, hdata, by rw [hft]; exact hd, ?_, fun _ => hst, ?_⟩
      · rw [hft]
        intro h
        cases h
      · exact fun _ h => absurd hft h
    · exfalso
      rw [hr] at hev
      simp at hev
  | move p n =>
    obtain ⟨rfl, hp, hn⟩ := move_ne_zero heff
    have hcall : Tracker.call st env (.reAlloc p n) = testOperatorReAlloc st env p n := rfl
    rw [hcall] at hev
    rcases testOperatorReAlloc_cases env ho hp hn with ⟨-, hr⟩ | ⟨item, hf, -, hr⟩ |
      ⟨item, hf, -, -, hr⟩ | ⟨item, -, -, -, -, hr⟩ | ⟨item, pr, -, -, -, -, -, hr⟩ |
      ⟨item, st₁, r, -, -, -, -, -, hrr, hr⟩
    · exfalso
      rw [hr, reAllocUntracked] at hev
      cases hi : env.initialRealloc <;> simp [hi] at hev
    · rw [hr] at hev
      have hd := (initFailure_events (by simp) hev).1
      have hft : d.failureType = .badReallocCreatedByWrongAlloc := by rw [hd]; rfl
      refine ⟨item, st.capture env, n, hf, rfl, by rw [hft]; exact hd, ?_, ?_, fun _ _ => rfl⟩
      · rw [hft]
        intro h
        cases h
      · rw [hft]
        intro h
        cases h
    · rw [hr] at hev
      have hd := (initFailure_events (by simp) hev).1
      have hft : d.failureType = .badReallocDeletedMem := by rw [hd]; rfl
      refine ⟨item, st.capture env, n, hf, rfl, by rw [hft]; exact hd, ?_, ?_, fun _ _ => rfl⟩
      · rw [hft]
        intro h
        cases h
      · rw [hft]
        intro h
        cases h
    · exfalso
      rw [hr] at hev
      simp at hev
    · exfalso
      rw [hr] at hev
      simp [State.ends] at hev
    · exfalso
      rw [hr] at hev
      rcases List.mem_cons.mp hev with h | h
      · cases h
      · rw [hrr] at h
        exact hleak h

/-- What a report on an address with a record says, by its kind. -/
theorem failureData_onTracked (s : State) (env : Env) (item : SMemoryItem) (p : Addr) (n : ℕ)
    (bt : BacktracePtr) {ft : FailureType} (hkind : ft.onTracked) :
    let d := failureData s env item .notProvided p n ft bt
    d.allocType = item.type ∧ d.freeType = .notProvided ∧ d.failureAddress = p ∧
      d.stackAlloc = env.names s.traces item.allocTrace ∧
      d.analizeStack = env.names s.traces bt ∧
      (ft = .doubleFree → d.stackFree = env.names s.traces item.deallocTrace) ∧
      (ft = .freeMissmatch → d.stackFree = []) := by
  cases ft with
  | doubleFree => exact ⟨rfl, rfl, rfl, rfl, rfl, fun _ => rfl, nofun⟩
  | freeMissmatch => exact ⟨rfl, rfl, rfl, rfl, rfl, nofun, fun _ => rfl⟩
  | badReallocCreatedByWrongAlloc => exact ⟨rfl, rfl, rfl, rfl, rfl, nofun, nofun⟩
  | badReallocDeletedMem => exact ⟨rfl, rfl, rfl, rfl, rfl, nofun, nofun⟩
  | unknown => cases hkind
  | deallocOfNonExistingMemory => cases hkind
  | badReallocMemNotExist => cases hkind
  | possibilityOfMemoryLeak => cases hkind
  | sigSegvHandler => cases hkind

/-- `backtrace_symbols` succeeds for the stack, unless it has no frames. -/
def Env.Shows (env : Env) (h : TraceHeap) (bt : BacktracePtr) : Prop :=
  ∀ t ∈ bt, env.backtraceSymbols t = true ∨ (h.data t).ppBuffer = []

instance (env : Env) (h : TraceHeap) (bt : BacktracePtr) : Decidable (env.Shows h bt) :=
  inferInstanceAs (Decidable (∀ t ∈ bt, env.backtraceSymbols t = true ∨ (h.data t).ppBuffer = []))

/-- The stack is then in the report as it was captured. -/
theorem names_eq_iff {h : TraceHeap} :
    env.names h bt = convertBacktraceToNames h bt ↔ env.Shows h bt := by
  cases bt with
  | none => simp [Env.names, convertBacktraceToNames, Env.Shows]
  | some t =>
    simp only [Env.names, convertBacktraceToNames, Env.Shows, Option.mem_some_iff, forall_eq']
    by_cases hsym : env.backtraceSymbols t = true
    · rw [if_pos hsym]
      exact ⟨fun _ => Or.inl hsym, fun _ => rfl⟩
    · rw [if_neg hsym]
      exact ⟨fun h => Or.inr h.symm, fun h => (h.resolve_left hsym).symm⟩

theorem names_of_empty {h : TraceHeap} (hempty : convertBacktraceToNames h bt = []) :
    env.names h bt = [] := by
  cases bt with
  | none => rfl
  | some t =>
    simp only [Env.names]
    split_ifs
    · exact hempty
    · rfl

/-- The names of an object that was there before are those of before. -/
theorem TraceHeap.Extends.shownNames {h h' : TraceHeap} (he : h'.Extends h) (hb : h.Created bt) :
    env.names h' bt = env.names h bt := by
  cases bt with
  | none => rfl
  | some t => simp only [Env.names, he.names hb]

/-- What a report on an address with a record says, told by the history. -/
structure Recounts (h : Chronicle) (st : State) (item : SMemoryItem) (c : Call) (env : Env)
    (d : FailureData) : Prop where
  registered : h.registered c.address =
    some (d.allocType, convertBacktraceToNames st.traces item.allocTrace)
  freeType : d.freeType = .notProvided
  failureAddress : d.failureAddress = c.address
  stackAlloc : d.stackAlloc = env.names st.traces item.allocTrace
  analizeStack : d.analizeStack = env.names (st.capture env).traces (st.captured env)
  doubleFree : d.failureType = .doubleFree → item.status ≠ .allocated ∧
    d.stackFree = env.names st.traces item.deallocTrace ∧
    ∃ rel, h.released c.address = some rel ∧
      convertBacktraceToNames st.traces item.deallocTrace = if rel.byReAlloc then [] else rel.stack
  freeMissmatch : d.failureType = .freeMissmatch → item.status = .allocated ∧ d.stackFree = []
  badRealloc : d.failureType ≠ .doubleFree → d.failureType ≠ .freeMissmatch →
    c.routineType = .malloc

/-- Every report on an address with a record recounts its history. -/
theorem Chronicle.Tells.recounts (ht : h.Tells st) (ho : st.Outermost) {c : Call} {d : FailureData}
    {a : FailureAction} (hev : Event.clbkFnc d a ∈ (Tracker.call st env c).events)
    (hkind : d.failureType.onTracked) :
    ∃ item, st.findMemoryItem c.address = some item ∧ Recounts h st item c env d := by
  obtain ⟨item, s, n, hf, hdata, hd, hdouble, hmis, hmove⟩ := reported_cases ho hev hkind
  have htold := ht _ item hf
  -- the names of the record's stacks are those of before the call
  have hnames : ∀ bt, st.traces.Created bt → env.names s.traces bt = env.names st.traces bt := by
    intro bt hbt
    rw [names_congr hdata]
    exact (capture_extends st env).shownNames hbt
  obtain ⟨htype, hfree, haddr, halloc, han, hdealloc, hnothing⟩ :=
    failureData_onTracked s env item c.address n (st.captured env) hkind
  rw [← hd] at htype hfree haddr halloc han hdealloc hnothing
  rw [hnames _ htold.allocTrace] at halloc
  rw [hnames _ htold.deallocTrace] at hdealloc
  rw [names_congr hdata] at han
  refine ⟨item, hf, ?_, hfree, haddr, halloc, han, fun hft => ?_, fun hft => ?_, hmove⟩
  · rw [htold.registered, htype]
  · obtain ⟨rel, hrel, hstack⟩ := htold.released (hdouble hft)
    exact ⟨hdouble hft, hdealloc hft, rel, hrel, hstack⟩
  · exact ⟨hmis hft, hnothing hft⟩

/-- The report agrees with the history: the routine passes its type, `backtrace_symbols` answers, and
the stack of the last release is in the record, or has no frames. -/
structure Disclosed (h : Chronicle) (st : State) (c : Call) (env : Env) : Prop where
  routineType : c.routineType = .notProvided
  stackAlloc : ∀ item ∈ st.findMemoryItem c.address, env.Shows st.traces item.allocTrace
  analizeStack : env.Shows (st.capture env).traces (st.captured env)
  released : ∀ rel ∈ h.released c.address, rel.stack = [] ∨ rel.byReAlloc = false ∧
    ∀ item ∈ st.findMemoryItem c.address,
      item.status ≠ .allocated ∧ env.Shows st.traces item.deallocTrace

instance (h : Chronicle) (st : State) (c : Call) (env : Env) : Decidable (Disclosed h st c env) :=
  decidable_of_iff (_ ∧ _ ∧ _ ∧ _) ⟨fun h => ⟨h.1, h.2.1, h.2.2.1, h.2.2.2⟩,
    fun h => ⟨h.1, h.2, h.3, h.4⟩⟩

section Recounts

variable {c : Call} {d : FailureData}

/-- Only a deallocation can be of the type that the reports get. -/
theorem Recounts.kinds (hd : Recounts h st item c env d) (hr : c.routineType = .notProvided) :
    d.failureType = .doubleFree ∨ d.failureType = .freeMissmatch := by
  by_contra hno
  push Not at hno
  rw [hd.badRealloc hno.1 hno.2] at hr
  cases hr

theorem Recounts.disclosed (hd : Recounts h st item c env d)
    (hf : st.findMemoryItem c.address = some item) (hF : Faithful h c env d) :
    Disclosed h st c env := by
  have hr : c.routineType = .notProvided := hF.freeType.symm.trans hd.freeType
  have hitem : ∀ item' ∈ st.findMemoryItem c.address, item' = item := by
    intro item' hf'
    rw [hf] at hf'
    cases hf'
    rfl
  have halloc : env.Shows st.traces item.allocTrace := by
    have hstack := hF.registered.symm.trans hd.registered
    simp only [Option.some.injEq, Prod.mk.injEq] at hstack
    exact names_eq_iff.mp (hd.stackAlloc.symm.trans hstack.2)
  refine ⟨hr, fun item' hf' => hitem item' hf' ▸ halloc, ?_, fun rel hrel => ?_⟩
  · refine names_eq_iff.mp (hd.analizeStack.symm.trans (hF.analizeStack.trans ?_))
    exact (captured_names rfl).symm
  · have hstack := hF.stackFree rel hrel
    by_cases hempty : rel.stack = []
    · exact Or.inl hempty
    refine Or.inr ?_
    rcases hd.kinds hr with hft | hft
    · obtain ⟨hst, hnames, rel', hrel', hframes⟩ := hd.doubleFree hft
      cases hrel.symm.trans hrel'
      rw [hnames] at hstack
      -- a moved block has no trace of its release
      have hstay : rel.byReAlloc = false := by
        by_contra hmoved
        rw [if_pos (by simpa using hmoved)] at hframes
        exact hempty (hstack.symm.trans (names_of_empty hframes))
      rw [hstay, if_neg (by simp)] at hframes
      refine ⟨hstay, fun item' hf' => ?_⟩
      rw [hitem item' hf']
      exact ⟨hst, names_eq_iff.mp (hstack.trans hframes.symm)⟩
    · exact absurd (hstack.symm.trans (hd.freeMissmatch hft).2) hempty

theorem Recounts.faithful (hd : Recounts h st item c env d)
    (hf : st.findMemoryItem c.address = some item) (hdis : Disclosed h st c env) :
    Faithful h c env d := by
  obtain ⟨hr, halloc, hcurrent, hreleased⟩ := hdis
  refine ⟨?_, hd.freeType.trans hr.symm, hd.failureAddress, fun rel hrel => ?_, ?_⟩
  · rw [hd.registered, hd.stackAlloc, names_eq_iff.mpr (halloc item hf)]
  · rcases hd.kinds hr with hft | hft
    · obtain ⟨-, hnames, rel', hrel', hframes⟩ := hd.doubleFree hft
      cases hrel.symm.trans hrel'
      rw [hnames]
      rcases hreleased rel hrel with hempty | ⟨hstay, hshown⟩
      · have hnone : convertBacktraceToNames st.traces item.deallocTrace = [] := by
          rw [hframes, hempty]
          split_ifs <;> rfl
        rw [hempty, names_of_empty hnone]
      · rw [names_eq_iff.mpr (hshown item hf).2, hframes, hstay]
        rfl
    · obtain ⟨hst, hnothing⟩ := hd.freeMissmatch hft
      rw [hnothing]
      rcases hreleased rel hrel with hempty | ⟨-, hshown⟩
      · exact hempty.symm
      · exact absurd hst (hshown item hf).1
  · rw [hd.analizeStack, names_eq_iff.mpr hcurrent]
    exact captured_names rfl

/-- The report of a call agrees with the history exactly when the call discloses it. -/
theorem Recounts.faithful_iff (hd : Recounts h st item c env d)
    (hf : st.findMemoryItem c.address = some item) :
    Faithful h c env d ↔ Disclosed h st c env := ⟨hd.disclosed hf, hd.faithful hf⟩

end Recounts

end

end CrashInvestigator.Tracker
