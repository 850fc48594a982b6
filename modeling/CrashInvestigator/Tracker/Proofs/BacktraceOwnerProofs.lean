import CrashInvestigator.Tracker.BacktraceOwners
import CrashInvestigator.Tracker.Proofs.OwnershipProofs

/-!
# Where captured stacks are lost

A call holds the stack that it captures in its hand. Most of its exits free it, put it into a record or
hand it to the note for the signal handler; those of `ForgetsBacktrace` do nothing with it.
-/

namespace CrashInvestigator.Tracker

open Library

/-! ## The trace in the hand of a call -/

/-- The owners of a trace during a call: the tables, the threads and the call itself. -/
def ownersDuring (st : State) (items : ℕ → Option CMemoryItem) (hand : BacktracePtr) : Set ℕ :=
  {t | hand = some t ∨ Program.Owns ⟨st, items⟩ t}

/-- During a call, every trace is freed, owned, or in the hand of the call. -/
structure Guarded (st : State) (items : ℕ → Option CMemoryItem) (hand : BacktracePtr) : Prop where
  fresh : ∀ t, st.traces.next ≤ t → st.traces.frees t = 0
  handCreated : st.traces.Created hand
  recordsCreated : ∀ t ∈ st.recordTraces, t < st.traces.next
  itemsCreated : ∀ thread item, items thread = some item → st.traces.Created item.deallocTrace
  /-- A block that was not released has no trace of its release. -/
  unreleased : ∀ e ∈ st.memoryItems, e.2.status = .allocated → e.2.deallocTrace = none
  covered : Covered st.traces.next st.traces.frees (ownersDuring st items hand)

section Hand

variable {st st' : State} {items : ℕ → Option CMemoryItem} {hand hand' bt : BacktracePtr}
  {env : Env} {p : Addr} {item item' : SMemoryItem} {thread : ℕ}

theorem Guarded.init : Guarded .init (fun _ => none) none where
  fresh := fun _ _ => rfl
  handCreated := fun t ht => by cases ht
  recordsCreated := fun t ht => by simp [State.recordTraces, State.init] at ht
  itemsCreated := fun thread item h => by cases h
  unreleased := fun e he => by simp [State.init] at he
  covered := Covered.empty

theorem created_none (h : TraceHeap) : h.Created none := fun t ht => by cases ht

/-- The tables, the releases and the number of traces are all that is read. -/
theorem Guarded.congr (h : Guarded st items hand) (hmem : st'.memoryItems = st.memoryItems)
    (hnext : st'.traces.next = st.traces.next) (hfrees : st'.traces.frees = st.traces.frees) :
    Guarded st' items hand := by
  have hrec : st'.recordTraces = st.recordTraces := by
    unfold State.recordTraces
    rw [hmem]
  refine ⟨?_, ?_, ?_, ?_, ?_, ?_⟩
  · rw [hnext, hfrees]
    exact h.fresh
  · unfold TraceHeap.Created
    rw [hnext]
    exact h.handCreated
  · rw [hrec, hnext]
    exact h.recordsCreated
  · unfold TraceHeap.Created
    rw [hnext]
    exact h.itemsCreated
  · rw [hmem]
    exact h.unreleased
  · unfold ownersDuring Program.Owns
    rw [hnext, hfrees, hmem]
    exact h.covered

/-- The captured stack is in the hand of the call. -/
theorem Guarded.capture (h : Guarded st items none) (env : Env) :
    Guarded (st.capture env) items (st.captured env) := by
  cases hs : env.stack with
  | none =>
    have hcap : st.captured env = none := by
      simp [State.captured, initBacktraceDataForCurrentStack, hs]
    rw [hcap]
    exact h.congr rfl (by simp [State.capture, initBacktraceDataForCurrentStack, hs])
      (by simp [State.capture])
  | some b =>
    obtain ⟨hcap, hnext, -⟩ := captured_spec st hs
    have hfrees : (st.capture env).traces.frees = st.traces.frees := by simp [State.capture]
    refine ⟨?_, captured_created st env, ?_, ?_, h.unreleased, ?_⟩
    · intro t ht
      rw [hfrees]
      exact h.fresh t (by omega)
    · intro t ht
      have := h.recordsCreated t ht
      omega
    · intro thread item hitem t ht
      have := h.itemsCreated thread item hitem t ht
      omega
    · rw [hnext, hfrees, hcap]
      refine h.covered.create.mono (fun _ hz => hz) ?_
      rintro t (rfl | hold) -
      · exact Or.inl rfl
      · exact hold.elim (fun hc => by cases hc) Or.inr

/-- A call may take a trace into its hand that is owned elsewhere. -/
theorem Guarded.take (h : Guarded st items none) (hbt : st.traces.Created bt) :
    Guarded st items bt := by
  refine ⟨h.fresh, hbt, h.recordsCreated, h.itemsCreated, h.unreleased, ?_⟩
  refine h.covered.mono (fun _ hz => hz) ?_
  rintro t (hc | hold) -
  · cases hc
  · exact Or.inr hold

/-- Traces that were created may be freed, as often as one likes. -/
theorem Guarded.freeTimes (h : Guarded st items hand) (hbt : st.traces.Created bt) (n : ℕ) :
    Guarded { st with traces := (fun g => freeBacktraceData g bt)^[n] st.traces } items hand := by
  have hfrees : ∀ t, ((fun g => freeBacktraceData g bt)^[n] st.traces).frees t =
      if bt = some t then st.traces.frees t + n else st.traces.frees t :=
    iterate_freeBacktraceData_frees st.traces bt n
  refine ⟨?_, ?_, ?_, ?_, h.unreleased, ?_⟩
  · intro t ht
    simp only [iterate_freeBacktraceData_next] at ht ⊢
    have hne : bt ≠ some t := fun hc => Nat.not_lt.mpr ht (hbt t hc)
    rw [hfrees, if_neg hne]
    exact h.fresh t ht
  · intro t ht
    simpa using h.handCreated t ht
  · intro t ht
    simpa using h.recordsCreated t ht
  · intro thread item hitem t ht
    simpa using h.itemsCreated thread item hitem t ht
  · simp only [iterate_freeBacktraceData_next]
    refine h.covered.mono (fun t hz => ?_) fun t ht _ => ht
    rw [hfrees] at hz
    split_ifs at hz
    · omega
    · exact hz

theorem Guarded.free (h : Guarded st items hand) (hbt : st.traces.Created bt) :
    Guarded { st with traces := freeBacktraceData st.traces bt } items hand := h.freeTimes hbt 1

/-- A trace that was freed need not be held. -/
theorem Guarded.drop (h : Guarded st items hand)
    (hgone : ∀ t, hand = some t → st.traces.frees t ≠ 0) : Guarded st items none := by
  refine ⟨h.fresh, created_none _, h.recordsCreated, h.itemsCreated, h.unreleased, ?_⟩
  refine h.covered.mono (fun _ hz => hz) ?_
  rintro t (hc | hold) hz
  · exact absurd hz (hgone t hc)
  · exact Or.inr hold

/-- The call frees the trace in its hand. -/
theorem Guarded.freeHand (h : Guarded st items hand) {n : ℕ} (hn : 1 ≤ n) :
    Guarded { st with traces := (fun g => freeBacktraceData g hand)^[n] st.traces } items none := by
  refine (h.freeTimes h.handCreated n).drop fun t ht => ?_
  show ((fun g => freeBacktraceData g hand)^[n] st.traces).frees t ≠ 0
  rw [iterate_freeBacktraceData_frees, if_pos ht]
  omega

/-- The thread's item frees the trace that it had and gets the one in the hand of the call. -/
theorem Guarded.keepItem (h : Guarded st items hand) (thread count : ℕ) (failureType : FailureType)
    (p : Addr) :
    Guarded { st with traces :=
        freeBacktraceData st.traces ((items thread).getD .default).deallocTrace }
      (Function.update items thread
        (some (((items thread).getD .default).init count failureType p hand))) none := by
  have hold : st.traces.Created ((items thread).getD .default).deallocTrace := by
    cases hi : items thread with
    | none => exact created_none _
    | some item => exact h.itemsCreated thread item hi
  have hfree := h.free hold
  refine ⟨hfree.fresh, created_none _, hfree.recordsCreated, ?_, hfree.unreleased, ?_⟩
  · intro i item hi
    by_cases hit : i = thread
    · subst hit
      rw [Function.update_self] at hi
      cases hi
      exact hfree.handCreated
    · rw [Function.update_of_ne hit] at hi
      exact hfree.itemsCreated i item hi
  · refine hfree.covered.mono (fun _ hz => hz) ?_
    rintro t (hc | hrec | ⟨i, item, hi, ht⟩) hz
    · exact Or.inr (Or.inr ⟨thread, _, Function.update_self .., hc⟩)
    · exact Or.inr (Or.inl hrec)
    · have hi' : items i = some item := hi
      by_cases hit : i = thread
      · -- what the item had before was freed
        subst hit
        have hdealloc : ((items i).getD CMemoryItem.default).deallocTrace = some t := by
          rw [hi']
          exact ht
        simp only [hdealloc, freeBacktraceData_frees_some, if_true] at hz
        omega
      · exact Or.inr (Or.inr ⟨i, item, (Function.update_of_ne hit ..).trans hi', ht⟩)

/-- A record is overwritten whose traces were freed or are those of the new one as well. -/
theorem Guarded.set (h : Guarded st items hand) (hf : st.findMemoryItem p = some item)
    (hnew : ∀ t ∈ item'.traces, t < st.traces.next)
    (hold : ∀ t ∈ item.traces, st.traces.frees t = 0 → t ∈ item'.traces)
    (hunreleased : item'.status = .allocated → item'.deallocTrace = none)
    (hhand : ∀ t, hand = some t → t ∈ item'.traces ∨ hand' = some t)
    (hcreated : st.traces.Created hand') : Guarded (st.setMemoryItem p item') items hand' := by
  obtain ⟨l₁, l₂, hl, hl'⟩ := recordTraces_split hf item'
  have hnewRec : ∀ t ∈ item'.traces, t ∈ (st.setMemoryItem p item').recordTraces := by
    intro t ht
    simp only [State.recordTraces, hl', List.flatMap_append, List.flatMap_cons, List.mem_append]
    exact Or.inr (Or.inl ht)
  refine ⟨h.fresh, hcreated, ?_, h.itemsCreated, ?_, ?_⟩
  · intro t ht
    rcases mem_recordTraces_set ht with ht | ht
    · exact h.recordsCreated t ht
    · exact hnew t ht
  · intro e he
    rcases Entries.mem_setFirst he with he | ⟨hv, -, -⟩
    · exact h.unreleased e he
    · rw [hv]
      exact hunreleased
  · refine h.covered.mono (fun _ hz => hz) ?_
    rintro t (hc | hrec | hitem) hz
    · rcases hhand t hc with ht | ht
      · exact Or.inr (Or.inl (mem_recordTraces.mp (hnewRec t ht)))
      · exact Or.inl ht
    · have hin := mem_recordTraces.mpr hrec
      simp only [State.recordTraces, hl, List.flatMap_append, List.flatMap_cons,
        List.mem_append] at hin
      refine Or.inr (Or.inl (mem_recordTraces.mp ?_))
      rcases hin with hin | hin | hin
      · simp only [State.recordTraces, hl', List.flatMap_append, List.mem_append]
        exact Or.inl hin
      · exact hnewRec t (hold t hin hz)
      · simp only [State.recordTraces, hl', List.flatMap_append, List.flatMap_cons, List.mem_append]
        exact Or.inr (Or.inr hin)
    · exact Or.inr (Or.inr hitem)

/-- The new record of a block owns the trace in the hand of the call. -/
theorem Guarded.registerMemoryItem (h : Guarded st items hand) {ty : MemoryType}
    (hr : Tracker.registerMemoryItem st env p ⟨ty, .allocated, p, hand, none⟩ = some st') :
    Guarded st' items none := by
  set item : SMemoryItem := ⟨ty, .allocated, p, hand, none⟩ with hitem
  have htraces : ∀ t, t ∈ item.traces ↔ hand = some t := by
    intro t
    simp [hitem, SMemoryItem.traces]
  rcases registerMemoryItem_cases hr with ⟨-, -, rfl⟩ | ⟨old, hf, rfl⟩
  · refine ⟨h.fresh, created_none _, ?_, h.itemsCreated, ?_, ?_⟩
    · intro t ht
      rcases List.mem_append.mp (ht : t ∈ item.traces ++ st.recordTraces) with ht | ht
      · exact h.handCreated t ((htraces t).mp ht)
      · exact h.recordsCreated t ht
    · intro e he
      rcases List.mem_cons.mp he with rfl | he
      · exact fun _ => rfl
      · exact h.unreleased e he
    · refine h.covered.mono (fun _ hz => hz) ?_
      rintro t (hc | ⟨e, he, ht⟩ | hown) -
      · exact Or.inr (Or.inl ⟨(p, item), List.mem_cons_self .., Or.inl hc⟩)
      · exact Or.inr (Or.inl ⟨e, List.mem_cons_of_mem _ he, ht⟩)
      · exact Or.inr (Or.inr hown)
  · obtain ⟨-, hmem⟩ := findMemoryItem_some hf
    have hcreated : ∀ t ∈ old.traces, t < st.traces.next := fun t ht =>
      h.recordsCreated t (List.mem_flatMap.mpr ⟨(p, old), hmem, ht⟩)
    have hfreed : Guarded { st with
        traces := freeBacktraceData (freeBacktraceData st.traces old.deallocTrace) old.allocTrace }
        items hand := by
      have hde : Guarded { st with traces := freeBacktraceData st.traces old.deallocTrace } items
          hand := h.free fun t ht => hcreated t (by simp [SMemoryItem.traces, ht])
      refine hde.free fun t ht => ?_
      simpa using hcreated t (by simp [SMemoryItem.traces, ht])
    refine hfreed.set hf ?_ ?_ (fun _ => rfl) ?_ (created_none _)
    · intro t ht
      simpa using h.handCreated t ((htraces t).mp ht)
    · intro t ht hz
      exfalso
      have hgone : ∀ bt : BacktracePtr, bt = some t → ∀ g : TraceHeap,
          (freeBacktraceData g bt).frees t ≠ 0 := by
        rintro bt rfl g
        rw [freeBacktraceData_frees_some, if_pos rfl]
        exact Nat.succ_ne_zero _
      simp only [SMemoryItem.traces, List.mem_append, Option.mem_toList] at ht
      rcases ht with ht | ht
      · exact hgone _ ht _ hz
      · -- what was freed once stays freed
        by_cases hal : old.allocTrace = some t
        · exact hgone _ hal _ hz
        · rw [freeBacktraceData_frees_of_ne _ _ hal] at hz
          exact hgone _ ht _ hz
    · intro t ht
      exact Or.inl ((htraces t).mpr ht)

end Hand

/-! ## Exits -/

/-- After the call, a process that goes on has lost no trace. -/
def Res.Guards (r : Res) (thread : ℕ) (items : ℕ → Option CMemoryItem) : Prop :=
  r.st.process = .running → Guarded r.st (r.events.foldl (keepHandlerItem thread) items) none

section Exits

variable {st st' : State} {items : ℕ → Option CMemoryItem} {hand bt : BacktracePtr} {env : Env}
  {p : Addr} {item : SMemoryItem} {thread : ℕ} {ty : MemoryType}

theorem Res.Guards.cons {r : Res} (h : r.Guards thread items) {e : Event}
    (he : keepHandlerItem thread items e = items) :
    Res.Guards { r with events := e :: r.events } thread items := by
  intro hrun
  rw [List.foldl_cons, he]
  exact h hrun

theorem keepHandlerItem_isAllocation {e : Event} (he : e.isAllocation = true) :
    keepHandlerItem thread items e = items := by
  cases e with
  | handlerMemoryInit item => cases he
  | _ => rfl

theorem foldl_isAllocation {events : List Event} (h : ∀ e ∈ events, e.isAllocation = true) :
    events.foldl (keepHandlerItem thread) items = items := by
  induction events with
  | nil => rfl
  | cons e events ih =>
    rw [List.foldl_cons, keepHandlerItem_isAllocation (h e (List.mem_cons_self ..))]
    exact ih fun e' he' => h e' (List.mem_cons_of_mem _ he')

/-- A report hands the analysis trace to its scope cleaner. -/
theorem Guarded.report (h : Guarded st items bt) (hruns : 1 ≤ env.inScopeCleanerRuns)
    {freeType : MemoryType} {count : ℕ} {failureType : FailureType}
    (hft : failureType ≠ .unknown) :
    (initFailureDataAndCallClbk st env item freeType p count failureType bt).Guards thread items := by
  intro hrun
  obtain ⟨data, -, ⟨-, hr⟩ | ⟨-, hr⟩ | ⟨-, -, hr⟩⟩ :=
    initFailure_cases st env item freeType p count failureType bt hft
  · rw [hr]
    split_ifs
    · have hmoved : Guarded (st.reallocn p env.raw) items bt := h.congr (by simp) (by simp) (by simp)
      exact hmoved.freeHand hruns
    · have hfreed : Guarded (st.freen p) items bt := h.congr rfl rfl rfl
      exact hfreed.freeHand hruns
  · rw [hr]
    exact h.freeHand hruns
  · rw [hr] at hrun
    cases hrun

/-- Counting the block leaves the traces to the records. -/
theorem Guarded.registerStackItem (h : Guarded st items none) (hruns : 1 ≤ env.inScopeCleanerRuns)
    (hbt : st.traces.Created bt) :
    (Tracker.registerStackItem st env item p bt).Guards thread items := by
  intro hrun
  cases bt with
  | none => cases hrun
  | some t =>
    rcases registerStackItem_cases st env item p t with ⟨-, -, hr⟩ | ⟨-, -, hr⟩ | ⟨e, -, -, hr⟩ |
      ⟨e, -, -, hr⟩ | ⟨e, -, -, -, r, hrr, hr⟩
    · rw [hr]
      exact h.congr rfl rfl rfl
    · rw [hr]
      exact h
    · rw [hr]
      exact h
    · rw [hr]
      exact h.congr rfl rfl rfl
    · have hset : Guarded (st.setStackItem t (e.2 + 1)) items (some t) :=
        (h.take hbt).congr rfl rfl rfl
      have hguards : r.Guards thread items := by
        rw [hrr]
        exact hset.report hruns (by simp)
      rw [hr] at hrun ⊢
      split_ifs at hrun ⊢ with hgo
      · exact hguards hgo
      · exact hguards hrun

/-- A registration that goes through owns the captured trace; one that throws leaves it behind. -/
theorem Guarded.addNew (h : Guarded st items hand) (hruns : 1 ≤ env.inScopeCleanerRuns)
    (hrec : hand = none ∨ st.findMemoryItem p ≠ none ∨ env.memoryItem = true) :
    (addNewAllocatedMemoryAndCleanOldEntryNoLock st env ty p hand).Guards thread items := by
  rcases addNew_cases st env ty p hand with ⟨hnone, hr⟩ | ⟨st₁, hreg, hr⟩
  · obtain ⟨hf, hgrow⟩ := registerMemoryItem_none_iff.mp hnone
    have hhand : hand = none := by
      rcases hrec with hrec | hrec | hrec
      · exact hrec
      · exact absurd hf hrec
      · rw [hgrow] at hrec
        cases hrec
    rw [hr]
    subst hhand
    exact fun _ => h
  · rw [hr]
    obtain ⟨-, -, -, -, -, -, hnext, -⟩ := registerMemoryItem_frame hreg
    refine (h.registerMemoryItem hreg).registerStackItem hruns fun t ht => ?_
    rw [hnext]
    exact h.handCreated t ht

theorem Guarded.removal (h : Guarded st items hand) {allocTrace : BacktracePtr}
    (hr : removeCorrespondingTrace st allocTrace = .ok st') : Guarded st' items hand := by
  have hframe := removeCorrespondingTrace_frame hr
  exact h.congr (by rw [hframe]) (by rw [hframe]) (by rw [hframe])

/-- Without a stack there is nothing to lose. -/
theorem captured_of_no_stack (h : ¬ env.stack.isSome) : st.captured env = none := by
  have hs : env.stack = none := Option.not_isSome_iff_eq_none.mp h
  simp [State.captured, initBacktraceDataForCurrentStack, hs]

/-- The traces of a record that was found. -/
theorem Guarded.recordCreated (h : Guarded st items hand) (hf : st.findMemoryItem p = some item)
    {t : ℕ} (ht : t ∈ item.traces) : t < st.traces.next := by
  obtain ⟨-, hmem⟩ := findMemoryItem_some hf
  exact h.recordsCreated t (List.mem_flatMap.mpr ⟨(p, item), hmem, ht⟩)

/-- A release keeps the captured trace, unless the pool takes the address. -/
theorem Guarded.testOperatorDelete (h : Guarded st items none) (ho : st.Outermost) (hp : p ≠ 0)
    (t : MemoryType) (hitem : env.handlerMemory = items thread)
    (hruns : 1 ≤ env.inScopeCleanerRuns)
    (hkeep : st.captured env = none ∨ ¬ (st.findMemoryItem p = none ∧ env.initialDealloc = true)) :
    (Tracker.testOperatorDelete st env p t).Guards thread items := by
  have hcap := h.capture env
  rcases testOperatorDelete_cases env ho hp t with ⟨hf, hr⟩ | ⟨item, -, -, hr⟩ |
    ⟨item, pr, -, -, hrem, hr⟩ | ⟨item, st₁, -, -, hrem, -, hr⟩ |
    ⟨item, st₁, hf, hst, hrem, -, hr⟩
  · rw [hr]
    unfold deleteUntracked
    split_ifs with hpool
    · have hhand : st.captured env = none := hkeep.resolve_right fun hno => hno ⟨hf, hpool⟩
      rw [hhand] at hcap
      exact fun _ => hcap
    · have hkept := hcap.keepItem thread 0 .deallocOfNonExistingMemory p
      rw [← hitem] at hkept
      exact fun _ => hkept.congr rfl rfl rfl
  · rw [hr]
    exact hcap.report hruns (by simp)
  · rw [hr]
    exact fun hrun => absurd hrun (removeCorrespondingTrace_error hrem)
  · rw [hr]
    exact (hcap.removal hrem).report hruns (by simp)
  · have hst₁ := hcap.removal hrem
    have hf₁ : st₁.findMemoryItem p = some item := by
      rw [removeCorrespondingTrace_frame hrem]
      exact hf
    have hnone : item.deallocTrace = none := by
      obtain ⟨-, hmem⟩ := findMemoryItem_some hf
      exact h.unreleased _ hmem hst
    rw [hr]
    intro _
    have hset : Guarded (st₁.setMemoryItem p { item with
        status := .deallocated, deallocTrace := st.captured env }) items none := by
      refine hst₁.set hf₁ ?_ ?_ (fun hc => by cases hc) ?_ (created_none _)
      · intro u hu
        simp only [SMemoryItem.traces, List.mem_append, Option.mem_toList] at hu
        rcases hu with hu | hu
        · exact hst₁.recordCreated hf₁ (by simp [SMemoryItem.traces, hu])
        · exact hst₁.handCreated u hu
      · intro u hu _
        simp only [SMemoryItem.traces, hnone, Option.toList_none, List.append_nil] at hu
        exact List.mem_append_left _ hu
      · intro u hu
        left
        simp [SMemoryItem.traces, hu]
    exact hset.congr rfl rfl rfl

/-- A realloc keeps the captured trace, unless the pool takes the address or the moved block cannot be
recorded. -/
theorem Guarded.testOperatorReAlloc (h : Guarded st items none) (ho : st.Outermost) (hp : p ≠ 0)
    {n : ℕ} (hn : n ≠ 0) (hitem : env.handlerMemory = items thread)
    (hruns : 1 ≤ env.inScopeCleanerRuns)
    (hkeep : st.captured env = none ∨ ¬ ForgetsBacktrace st env (.reAlloc p n)) :
    (Tracker.testOperatorReAlloc st env p n).Guards thread items := by
  have hcap := h.capture env
  have heff : (Call.reAlloc p n).effect = .move p n := by simp [Call.effect, hp, hn]
  rcases testOperatorReAlloc_cases env ho hp hn with ⟨hf, hr⟩ | ⟨item, -, -, hr⟩ |
    ⟨item, -, -, -, hr⟩ | ⟨item, -, -, -, -, hr⟩ | ⟨item, pr, -, -, -, -, hrem, hr⟩ |
    ⟨item, st₁, r, hf, hty, hst, hmv, hrem, hrr, hr⟩
  · rw [hr]
    unfold reAllocUntracked
    cases hpool : env.initialRealloc with
    | some q =>
      have hhand : st.captured env = none := by
        refine hkeep.resolve_right fun hno => hno ?_
        simp [ForgetsBacktrace, heff, hf, hpool]
      rw [hhand] at hcap
      exact fun _ => hcap
    | none =>
      have hkept := hcap.keepItem thread n .badReallocMemNotExist p
      rw [← hitem] at hkept
      exact fun _ => hkept.congr (by simp) (by simp) (by simp)
  · rw [hr]
    exact hcap.report hruns (by simp)
  · rw [hr]
    exact hcap.report hruns (by simp)
  · rw [hr]
    intro _
    have hmoved : Guarded ((st.capture env).reallocn item.realAddress env.raw) items
        (st.captured env) := hcap.congr (by simp) (by simp) (by simp)
    exact (hmoved.freeHand (Nat.le_refl 1)).congr rfl (by simp) (by simp)
  · rw [hr]
    exact fun hrun => absurd hrun (removeCorrespondingTrace_error hrem)
  · have hmoved : Guarded ((st.capture env).reallocn item.realAddress env.raw) items
        (st.captured env) := hcap.congr (by simp) (by simp) (by simp)
    have hst₁ := hmoved.removal hrem
    have hf₁ : st₁.findMemoryItem p = some item := by
      rw [removeCorrespondingTrace_frame hrem, reallocn_eq]
      exact hf
    have hset : Guarded (st₁.setMemoryItem p { item with status := .duringReallocChanged }) items
        (st.captured env) :=
      hst₁.set hf₁ (fun u hu => hst₁.recordCreated hf₁ hu) (fun u hu _ => hu)
        (fun hc => by cases hc) (fun u hu => Or.inr hu) hst₁.handCreated
    have hrec : st.captured env = none ∨
        (st₁.setMemoryItem p { item with status := .duringReallocChanged }).findMemoryItem env.raw ≠
          none ∨ env.memoryItem = true := by
      rw [findMemoryItem_moved hmv hrem]
      refine hkeep.imp_right fun hno => ?_
      by_contra hc
      simp only [not_or, not_not, Bool.not_eq_true] at hc
      refine hno ?_
      simp [ForgetsBacktrace, heff, hf, hty, hst, hmv, hrem, Except.isOk, Except.toBool,
        Unrecordable, hc]
    rw [hr, hrr]
    exact (hset.addNew hruns hrec).cons rfl

/-- One call of a thread loses nothing if it keeps the stack that it captures. -/
theorem Guarded.call (h : Guarded st items none) (ho : st.Outermost) {c : Call}
    (hitem : env.handlerMemory = items thread) (hruns : 1 ≤ env.inScopeCleanerRuns)
    (hkeep : env.stack.isSome → ¬ ForgetsBacktrace st env c) :
    (Tracker.call st env c).Guards thread items := by
  have hcapkeep : st.captured env = none ∨ ¬ ForgetsBacktrace st env c := by
    by_cases hs : env.stack.isSome
    · exact Or.inr (hkeep hs)
    · exact Or.inl (captured_of_no_stack hs)
  cases heff : c.effect with
  | nothing =>
    obtain ⟨hst, hev⟩ : (Tracker.call st env c).st = st ∧ (Tracker.call st env c).events = [] :=
      call_nothing ho heff
    intro _
    rw [hst, hev]
    exact h
  | setMax n =>
    obtain ⟨hst, hev⟩ : (Tracker.call st env c).st = _ ∧ (Tracker.call st env c).events = [] :=
      call_setMax heff
    intro _
    rw [hst, hev]
    exact h.congr rfl rfl rfl
  | release p t =>
    rw [call_release ho heff]
    refine h.testOperatorDelete ho (release_ne_zero heff).1 t hitem hruns ?_
    refine hcapkeep.imp_right fun hno hc => hno ?_
    simpa [ForgetsBacktrace, heff] using hc
  | move p n =>
    obtain ⟨rfl, hp, hn⟩ := move_ne_zero heff
    rw [call_move heff]
    exact h.testOperatorReAlloc ho hp hn hitem hruns hcapkeep
  | allocate ty =>
    by_cases hraw : env.raw = 0
    · obtain ⟨hst, hev⟩ := call_allocate_null ho heff hraw
      intro _
      rw [hst, foldl_isAllocation hev]
      exact h
    · obtain ⟨e, he, hcall⟩ := call_allocate ho heff hraw
      have hmalloc : Guarded (st.mallocn env.raw) items none :=
        h.congr (by simp) (by simp) (by simp)
      have hfind : ((st.mallocn env.raw).capture env).findMemoryItem env.raw =
          st.findMemoryItem env.raw := findMemoryItem_congr (by simp) env.raw
      have hrec : st.captured env = none ∨
          ((st.mallocn env.raw).capture env).findMemoryItem env.raw ≠ none ∨
          env.memoryItem = true := by
        rw [hfind]
        refine hcapkeep.imp_right fun hno => ?_
        by_contra hc
        simp only [not_or, not_not, Bool.not_eq_true] at hc
        refine hno ?_
        simp [ForgetsBacktrace, heff, Unrecordable, hraw, hc]
      rw [← captured_mallocn env.raw] at hrec
      rw [hcall]
      exact ((hmalloc.capture env).addNew hruns hrec).cons (keepHandlerItem_isAllocation he)

end Exits

/-! ## Runs -/

section Programs

variable {w : Program} {l : ℕ × Call × Env} {st : State} {env : Env} {c : Call}

/-- What a call that forgets its backtrace leaves: the traces are those after the capture, and neither
a record nor an item got one. -/
structure Res.Leaves (r : Res) (st : State) (env : Env) : Prop where
  running : r.st.process = .running
  traces : r.st.traces = (st.capture env).traces
  records : ∀ t ∈ r.st.recordTraces, t ∈ st.recordTraces
  items : ∀ thread items, r.events.foldl (keepHandlerItem thread) items = items

/-- The pool takes the address. -/
theorem leaves_capture (ho : st.Outermost) (out : Outcome) :
    Res.Leaves ⟨st.capture env, out, []⟩ st env :=
  ⟨ho.1, rfl, fun _ ht => ht, fun _ _ => rfl⟩

/-- There is no memory for the record of a new block. -/
theorem leaves_allocate (ho : st.Outermost) {ty : MemoryType} {e : Event} (he : e.isAllocation = true)
    (hf : st.findMemoryItem env.raw = none) (hgrow : env.memoryItem = false) {r : Res}
    (hr : r = addNewAllocatedMemoryAndCleanOldEntry (st.mallocn env.raw) env ty env.raw) :
    Res.Leaves { r with events := e :: r.events } st env := by
  have hf' : ((st.mallocn env.raw).capture env).findMemoryItem env.raw = none :=
    (findMemoryItem_congr (by simp) env.raw).trans hf
  have hthrow : r = ⟨(st.mallocn env.raw).capture env, .throwsBadAlloc, []⟩ :=
    hr.trans (addNew_throws hf' hgrow)
  rw [hthrow]
  refine ⟨by simpa using ho.1, by simp [State.capture], fun t ht => ?_, fun thread items => ?_⟩
  · simpa [State.recordTraces] using ht
  · exact keepHandlerItem_isAllocation he

/-- There is no memory for the record of a block that moved. -/
theorem leaves_moved (ho : st.Outermost) {p : Addr} {item moved : SMemoryItem} {st₁ : State} {e : Event}
    (he : ∀ thread items, keepHandlerItem thread items e = items)
    (hf : st.findMemoryItem p = some item)
    (hrem : removeCorrespondingTrace ((st.capture env).reallocn item.realAddress env.raw)
      item.allocTrace = .ok st₁) (hmoved : moved.traces = item.traces) (out : Outcome) :
    Res.Leaves ⟨st₁.setMemoryItem p moved, out, [e]⟩ st env := by
  have hframe := removeCorrespondingTrace_frame hrem
  have hmem : st₁.memoryItems = st.memoryItems := by
    rw [hframe]
    simp
  have hrec : st₁.recordTraces = st.recordTraces := by
    unfold State.recordTraces
    rw [hmem]
  refine ⟨?_, ?_, fun t ht => ?_, he⟩
  · show st₁.process = .running
    rw [hframe]
    simpa using ho.1
  · show st₁.traces = _
    rw [hframe]
    simp
  · rcases mem_recordTraces_set ht with ht | ht
    · rwa [hrec] at ht
    · obtain ⟨-, hold⟩ := findMemoryItem_some hf
      rw [hmoved] at ht
      exact List.mem_flatMap.mpr ⟨(p, item), hold, ht⟩

theorem forgets_leaves (ho : st.Outermost) (h : ForgetsBacktrace st env c) :
    (call st env c).Leaves st env := by
  cases heff : c.effect with
  | nothing => simp [ForgetsBacktrace, heff] at h
  | setMax n => simp [ForgetsBacktrace, heff] at h
  | release p t =>
    simp only [ForgetsBacktrace, heff] at h
    obtain ⟨hf, hpool⟩ := h
    rw [call_release ho heff, testOperatorDelete_body env ho (release_ne_zero heff).1,
      findMemoryItem_capture, hf]
    simp only [deleteUntracked, if_pos hpool]
    exact leaves_capture ho _
  | move p n =>
    obtain ⟨rfl, hp, hn⟩ := move_ne_zero heff
    rw [call_move heff]
    rcases testOperatorReAlloc_cases env ho hp hn with ⟨hf, hr⟩ | ⟨item, hf, hty, -⟩ |
      ⟨item, hf, -, hst, -⟩ | ⟨item, hf, -, -, hraw, -⟩ | ⟨item, pr, hf, -, -, -, hrem, -⟩ |
      ⟨item, st₁, r, hf, -, -, hmv, hrem, hrr, hr⟩
    · simp only [ForgetsBacktrace, heff, hf] at h
      obtain ⟨q, hpool⟩ := Option.isSome_iff_exists.mp h
      rw [hr]
      simp only [reAllocUntracked, hpool]
      exact leaves_capture ho _
    · simp only [ForgetsBacktrace, heff, hf] at h
      exact absurd h.1 hty
    · simp only [ForgetsBacktrace, heff, hf] at h
      exact absurd h.2.1 hst
    · simp only [ForgetsBacktrace, heff, hf] at h
      exact absurd hraw h.2.2.1
    · simp [ForgetsBacktrace, heff, hf, hrem, Except.isOk, Except.toBool] at h
    · simp only [ForgetsBacktrace, heff, hf] at h
      obtain ⟨-, -, -, -, hnone, hgrow⟩ := h
      have hf₁ := (findMemoryItem_moved hmv hrem { item with status := .duringReallocChanged }).trans
        hnone
      have htraces : SMemoryItem.traces { item with status := .duringReallocChanged } =
          item.traces := rfl
      rw [hr, hrr, addNew_throws hf₁ hgrow]
      refine leaves_moved ho ?_ hf hrem htraces _
      exact fun _ _ => rfl
  | allocate ty =>
    simp only [ForgetsBacktrace, heff] at h
    obtain ⟨hraw, hf, hgrow⟩ := h
    obtain ⟨e, he, hcall⟩ := call_allocate ho heff hraw
    rw [hcall]
    exact leaves_allocate ho he hf hgrow rfl

/-- The invariant of the runs. -/
structure Program.Tended (w : Program) : Prop where
  sound : Sound w.st
  guarded : w.st.process = .running → Guarded w.st w.handlerMemory none

theorem Program.Tended.init : Program.init.Tended := ⟨Sound.init, fun _ => Guarded.init⟩

theorem Program.Tended.noneLost (h : w.Tended) : w.NoneLost := by
  intro hrun
  refine (h.guarded hrun).covered.mono (fun _ hz => hz) ?_
  rintro t (hc | hown) -
  · cases hc
  · exact hown

theorem Program.step_running (hrun : w.st.process = .running) :
    w.step l = ⟨(call w.st l.2.2 l.2.1).st,
      (call w.st l.2.2 l.2.1).events.foldl (keepHandlerItem l.1) w.handlerMemory⟩ := if_pos hrun

theorem Program.Tended.step (h : w.Tended) (ha : AnswersFor w l) (hk : KeepsBacktrace w l) :
    (w.step l).Tended := by
  by_cases hrun : w.st.process = .running
  · have ho : w.st.Outermost := ⟨hrun, h.sound.flag⟩
    rw [Program.step_running hrun]
    exact ⟨h.sound.call ho l.2.1, (h.guarded hrun).call ho ha.1 ha.2 (hk hrun)⟩
  · rw [Program.step, if_neg hrun]
    exact h

/-- The forgotten trace is alive, and nobody has it. -/
theorem Program.Tended.lost (h : w.Tended) (hk : ¬ KeepsBacktrace w l) : ¬ (w.step l).NoneLost := by
  unfold KeepsBacktrace at hk
  push Not at hk
  obtain ⟨hrun, hstack, hforgets⟩ := hk
  have ho : w.st.Outermost := ⟨hrun, h.sound.flag⟩
  have hg := h.guarded hrun
  obtain ⟨b, hb⟩ := Option.isSome_iff_exists.mp hstack
  obtain ⟨-, hnext, -⟩ := captured_spec w.st hb
  have hleaves := forgets_leaves ho hforgets
  rw [Program.step_running hrun]
  intro hnone
  have hcovered := hnone hleaves.running w.st.traces.next
  simp only [hleaves.traces, hnext, hleaves.items] at hcovered
  have hown := hcovered (Nat.lt_succ_self _) (by
    simpa [State.capture] using hg.fresh _ (Nat.le_refl _))
  rcases hown with hown | ⟨thread, item, hi, ht⟩
  · have := hg.recordsCreated _ (hleaves.records _ (mem_recordTraces.mpr hown))
    omega
  · have := hg.itemsCreated thread item hi _ ht
    omega

/-- In every run of calls of any threads, every backtrace that was created and not freed belongs to a
record or to a thread after every call, exactly when no call with a captured stack releases or
reallocates an address that the pool takes, or registers a block that cannot be recorded. -/
theorem no_backtrace_lost_iff {ls : List (ℕ × Call × Env)}
    (hV : Runs.Along Program.step AnswersFor .init ls) :
    Runs.Always Program.step Program.NoneLost .init ls ↔
      Runs.Along Program.step KeepsBacktrace .init ls :=
  Runs.always_iff_along (I := Program.Tended) (fun _ h => h.noneLost)
    (fun _ _ h ha hk => h.step ha hk) (fun _ _ h _ hk => h.lost hk) Program.Tended.init hV

/-- A tracked block, two unknown addresses that go to libc, a moved block and a refused second
release. -/
def tendedRun : List (ℕ × Call × Env) :=
  [(0, .alloc 8 .malloc false, .giving 16 [7] .doNotMakeActionToPreventCrash),
    (1, .delete 500 .malloc, .giving 0 [8] .doNotMakeActionToPreventCrash),
    (1, .reAlloc 504 8, { Env.giving 600 [9] .doNotMakeActionToPreventCrash with
      handlerMemory := some (CMemoryItem.default.init 0 .deallocOfNonExistingMemory 500 (some 1)) }),
    (0, .reAlloc 16 24, .giving 32 [10] .doNotMakeActionToPreventCrash),
    (0, .delete 16 .malloc, .giving 0 [11] .doNotMakeActionToPreventCrash)]

theorem no_backtrace_lost_tendedRun :
    Runs.Always Program.step Program.NoneLost .init tendedRun := by
  have hV : Runs.Along Program.step AnswersFor .init tendedRun :=
    ⟨⟨rfl, Nat.le_refl _⟩, ⟨rfl, Nat.le_refl _⟩, ⟨rfl, Nat.le_refl _⟩, ⟨rfl, Nat.le_refl _⟩,
      ⟨rfl, Nat.le_refl _⟩, trivial⟩
  exact (no_backtrace_lost_iff hV).mpr (by decide)

/-- A first call that leaves a trace behind which neither a record nor an item has. -/
theorem not_noneLost_of_empty (hrun : (Program.init.step l).st.process = .running)
    (hnext : (Program.init.step l).st.traces.next = 1)
    (hzero : (Program.init.step l).st.traces.frees 0 = 0)
    (hrec : (Program.init.step l).st.memoryItems = [])
    (hitems : ∀ thread, (Program.init.step l).handlerMemory thread = none) :
    ¬ Runs.Always Program.step Program.NoneLost .init [l] := by
  intro h
  have hlt : 0 < (Program.init.step l).st.traces.next := by
    rw [hnext]
    exact Nat.one_pos
  have hown : (Program.init.step l).Owns 0 := h.final hrun 0 hlt hzero
  rcases hown with ⟨e, he, -⟩ | ⟨thread, item, hi, -⟩
  · rw [hrec] at he
    cases he
  · rw [hitems] at hi
    cases hi

/-- The release of an address that the pool takes. -/
def poolRelease : ℕ × Call × Env :=
  (0, .delete 500 .malloc,
    { Env.giving 0 [8] .doNotMakeActionToPreventCrash with initialDealloc := true })

/-- The realloc of an address that the pool takes. -/
def poolRealloc : ℕ × Call × Env :=
  (0, .reAlloc 500 8,
    { Env.giving 0 [8] .doNotMakeActionToPreventCrash with initialRealloc := some 508 })

/-- The allocation of a block that cannot be recorded. -/
def unrecordedAlloc : ℕ × Call × Env :=
  (0, .alloc 8 .new true,
    { Env.giving 16 [8] .doNotMakeActionToPreventCrash with memoryItem := false })

theorem backtrace_lost_to_pool :
    (Runs.Along Program.step AnswersFor .init [poolRelease] ∧
      ¬ Runs.Always Program.step Program.NoneLost .init [poolRelease]) ∧
    (Runs.Along Program.step AnswersFor .init [poolRealloc] ∧
      ¬ Runs.Always Program.step Program.NoneLost .init [poolRealloc]) ∧
    (Runs.Along Program.step AnswersFor .init [unrecordedAlloc] ∧
      ¬ Runs.Always Program.step Program.NoneLost .init [unrecordedAlloc]) := by
  refine ⟨⟨⟨⟨rfl, Nat.le_refl _⟩, trivial⟩, ?_⟩, ⟨⟨⟨rfl, Nat.le_refl _⟩, trivial⟩, ?_⟩,
    ⟨⟨⟨rfl, Nat.le_refl _⟩, trivial⟩, ?_⟩⟩
  · exact not_noneLost_of_empty rfl rfl rfl rfl fun _ => rfl
  · exact not_noneLost_of_empty rfl rfl rfl rfl fun _ => rfl
  · exact not_noneLost_of_empty rfl rfl rfl rfl fun _ => rfl

end Programs

end CrashInvestigator.Tracker
