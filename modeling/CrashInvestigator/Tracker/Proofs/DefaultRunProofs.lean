import CrashInvestigator.Tracker.Proofs.CallbackProofs
import CrashInvestigator.Tracker.Proofs.BooksProofs

/-!
# Runs under the default callback

The accounting of the tracker, which was proved for callbacks that refuse every action, is carried
over to the default callback, and the tables say what the monitor knows.
-/

namespace CrashInvestigator.Tracker

open Library

/-! ## Calls whose actions are refused -/

/-- What a running process keeps. -/
structure DefaultInv (st : State) : Prop where
  leak : LeakInv st fun _ => 0
  positive : 0 < st.unMaxNumberOfAllocFromTheSameStack
  recorded : Booked st

section Refused

variable {symbols : Addr → StackItem} {st : State} {env : Env} {p : Addr} {ty : MemoryType} {t : ℕ}

/-- A report then holds the frames of its stacks. -/
theorem FindsNames.names (h : FindsNames env) : env.names = convertBacktraceToNames := by
  funext g bt
  cases bt with
  | none => rfl
  | some t => exact if_pos (h t)

theorem failureData_leak (hnames : FindsNames env) (st : State) (item : SMemoryItem) (p : Addr)
    (bt : BacktracePtr) : failureData st env item item.type p 0 .possibilityOfMemoryLeak bt =
      Entry.report ⟨item.type, ⟨convertBacktraceToNames st.traces item.allocTrace⟩, none⟩ env p 0
        .possibilityOfMemoryLeak := by
  unfold failureData
  rw [hnames.names]
  rfl

/-- The other reports are those of the entry, if the analysis trace holds the current stack. -/
theorem failureData_entry (hnames : FindsNames env) {item : SMemoryItem} {bt : BacktracePtr}
    {ft : FailureType} (n : ℕ) (hbt : convertBacktraceToNames st.traces bt = env.frames)
    (hkind : (ft = .doubleFree ∧ item.status ≠ .allocated ∧ n = 0) ∨ (ft = .freeMissmatch ∧ n = 0) ∨
      ft = .badReallocCreatedByWrongAlloc ∨ (ft = .badReallocDeletedMem ∧ item.status ≠ .allocated)) :
    failureData st env item .notProvided p n ft bt =
      (st.traces.entry item).report env p n ft := by
  unfold failureData
  rw [hnames.names]
  rcases hkind with ⟨rfl, hst, rfl⟩ | ⟨rfl, rfl⟩ | rfl | ⟨rfl, hst⟩
  · show FailureData.mk _ _ _ _ _ _ _ _ (convertBacktraceToNames st.traces item.deallocTrace)
      (convertBacktraceToNames st.traces bt) = _
    simp [Entry.report, Entry.stackFree, TraceHeap.entry, hst, hbt]
  · show FailureData.mk _ _ _ _ _ _ _ _ [] (convertBacktraceToNames st.traces bt) = _
    simp [Entry.report, Entry.stackFree, TraceHeap.entry, hbt]
  · show FailureData.mk _ _ _ _ _ _ _ _ [] (convertBacktraceToNames st.traces bt) = _
    simp [Entry.report, Entry.stackFree, TraceHeap.entry, hbt]
  · show FailureData.mk _ _ _ _ _ _ _ _ (convertBacktraceToNames st.traces item.deallocTrace)
      (convertBacktraceToNames st.traces bt) = _
    simp [Entry.report, Entry.stackFree, TraceHeap.entry, hst, hbt]

/-- The report of a registration, if it makes one. -/
theorem reported_addNew (hnames : FindsNames env) (hinv : LeakInv st fun _ => 0)
    (hmax : 0 < st.unMaxNumberOfAllocFromTheSameStack)
    (hlt : t < st.traces.next) (hne : (st.traces.data t).ppBuffer ≠ []) (hgrow : TablesGrow env)
    (href : RefusesActions env)
    (hold : ∀ old, st.findMemoryItem p = some old → old.status ≠ .allocated) (ty : MemoryType) :
    reported (addNewAllocatedMemoryAndCleanOldEntryNoLock st env ty p (some t)).events =
      if st.unMaxNumberOfAllocFromTheSameStack <
          (addNewAllocatedMemoryAndCleanOldEntryNoLock st env ty p (some t)).st.allocatedCount
            (st.traces.data t) then
        [Entry.report ⟨ty, st.traces.data t, none⟩ env p 0 .possibilityOfMemoryLeak]
      else [] := by
  have hiff := addNew_reports p ty rfl hinv hlt hne hgrow href hmax hold
  obtain ⟨st₁, hreg⟩ := registerMemoryItem_isSome st p ⟨ty, .allocated, p, some t, none⟩ hgrow.1
  have hr : addNewAllocatedMemoryAndCleanOldEntryNoLock st env ty p (some t) =
      registerStackItem st₁ env ⟨ty, .allocated, p, some t, none⟩ p (some t) := by
    simp only [addNewAllocatedMemoryAndCleanOldEntryNoLock, hreg]
  obtain ⟨-, -, -, -, -, -, -, hdata⟩ := registerMemoryItem_frame hreg
  rw [hr] at hiff ⊢
  rcases registerStackItem_cases st₁ env ⟨ty, .allocated, p, some t, none⟩ p t with ⟨-, -, hcase⟩ |
    ⟨-, -, hcase⟩ | ⟨e, -, -, hcase⟩ | ⟨e, -, -, hcase⟩ | ⟨e, -, -, -, r, hrr, hcase⟩
  · rw [if_neg (hiff.not.mp (not_reports_of_silent (by simp [hcase]))), hcase]
    rfl
  · rw [if_neg (hiff.not.mp (not_reports_of_silent (by simp [hcase]))), hcase]
    rfl
  · rw [if_neg (hiff.not.mp (not_reports_of_silent (by simp [hcase]))), hcase]
    rfl
  · rw [if_neg (hiff.not.mp (not_reports_of_silent (by simp [hcase]))), hcase]
    rfl
  · have hrep : reported r.events = [Entry.report ⟨ty, st.traces.data t, none⟩ env p 0
        .possibilityOfMemoryLeak] := by
      rw [hrr, reported_initFailure _ _ _ _ _ _ (by simp), failureData_leak hnames]
      show [Entry.report ⟨ty, st₁.traces.data t, none⟩ env p 0 .possibilityOfMemoryLeak] = _
      rw [hdata]
    have hres : reported (registerStackItem st₁ env ⟨ty, .allocated, p, some t, none⟩ p
        (some t)).events = reported r.events := by
      rw [hcase]
      split_ifs <;> rfl
    rw [if_pos, hres, hrep]
    refine hiff.mp ?_
    have hmem : Entry.report ⟨ty, st.traces.data t, none⟩ env p 0 .possibilityOfMemoryLeak ∈
        reported r.events := by
      rw [hrep]
      exact List.mem_singleton_self _
    rw [← hres] at hmem
    obtain ⟨ev, hev, hd⟩ := List.mem_filterMap.mp hmem
    cases ev with
    | clbkFnc d a =>
      cases hd
      exact ⟨_, a, hev, rfl⟩
    | _ => cases hd

/-- The error that the monitor sees is reported; if it sees none, its books are kept. -/
structure Answered (st : State) (c : Call) (env : Env) (r : Res) : Prop where
  reports : reported r.events =
    (st.books.error st.unMaxNumberOfAllocFromTheSameStack c env).toList
  keeps : st.books.error st.unMaxNumberOfAllocFromTheSameStack c env = none →
    r.st.books = st.books.after c env ∧ Booked r.st

theorem Answered.silent {c : Call} {r : Res}
    (herr : st.books.error st.unMaxNumberOfAllocFromTheSameStack c env = none)
    (hrep : reported r.events = []) (hbooks : r.st.books = st.books.after c env) (hrec : Booked r.st) :
    Answered st c env r :=
  ⟨by rw [herr, hrep]; rfl, fun _ => ⟨hbooks, hrec⟩⟩

theorem Answered.report {c : Call} {r : Res} {data : FailureData}
    (herr : st.books.error st.unMaxNumberOfAllocFromTheSameStack c env = some data)
    (hrep : reported r.events = [data]) : Answered st c env r := by
  refine ⟨by rw [herr, hrep]; rfl, ?_⟩
  intro hnone
  rw [herr] at hnone
  cases hnone

/-- The same assumptions for a callback that refuses. -/
structure Refused (st : State) (c : Call × Env) : Prop where
  fresh : RawIssuesFresh st c
  succeeds : RawReallocSucceeds c
  captured : StackCaptured c.2
  grow : TablesGrow c.2
  names : FindsNames c.2
  refuses : RefusesActions c.2
  threshold : SetsPositiveMax c.1

theorem Unconfigured.refused {c : Call} (hc : Unconfigured symbols st (c, env)) :
    Refused st (c, env.refusing) :=
  ⟨hc.fresh, hc.succeeds, hc.captured, hc.grow, hc.names, refusesActions_refusing env,
    hc.threshold⟩

theorem Refused.tracked {c : Call × Env} (hc : Refused st c) (hm : ¬ Mismatching st c.1) :
    Tracked st c :=
  ⟨hc.fresh, hc.succeeds, hc.captured, hc.grow, hc.refuses, hm⟩

/-- Only a release can be of another type. -/
theorem not_mismatching {c : Call} (h : ∀ p t, c.effect ≠ .release p t) : ¬ Mismatching st c := by
  rintro ⟨p, t, item, heff, -⟩
  exact h p t heff

/-- The invariant after a call that is not a release of another type. -/
theorem DefaultInv.leak_call {c : Call} (h : DefaultInv st) (hc : Refused st (c, env))
    (hm : ¬ Mismatching st c) :
    LeakInv (call st env c).st (fun _ => 0) ∧
      0 < (call st env c).st.unMaxNumberOfAllocFromTheSameStack := by
  have hstep := LeakInv.step_positive ⟨h.leak, h.positive⟩ ⟨hc.tracked hm, hc.threshold⟩
  rw [step_eq h.leak.outermost] at hstep
  exact hstep

/-- A call that registers a block. -/
theorem DefaultInv.answered_register {c : Call} (h : DefaultInv st)
    (hc : Refused st (c, env)) (hm : ¬ Mismatching st c) {st' : State}
    (hreg : Registers st c env (fun _ => 0) st' ty t)
    (hbooks : (call st env c).st.books = st.books.after c env)
    (hrec : Booked (call st env c).st)
    (herr : st.books.error st.unMaxNumberOfAllocFromTheSameStack c env =
      (st.books.after c env).leak st.unMaxNumberOfAllocFromTheSameStack ty env) :
    Answered st c env (call st env c) := by
  refine ⟨?_, fun _ => ⟨hbooks, hrec⟩⟩
  have hstack : env.stack.getD ⟨[]⟩ = st'.traces.data t := by
    rw [show env.stack = some (st'.traces.data t) from hreg.stack]
    rfl
  have hcount : (addNewAllocatedMemoryAndCleanOldEntryNoLock st' env ty env.raw
      (some t)).st.allocatedCount (st'.traces.data t) =
        (st.books.after c env).count (env.stack.getD ⟨[]⟩) := by
    rw [← hreg.call_st, ← hbooks, hstack, count_books hrec (h.leak_call hc hm).1.accounted]
  have hmax : 0 < st'.unMaxNumberOfAllocFromTheSameStack := by
    rw [hreg.threshold]
    exact h.positive
  have hrep := reported_addNew hc.names hreg.inv hmax hreg.lt hreg.nonempty hc.grow
    hc.refuses hreg.old ty
  rw [hcount, hreg.threshold] at hrep
  obtain ⟨e, he, hcall⟩ := hreg.result
  rw [herr, hcall]
  show reported (e :: _) = _
  rw [reported_cons he, hrep]
  unfold Books.leak
  rw [hstack]
  split_ifs
  · rfl
  · rfl

theorem DefaultInv.answered_allocate {c : Call} (h : DefaultInv st)
    (hc : Refused st (c, env)) (heff : c.effect = .allocate ty) :
    Answered st c env (call st env c) := by
  have hm : ¬ Mismatching st c := not_mismatching (by simp [heff])
  by_cases hraw : env.raw = 0
  · obtain ⟨hst, hev⟩ : (call st env c).st = st ∧ _ :=
      call_allocate_null h.leak.outermost heff hraw
    refine Answered.silent (by simp [Books.error, heff, hraw]) ?_ ?_ (by rw [hst]; exact h.recorded)
    · refine List.filterMap_eq_nil_iff.mpr fun e he => ?_
      cases e with
      | clbkFnc d a => cases hev _ he
      | _ => rfl
    · rw [hst]
      simp [Books.after, heff, hraw]
  · obtain ⟨st', t, hreg⟩ := h.leak.registers_allocate (hc.tracked hm) heff hraw
    obtain ⟨s, hs, -⟩ := hc.captured
    have hs' : env.stack = some s := hs
    obtain ⟨hcap, -, hdata⟩ := captured_spec st hs'
    have hst := call_allocate_st h.leak.outermost heff hraw
    have hx : ((st.mallocn env.raw).capture env).traces.Extends st.traces := by
      have hx' := capture_extends (st.mallocn env.raw) env
      rw [mallocn_traces] at hx'
      exact hx'
    have hmem : ((st.mallocn env.raw).capture env).memoryItems = st.memoryItems := by simp
    obtain ⟨hbooks₁, hrec₁⟩ := books_same h.recorded hmem hx
    have hbt : ((st.mallocn env.raw).capture env).traces.Created (st.captured env) := by
      have hcreated := captured_created (st.mallocn env.raw) env
      rw [captured_mallocn] at hcreated
      exact hcreated
    obtain ⟨hbooks, hrec⟩ := books_addNew hrec₁ hc.grow.1 ty env.raw hbt
    refine h.answered_register hc hm hreg ?_ ?_ ?_
    · rw [hst]
      refine hbooks.trans ?_
      have hframes : convertBacktraceToNames ((st.mallocn env.raw).capture env).traces (st.captured env) =
          s.ppBuffer := by
        rw [hcap]
        show (((st.mallocn env.raw).capture env).traces.data st.traces.next).ppBuffer = _
        rw [← hdata]
        simp [State.capture]
      rw [hbooks₁, hframes]
      simp [Books.after, heff, hraw, hs']
    · rw [hst]
      exact hrec
    · simp [Books.error, heff, hraw]

theorem books_of_find {item : SMemoryItem} (hf : st.findMemoryItem p = some item) :
    st.books p = some (st.traces.entry item) := by
  show (st.findMemoryItem p).map _ = _
  rw [hf]
  rfl

theorem books_of_find_none (hf : st.findMemoryItem p = none) : st.books p = none := by
  show (st.findMemoryItem p).map _ = _
  rw [hf]
  rfl

theorem released_isSome {item : SMemoryItem} :
    (st.traces.entry item).released.isSome ↔ item.status ≠ .allocated := by
  simp only [TraceHeap.entry]
  split_ifs with hst
  · simp [hst]
  · simp [hst]

/-- A call that captures a stack and leaves the records as they are. -/
theorem DefaultInv.keeps_of_capture (h : DefaultInv st) (env : Env) {st' : State}
    (hmem : st'.memoryItems = st.memoryItems) (hx : st'.traces.Extends (st.capture env).traces) :
    st'.books = st.books ∧ Booked st' :=
  books_same h.recorded hmem (hx.trans (capture_extends st env))

theorem extends_free (h : TraceHeap) (bt : BacktracePtr) : (freeBacktraceData h bt).Extends h :=
  extends_of_eq (freeBacktraceData_next h bt) (freeBacktraceData_data h bt)

theorem entry_capture (h : DefaultInv st) (env : Env) {item : SMemoryItem}
    (hf : st.findMemoryItem p = some item) :
    (st.capture env).traces.entry item = st.traces.entry item :=
  entry_extend (h.recorded.traces p item hf) (capture_extends st env)

/-- The record of an address is replaced after the capture of a stack. -/
theorem DefaultInv.books_replaced (h : DefaultInv st) {st₁ : State} {item item' : SMemoryItem}
    (hf : st.findMemoryItem p = some item) (hmem : st₁.memoryItems = st.memoryItems)
    (htraces : st₁.traces = (st.capture env).traces)
    (hitem : (st.capture env).traces.HasTraces item') :
    (st₁.setMemoryItem p item').books =
        Function.update st.books p (some ((st.capture env).traces.entry item')) ∧
      Booked (st₁.setMemoryItem p item') := by
  have hsome : (st₁.findMemoryItem p).isSome := by
    rw [findMemoryItem_congr hmem, hf]
    rfl
  have hx : (st₁.setMemoryItem p item').traces.Extends st.traces := by
    show st₁.traces.Extends st.traces
    rw [htraces]
    exact capture_extends st env
  have hfind : ∀ q, (st₁.setMemoryItem p item').findMemoryItem q =
      if q = p then some item' else st.findMemoryItem q := by
    intro q
    rw [findMemoryItem_setMemoryItem _ _ _ hsome, findMemoryItem_congr hmem]
  have hkeys : ((st₁.setMemoryItem p item').memoryItems.map Prod.fst).Nodup := by
    rw [keys_setMemoryItem, hmem]
    exact h.recorded.keys
  have hitem' : (st₁.setMemoryItem p item').traces.HasTraces item' := by
    show st₁.traces.HasTraces item'
    rw [htraces]
    exact hitem
  obtain ⟨hbooks, hrec⟩ := books_put h.recorded hx hfind hkeys hitem'
  refine ⟨?_, hrec⟩
  rw [hbooks]
  show Function.update st.books p (some (st₁.traces.entry item')) = _
  rw [htraces]

theorem DefaultInv.answered_release {c : Call} (h : DefaultInv st) (hc : Refused st (c, env))
    (heff : c.effect = .release p ty) : Answered st c env (call st env c) := by
  rw [call_release h.leak.outermost heff]
  rcases testOperatorDelete_cases env h.leak.outermost (release_ne_zero heff).1 ty with
    ⟨hf, hr⟩ | ⟨item, hf, hst, hr⟩ | ⟨item, pr, hf, hst, hrem, -⟩ | ⟨item, st₁, hf, hst, hrem, ht, hr⟩ |
    ⟨item, st₁, hf, hst, hrem, ht, hr⟩
  · rw [hr]
    have hnone := books_of_find_none hf
    have hsame : st.books.after c env = st.books := by
      simp only [Books.after, heff, Books.release, hnone, Option.map_none]
      rw [← hnone]
      exact Function.update_eq_self p st.books
    have hrecords : (deleteUntracked (st.capture env) env p (st.captured env)).st.books = st.books ∧
        Booked (deleteUntracked (st.capture env) env p (st.captured env)).st := by
      unfold deleteUntracked
      split_ifs
      · exact h.keeps_of_capture env rfl (extends_of_eq rfl rfl)
      · exact h.keeps_of_capture env (by simp) (by simpa using extends_free _ _)
    refine Answered.silent (by simp [Books.error, heff, hnone]) ?_ ?_ hrecords.2
    · simp only [deleteUntracked]
      split_ifs
      · rfl
      · rfl
    · rw [hsame]
      exact hrecords.1
  · rw [hr]
    refine Answered.report ?_ (reported_initFailure _ _ _ _ _ _ (by simp) _)
    rw [failureData_entry hc.names 0 (captured_names rfl) (Or.inl ⟨rfl, hst, rfl⟩),
      entry_capture h env hf]
    simp only [Books.error, heff, books_of_find hf, Option.bind_some]
    rw [if_pos (released_isSome.mpr hst)]
  · exfalso
    rcases (h.leak.capture env).removal hf hst with ⟨st₁, hok⟩ | ⟨-, s, hs⟩
    · rw [hok] at hrem
      cases hrem
    · omega
  · rw [hr]
    refine Answered.report ?_ (reported_initFailure _ _ _ _ _ _ (by simp) _)
    have htraces : st₁.traces = (st.capture env).traces := by
      rw [removeCorrespondingTrace_frame hrem]
    have hbt : convertBacktraceToNames st₁.traces (st.captured env) = env.frames := by
      rw [htraces]
      exact captured_names rfl
    rw [failureData_entry hc.names 0 hbt (Or.inr (Or.inl ⟨rfl, rfl⟩)), htraces,
      entry_capture h env hf]
    simp only [Books.error, heff, books_of_find hf, Option.bind_some]
    have htype : (st.traces.entry item).type ≠ ty := ht
    rw [if_neg (released_isSome.not.mpr (by simp [hst])), if_pos htype]
  · rw [hr]
    have htraces : st₁.traces = (st.capture env).traces := by
      rw [removeCorrespondingTrace_frame hrem]
    have hmem : st₁.memoryItems = st.memoryItems := by
      rw [removeCorrespondingTrace_frame hrem]
      rfl
    have hitem : (st.capture env).traces.HasTraces
        { item with status := .deallocated, deallocTrace := st.captured env } :=
      ⟨(capture_extends st env).created (h.recorded.traces p item hf).alloc, captured_created st env,
        fun hst' => by cases hst'⟩
    obtain ⟨hbooks, hrec⟩ := h.books_replaced hf hmem htraces hitem
    obtain ⟨hbooks', hrec'⟩ := books_same hrec (freen_memoryItems _ _)
      (extends_of_eq (by simp) (by simp))
    have herr : st.books.error st.unMaxNumberOfAllocFromTheSameStack c env = none := by
      have htype : ¬ (st.traces.entry item).type ≠ ty := not_not_intro ht
      simp only [Books.error, heff, books_of_find hf, Option.bind_some]
      rw [if_neg (released_isSome.not.mpr (by simp [hst])), if_neg htype]
    refine Answered.silent herr rfl ?_ hrec'
    rw [hbooks', hbooks]
    have hframes : convertBacktraceToNames (st.capture env).traces (st.captured env) = env.frames :=
      captured_names rfl
    have halloc := (capture_extends st env).names (h.recorded.traces p item hf).alloc
    simp [Books.after, heff, Books.release, books_of_find hf, TraceHeap.entry, hframes, halloc]

theorem DefaultInv.answered_move {c : Call} (h : DefaultInv st) (hc : Refused st (c, env)) {n : ℕ}
    (heff : c.effect = .move p n) : Answered st c env (call st env c) := by
  obtain ⟨-, hp, hn⟩ := move_ne_zero heff
  have hm : ¬ Mismatching st c := not_mismatching (by simp [heff])
  rcases testOperatorReAlloc_cases env h.leak.outermost hp hn with ⟨hf, hr⟩ | ⟨item, hf, hty, hr⟩ |
    ⟨item, hf, hty, hst, hr⟩ | ⟨item, hf, hty, hst, hkeep, hr⟩ | ⟨item, pr, hf, hty, hst, hmv, hrem, -⟩ |
    ⟨item, st₁, r, hf, hty, hst, hmv, hrem, hrr, hr⟩
  · rw [call_move heff, hr]
    have hnone := books_of_find_none hf
    have hrecords : (reAllocUntracked (st.capture env) env p n (st.captured env)).st.books = st.books ∧
        Booked (reAllocUntracked (st.capture env) env p n (st.captured env)).st := by
      unfold reAllocUntracked
      cases env.initialRealloc with
      | some q => exact h.keeps_of_capture env rfl (extends_of_eq rfl rfl)
      | none => exact h.keeps_of_capture env (by simp) (by simpa using extends_free _ _)
    refine Answered.silent (by simp [Books.error, heff, hnone]) ?_ ?_ hrecords.2
    · unfold reAllocUntracked
      cases env.initialRealloc with
      | some q => rfl
      | none => rfl
    · rw [hrecords.1]
      simp [Books.after, heff, hnone]
  · rw [call_move heff, hr]
    refine Answered.report ?_ (reported_initFailure _ _ _ _ _ _ (by simp) _)
    rw [failureData_entry hc.names n (captured_names rfl) (Or.inr (Or.inr (Or.inl rfl))),
      entry_capture h env hf]
    have htype : (st.traces.entry item).type ≠ .malloc := hty
    simp only [Books.error, heff, books_of_find hf, Option.bind_some]
    rw [if_pos htype]
  · rw [call_move heff, hr]
    refine Answered.report ?_ (reported_initFailure _ _ _ _ _ _ (by simp) _)
    rw [failureData_entry hc.names n (captured_names rfl) (Or.inr (Or.inr (Or.inr ⟨rfl, hst⟩))),
      entry_capture h env hf]
    have htype : ¬ (st.traces.entry item).type ≠ .malloc := not_not_intro hty
    simp only [Books.error, heff, books_of_find hf, Option.bind_some]
    rw [if_neg htype, if_pos (released_isSome.mpr hst)]
  · rw [call_move heff, hr]
    have htype : ¬ (st.traces.entry item).type ≠ .malloc := not_not_intro hty
    have hallocated : ¬ (st.traces.entry item).released.isSome :=
      released_isSome.not.mpr (not_not_intro hst)
    have herr : st.books.error st.unMaxNumberOfAllocFromTheSameStack c env = none := by
      simp only [Books.error, heff, books_of_find hf, Option.bind_some]
      rw [if_neg htype, if_neg hallocated, if_pos hkeep]
    have hx := extends_free (st.capture env).traces (st.captured env)
    have hmem : ({ (st.capture env).reallocn item.realAddress env.raw with
        traces := freeBacktraceData (st.capture env).traces (st.captured env) } : State).memoryItems =
          st.memoryItems := by
      simp
    obtain ⟨hbooks, hrec⟩ := h.keeps_of_capture env hmem hx
    refine Answered.silent herr rfl ?_ hrec
    rw [hbooks]
    simp [Books.after, heff, hkeep]
  · exfalso
    rw [reallocn_eq, removeCorrespondingTrace_live] at hrem
    rcases (h.leak.capture env).removal hf hst with ⟨st₁, hok⟩ | ⟨-, s, hs⟩
    · rw [hok] at hrem
      cases hrem
    · omega
  · have hregisters := (registersBlock_move heff).mpr ⟨item, hf, hty, hst, hmv⟩
    obtain ⟨st', t, hreg⟩ := h.leak.registers_of_move (hc.tracked hm) heff hregisters
    have htraces : st₁.traces = (st.capture env).traces := by
      rw [removeCorrespondingTrace_frame hrem]
      simp
    have hmem : st₁.memoryItems = st.memoryItems := by
      rw [removeCorrespondingTrace_frame hrem]
      simp
    have hold := h.recorded.traces p item hf
    have hitem : (st.capture env).traces.HasTraces { item with status := .duringReallocChanged } :=
      ⟨(capture_extends st env).created hold.alloc, (capture_extends st env).created hold.dealloc,
        fun _ => hold.unreleased hst⟩
    obtain ⟨hbooks₁, hrec₁⟩ := h.books_replaced hf hmem htraces hitem
    have hbt : (st₁.setMemoryItem p { item with status := .duringReallocChanged }).traces.Created
        (st.captured env) := by
      show st₁.traces.Created _
      rw [htraces]
      exact captured_created st env
    obtain ⟨hbooks, hrec⟩ := books_addNew hrec₁ hc.grow.1 .malloc env.raw hbt
    have hst' : (call st env c).st = r.st := by
      rw [call_move heff, hr]
    rw [← hrr] at hbooks hrec
    have htype : ¬ (st.traces.entry item).type ≠ .malloc := not_not_intro hty
    have hallocated : ¬ (st.traces.entry item).released.isSome :=
      released_isSome.not.mpr (not_not_intro hst)
    refine h.answered_register hc hm hreg ?_ (by rw [hst']; exact hrec) ?_
    · have hstack : (⟨convertBacktraceToNames (st₁.setMemoryItem p { item with
          status := .duringReallocChanged }).traces (st.captured env)⟩ : Backtrace) =
            env.stack.getD ⟨[]⟩ := by
        show (⟨convertBacktraceToNames st₁.traces _⟩ : Backtrace) = _
        rw [htraces, captured_names rfl]
        obtain ⟨s, hs, -⟩ := hc.captured
        have hs' : env.stack = some s := hs
        simp [Env.frames, hs']
      have hentry : (st.capture env).traces.entry { item with status := .duringReallocChanged } =
          { st.traces.entry item with released := some [] } := by
        have halloc := (capture_extends st env).names hold.alloc
        simp only [TraceHeap.entry, MemoryStatus.duringReallocChanged, halloc, hold.unreleased hst]
        rfl
      rw [hst', hbooks, hbooks₁, hstack, hentry]
      simp [Books.after, heff, Books.release, books_of_find hf, hmv]
    · simp only [Books.error, heff, books_of_find hf, Option.bind_some]
      rw [if_neg htype, if_neg hallocated, if_neg hmv]

/-- A call whose actions are refused reports the error that the monitor sees, and nothing else. -/
theorem DefaultInv.answered {c : Call} (h : DefaultInv st) (hc : Refused st (c, env)) :
    Answered st c env (call st env c) := by
  cases heff : c.effect with
  | nothing =>
    obtain ⟨hst, hev⟩ : (call st env c).st = st ∧ (call st env c).events = [] :=
      call_nothing h.leak.outermost heff
    refine Answered.silent (by simp [Books.error, heff]) (by rw [hev]; rfl) ?_ (by rw [hst]; exact h.recorded)
    rw [hst]
    simp [Books.after, heff]
  | setMax m =>
    obtain ⟨hst, hev⟩ : (call st env c).st = { st with unMaxNumberOfAllocFromTheSameStack := m } ∧
        (call st env c).events = [] := call_setMax heff
    refine Answered.silent (by simp [Books.error, heff]) (by rw [hev]; rfl) ?_ ?_
    · rw [hst]
      simp only [Books.after, heff]
      rfl
    · rw [hst]
      exact ⟨h.recorded.keys, h.recorded.traces⟩
  | allocate ty => exact h.answered_allocate hc heff
  | release p ty => exact h.answered_release hc heff
  | move p n => exact h.answered_move hc heff

/-- The monitor knows every error that it sees. -/
theorem error_known {b : Books} {max : ℕ} {c : Call} {data : FailureData}
    (h : b.error max c env = some data) : data.failureType ≠ .unknown := by
  have hleak : ∀ (b : Books) ty, b.leak max ty env = some data → data.failureType ≠ .unknown := by
    intro b ty hl
    unfold Books.leak at hl
    split_ifs at hl
    cases hl
    simp [Entry.report]
  cases heff : c.effect with
  | nothing => simp [Books.error, heff] at h
  | setMax m => simp [Books.error, heff] at h
  | allocate ty =>
    simp only [Books.error, heff] at h
    split_ifs at h
    exact hleak _ _ h
  | release p ty =>
    simp only [Books.error, heff] at h
    obtain ⟨e, -, he⟩ := Option.bind_eq_some_iff.mp h
    split_ifs at he
    · cases he
      simp [Entry.report]
    · cases he
      simp [Entry.report]
  | move p n =>
    simp only [Books.error, heff] at h
    obtain ⟨e, -, he⟩ := Option.bind_eq_some_iff.mp h
    split_ifs at he
    · cases he
      simp [Entry.report]
    · cases he
      simp [Entry.report]
    · exact hleak _ _ he

/-- A release of another type is an error. -/
theorem not_mismatching_of_error_none {c : Call} {max : ℕ}
    (herr : st.books.error max c env = none) : ¬ Mismatching st c := by
  rintro ⟨p, t, item, heff, hf, hst, hty⟩
  have htype : (st.traces.entry item).type ≠ t := hty
  simp only [Books.error, heff, books_of_find hf, Option.bind_some] at herr
  rw [if_neg (released_isSome.not.mpr (not_not_intro hst)), if_pos htype] at herr
  cases herr

/-- The monitor does not look at the callback. -/
theorem error_refusing (b : Books) (max : ℕ) (c : Call) (env : Env) :
    b.error max c env.refusing = b.error max c env := rfl

theorem after_refusing (b : Books) (c : Call) (env : Env) :
    b.after c env.refusing = b.after c env := rfl

/-- A call without an error keeps the invariant. -/
theorem DefaultInv.call {c : Call} (h : DefaultInv st) (hc : Refused st (c, env))
    (herr : st.books.error st.unMaxNumberOfAllocFromTheSameStack c env = none) :
    DefaultInv (call st env c).st ∧ (call st env c).st.books = st.books.after c env ∧
      (call st env c).st.unMaxNumberOfAllocFromTheSameStack =
        c.nextMax st.unMaxNumberOfAllocFromTheSameStack := by
  obtain ⟨hbooks, hrec⟩ := (h.answered hc).keeps herr
  obtain ⟨hinv, hpos⟩ := h.leak_call hc (not_mismatching_of_error_none herr)
  refine ⟨⟨hinv, hpos, hrec⟩, hbooks, ?_⟩
  by_cases hset : ∃ n, c.effect = .setMax n
  · obtain ⟨n, hn⟩ := hset
    rw [(call_setMax hn).1]
    simp [Call.nextMax, hn]
  · have hother : ∀ n, c.effect ≠ .setMax n := fun n hn => hset ⟨n, hn⟩
    rw [call_threshold h.leak.outermost hother]
    unfold Call.nextMax
    split
    · exact absurd ‹_› (hother _)
    · rfl

end Refused

/-! ## Runs -/

/-- The tracker and the monitor agree about the tables, or both have seen the first error. -/
inductive Followed : Monitored → Prop
  | running {st : State} (inv : DefaultInv st) :
    Followed ⟨st, [], ⟨st.books, st.unMaxNumberOfAllocFromTheSameStack, none⟩⟩
  | finished {st : State} {books : Books} {max : ℕ} {data : FailureData}
    (exited : st.process = .exited 1) (known : data.failureType ≠ .unknown) :
    Followed ⟨st, [data], ⟨books, max, some data⟩⟩

theorem Followed.obeys {w : Monitored} (h : Followed w) : Obeys w := by
  cases h with
  | running inv => exact ⟨inv.leak.outermost.1, rfl⟩
  | finished exited known => exact ⟨exited, rfl⟩

theorem Followed.init : Followed .init := by
  have hrec : Booked .init := ⟨List.nodup_nil, fun p item hf => by cases hf⟩
  exact Followed.running ⟨LeakInv.init, by decide, hrec⟩

theorem Followed.step {symbols : Addr → StackItem} {w : Monitored} {c : Call × Env} (h : Followed w)
    (hc : w.st.process = .running → Unconfigured symbols w.st c) : Followed (w.step c) := by
  obtain ⟨c, env⟩ := c
  cases h with
  | @finished st books max data exited known =>
    have hw : Monitored.step ⟨st, [data], ⟨books, max, some data⟩⟩ (c, env) =
        ⟨st, [data], ⟨books, max, some data⟩⟩ := by
      simp [Monitored.step, Tracker.step, Monitor.step, exited]
    rw [hw]
    exact Followed.finished exited known
  | @running st inv =>
    have ho := inv.leak.outermost
    have hc' : Unconfigured symbols st (c, env) := hc ho.1
    have hrep := (inv.answered hc'.refused).reports
    rw [error_refusing] at hrep
    have hstep : Tracker.step st (c, env) = (Tracker.call st env c).st := step_eq ho
    rcases call_sameUntilReport hc'.callback ho c with ⟨hnil, hsame⟩ | ⟨data, hr, hr', hexit⟩
    · have herr : st.books.error st.unMaxNumberOfAllocFromTheSameStack c env = none := by
        rw [show reported (Tracker.call st env.refusing c).events = [] from hnil] at hrep
        exact Option.toList_eq_nil_iff.mp hrep.symm
      obtain ⟨hinv, hbooks, hmax⟩ := inv.call hc'.refused herr
      have hsame' : Tracker.call st env c = Tracker.call st env.refusing c := hsame
      have hnil' : reported (Tracker.call st env.refusing c).events = [] := hnil
      rw [after_refusing] at hbooks
      have hw : Monitored.step ⟨st, [], ⟨st.books, st.unMaxNumberOfAllocFromTheSameStack, none⟩⟩ (c, env) =
          ⟨(Tracker.call st env.refusing c).st, [], ⟨(Tracker.call st env.refusing c).st.books,
            (Tracker.call st env.refusing c).st.unMaxNumberOfAllocFromTheSameStack, none⟩⟩ := by
        simp [Monitored.step, Monitor.step, hstep, ho.1, hnil', herr, hsame', hbooks, hmax]
      rw [hw]
      exact Followed.running hinv
    · have herr : st.books.error st.unMaxNumberOfAllocFromTheSameStack c env = some data := by
        rw [show reported (Tracker.call st env.refusing c).events = [data] from hr] at hrep
        exact Option.toList_eq_singleton_iff.mp hrep.symm
      have hw : Monitored.step ⟨st, [], ⟨st.books, st.unMaxNumberOfAllocFromTheSameStack, none⟩⟩ (c, env) =
          ⟨(Tracker.call st env c).st, [data], ⟨st.books, st.unMaxNumberOfAllocFromTheSameStack,
            some data⟩⟩ := by
        have hr'' : reported (Tracker.call st env c).events = [data] := hr'
        simp [Monitored.step, Monitor.step, hstep, ho.1, hr'', herr]
      rw [hw]
      exact Followed.finished hexit (error_known herr)

/-- What an environment decides when every request of the tool succeeds and the callback is the default
one. -/
def Env.unconfigured (symbols : Addr → StackItem) (raw : Addr) (frames : List ℕ) : Env :=
  { Env.giving raw frames .exitApp with clbkFnc := fun data => (defaultFailureClbk symbols data).2 }

theorem unconfigured_giving {symbols : Addr → StackItem} {st : State} {c : Call} {raw : Addr}
    {frames : List ℕ} (hraw : raw ≠ 0) (hlive : raw ∉ st.live) (hframes : frames ≠ [])
    (hmax : ∀ n, c.effect ≠ .setMax n) :
    Unconfigured symbols st (c, .unconfigured symbols raw frames) :=
  ⟨rfl, Or.inr (Or.inl hlive), fun _ _ _ => hraw, ⟨⟨frames⟩, rfl, hframes⟩, ⟨rfl, rfl⟩,
    fun _ => rfl, fun n hn => absurd hn (hmax n)⟩

/-- The tracker and the monitor of a default run agree after every call. -/
theorem followed_run {symbols : Addr → StackItem} {cs : List (Call × Env)}
    (h : Runs.Along Monitored.step
      (fun w c => w.st.process = .running → Unconfigured symbols w.st c) .init cs) :
    Runs.Always Monitored.step Followed .init cs :=
  Runs.always_of_invariant (I := Followed) (fun _ _ hw hc => hw.step hc) Followed.init h

/-- Frames without names. -/
def noNames : Addr → StackItem := fun _ => ⟨[], [], [], 0⟩

/-- A block that is released twice, and a call that no longer runs. -/
def twiceReleasedRun : List (Call × Env) :=
  [(.alloc 8 .new false, .unconfigured noNames 16 [7]),
    (.delete 16 .new, .unconfigured noNames 32 [8]),
    (.delete 16 .new, .unconfigured noNames 32 [9]),
    (.alloc 8 .new false, .unconfigured noNames 32 [7])]

theorem twiceReleasedRun_unconfigured : Runs.Along Monitored.step
    (fun w c => w.st.process = .running → Unconfigured noNames w.st c) .init twiceReleasedRun := by
  have hmax : ∀ (c : Call) (n : ℕ), c = .alloc 8 .new false ∨ c = .delete 16 .new →
      c.effect ≠ .setMax n := by
    rintro c n (rfl | rfl)
    · simp [Call.effect]
    · simp [Call.effect]
  refine ⟨fun _ => ?_, fun _ => ?_, fun _ => ?_, fun _ => ?_, trivial⟩
  · exact unconfigured_giving (by simp) (by decide) (by simp) fun n => hmax _ n (Or.inl rfl)
  · exact unconfigured_giving (by simp) (by decide) (by simp) fun n => hmax _ n (Or.inr rfl)
  · exact unconfigured_giving (by simp) (by decide) (by simp) fun n => hmax _ n (Or.inr rfl)
  · exact unconfigured_giving (by simp) (by decide) (by simp) fun n => hmax _ n (Or.inl rfl)

end CrashInvestigator.Tracker
