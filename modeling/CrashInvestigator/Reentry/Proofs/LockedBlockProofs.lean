import CrashInvestigator.Tracker.Proofs.AccountingProofs
import CrashInvestigator.Reentry.Proofs.PartProofs

/-!
# The locked blocks

What `TestOperatorDelete` and `TestOperatorReAlloc` do between the capture of the stack and the end
of the lock's scope, as the tracker does it.
-/

namespace CrashInvestigator.Reentry

open Library Library.Reentrant
open Tracker (Addr Backtrace BacktracePtr MemoryType SMemoryItem FailureAction FailureType)

variable {s : State} {st st₁ : Tracker.State} {locked : Bool}

/-! ## Releases -/

theorem removeCorrespondingTrace_inside (bt : BacktracePtr) :
    Tracker.removeCorrespondingTrace (s.inside st locked).tables bt =
      (Tracker.removeCorrespondingTrace st bt).map fun st₁ => (s.inside st₁ locked).tables := by
  cases bt with
  | none => rfl
  | some t =>
    have hfind : (s.inside st locked).tables.findStackItem t = st.findStackItem t := rfl
    have hndebug : (s.inside st locked).tables.ndebug = st.ndebug := rfl
    unfold Tracker.removeCorrespondingTrace
    simp only [hfind, hndebug]
    cases st.findStackItem t with
    | none => rfl
    | some e =>
      dsimp only
      split_ifs
      all_goals rfl

theorem removeCorrespondingTrace_ends (hs : Inited s) (bt : BacktracePtr)
    {Q : Option Unit → State → Prop}
    (h : ∀ st₁, Frame st st₁ → Tracker.removeCorrespondingTrace st bt = .ok st₁ →
      Q (some ()) (s.inside st₁ locked)) :
    Ends (removeCorrespondingTrace bt) Q (s.inside st locked) := by
  apply Prog.wp_read.mpr
  rw [removeCorrespondingTrace_inside]
  cases hrem : Tracker.removeCorrespondingTrace st bt with
  | error pr => trivial
  | ok st₁ =>
    have hframe : Frame st st₁ := by
      rw [Tracker.removeCorrespondingTrace_frame hrem]
      exact ⟨rfl, rfl⟩
    have hQ : Q (some ()) (s.inside st₁ locked) := h st₁ hframe hrem
    show Ends (if st₁.stackItems.length < st.stackItems.length then _ else _) Q
      (s.inside st₁ locked)
    split_ifs
    · exact freen_ends hs.inside hQ
    · exact hQ

/-- The tracker state when the thread's note `item` has been written over. -/
def noted (st : Tracker.State) (item : Option Tracker.CMemoryItem) : Tracker.State :=
  { st with traces := Tracker.freeBacktraceData st.traces (item.getD .default).deallocTrace }

theorem initHandlerMemory_ends (hs : Inited s) {Q : Option Unit → State → Prop}
    (h : ∀ item, Q (some ()) (s.inside (noted st item) locked)) :
    Ends initHandlerMemory Q (s.inside st locked) := by
  refine Ends.bind (outside_ends fun w => ?_)
  cases hw : w.handlerMemory with
  | some item =>
    simp only [andThen, hw]
    exact freeBacktraceData_ends hs _ (h (some item))
  | none =>
    simp only [andThen, hw]
    exact Ends.bind (mallocn_ends hs.inside fun _ => Ends.bind (outside_ends fun _ => h none))

theorem deleteUntracked_ends (hs : Inited s) (p : Addr) {Q : Option Unit → State → Prop}
    (haccepted : Q (some ()) (s.inside st locked))
    (hleft : ∀ item, Q (some ()) (s.inside (noted st item) locked)) :
    Ends (deleteUntracked p) Q (s.inside st locked) := by
  intro w
  show Ends (if w.accepted then _ else _) Q _
  split_ifs
  · exact haccepted
  · refine Ends.bind (initHandlerMemory_ends hs fun item => ?_)
    exact Ends.bind (outside_ends fun _ => hleft item)

/-- Nothing succeeds. -/
def noAnswers : Tracker.Env where
  raw := 0
  stack := none
  memoryItem := false
  stackItem := false
  clbkFnc := fun _ => .exitApp
  userData := 0
  initialDealloc := false
  initialRealloc := none
  handlerMemory := none
  inScopeCleanerRuns := 0

/-- The answers in a call that asks for `stack`, a raw block, two items and a decision. -/
def answers (stack : Option Backtrace) (raw : Addr) (memoryItem stackItem : Bool)
    (action : FailureAction) (runs : ℕ) : Tracker.Env :=
  { noAnswers with
    stack, raw, memoryItem, stackItem, clbkFnc := fun _ => action, inScopeCleanerRuns := runs }

theorem answers_fits (stack : Option Backtrace) (raw : Addr) (memoryItem stackItem : Bool)
    (action : FailureAction) (runs : ℕ) :
    Fits (answers stack raw memoryItem stackItem action runs) memoryItem stackItem action runs :=
  ⟨rfl, rfl, fun _ => rfl, rfl⟩

/-- The locked block, after the capture of `stack`. -/
theorem deleteLocked_ends (hs : Inited s) (ho : st.Outermost) {p : Addr} (hp : p ≠ 0)
    (type : MemoryType) (stack : Option Backtrace) {Q : Option (Option Addr) → State → Prop}
    (h : ∀ r st₁ env locked, Frame st st₁ →
      Gives (Tracker.testOperatorDelete st env p type) (.returns 0) st₁ →
      Q (some r) (s.inside st₁ locked)) :
    Ends (deleteLocked p type (Tracker.initBacktraceDataForCurrentStack st.traces stack).2) Q
      (s.inside { st with
        traces := (Tracker.initBacktraceDataForCurrentStack st.traces stack).1 } true) := by
  have hbody := fun env => Tracker.testOperatorDelete_body env ho hp type
  simp only [hbody] at h
  set bt := (Tracker.initBacktraceDataForCurrentStack st.traces stack).2 with hbt
  set st₀ : Tracker.State :=
    { st with traces := (Tracker.initBacktraceDataForCurrentStack st.traces stack).1 } with hst₀
  have hcap : ∀ env : Tracker.Env, env.stack = stack →
      st.capture env = st₀ ∧ st.captured env = bt := by
    rintro env rfl
    exact ⟨rfl, rfl⟩
  apply Prog.wp_read.mpr
  have hfind : (s.inside st₀ true).tables.findMemoryItem p = st₀.findMemoryItem p := rfl
  rw [hfind]
  cases hf : st₀.findMemoryItem p with
  | none =>
    show Ends (deleteUntracked p >>= fun _ => pure none) Q (s.inside st₀ false)
    refine Ends.bind (deleteUntracked_ends hs p ?_ fun item => ?_)
    · refine h none st₀ { noAnswers with stack, initialDealloc := true } false ⟨rfl, rfl⟩ ?_
      obtain ⟨h₁, h₂⟩ := hcap { noAnswers with stack, initialDealloc := true } rfl
      rw [h₁, h₂, hf]
      exact ⟨rfl, st₀.live, rfl⟩
    · refine h none (noted st₀ item) { noAnswers with stack, handlerMemory := item } false
        ⟨rfl, rfl⟩ ?_
      obtain ⟨h₁, h₂⟩ := hcap { noAnswers with stack, handlerMemory := item } rfl
      rw [h₁, h₂, hf]
      exact ⟨rfl, _, rfl⟩
  | some item =>
    by_cases hst : item.status = .allocated
    · show Ends (if item.status ≠ .allocated then _ else _) Q (s.inside st₀ true)
      rw [if_neg (not_not_intro hst)]
      refine Ends.bind (removeCorrespondingTrace_ends hs _ fun st₁ hframe hrem => ?_)
      by_cases hty : item.type = type
      · show Ends (if item.type ≠ type then _ else _) Q (s.inside st₁ true)
        rw [if_neg (not_not_intro hty)]
        refine h (some item.realAddress)
          (st₁.setMemoryItem p { item with status := .deallocated, deallocTrace := bt })
          { noAnswers with stack } true
          ⟨hframe.process, hframe.flag⟩ ?_
        obtain ⟨h₁, h₂⟩ := hcap { noAnswers with stack } rfl
        rw [h₁, h₂, hf]
        simp only [if_neg (not_not_intro hst), hrem, if_neg (not_not_intro hty)]
        exact ⟨rfl, _, rfl⟩
      · show Ends (if item.type ≠ type then _ else _) Q (s.inside st₁ true)
        rw [if_pos hty]
        show Ends (initFailureDataAndCallClbk item .notProvided p 0 .freeMissmatch bt >>=
          fun _ => pure none) Q (s.inside st₁ false)
        refine Ends.bind (initFailureDataAndCallClbk_ends hs _ _ _ _ _ ?_)
        intro action raw runs a hgo
        refine h none (afterReport st₁ bt runs) (answers stack raw false false action runs) false
          ⟨hframe.process, hframe.flag⟩ ?_
        obtain ⟨h₁, h₂⟩ := hcap (answers stack raw false false action runs) rfl
        rw [h₁, h₂, hf]
        simp only [if_neg (not_not_intro hst), hrem, if_pos hty]
        exact initFailure_gives (answers_fits ..) (by simp) (hgo.released rfl)
    · show Ends (if item.status ≠ .allocated then _ else _) Q (s.inside st₀ true)
      rw [if_pos hst]
      show Ends (initFailureDataAndCallClbk item .notProvided p 0 .doubleFree bt >>=
        fun _ => pure none) Q (s.inside st₀ false)
      refine Ends.bind (initFailureDataAndCallClbk_ends hs _ _ _ _ _ ?_)
      intro action raw runs a hgo
      refine h none (afterReport st₀ bt runs) (answers stack raw false false action runs) false
        ⟨rfl, rfl⟩ ?_
      obtain ⟨h₁, h₂⟩ := hcap (answers stack raw false false action runs) rfl
      rw [h₁, h₂, hf]
      simp only [if_pos hst]
      exact initFailure_gives (answers_fits ..) (by simp) (hgo.released rfl)

theorem reAllocUntracked_ends (hs : Inited s) (p : Addr) (n : ℕ) {Q : Option Addr → State → Prop}
    (haccepted : ∀ a, Q (some a) (s.inside st locked))
    (hleft : ∀ item a, Q (some a) (s.inside (noted st item) locked)) :
    Ends (reAllocUntracked p n) Q (s.inside st locked) := by
  intro w
  show Ends (if w.accepted then _ else _) Q _
  split_ifs
  · exact haccepted w.addr
  · refine Ends.bind (initHandlerMemory_ends hs fun item => ?_)
    exact Ends.bind (outside_ends fun w => hleft item w.addr)

theorem Frame.withLive (L : Finset Addr) : Frame st (st.withLive L) := ⟨rfl, rfl⟩

/-- The program does not keep the raw blocks. -/
theorem inside_withLive (L : Finset Addr) :
    s.inside (st.withLive L) locked = s.inside st locked := rfl

/-- The locked block of a realloc, after the capture of `stack`: the address is kept, or the call
has its result. -/
theorem reAllocLocked_ends (hs : Inited s) (ho : st.Outermost) {p : Addr} (hp : p ≠ 0) {n : ℕ}
    (hn : n ≠ 0) (stack : Option Backtrace) {Q : Option (Option Addr) → State → Prop}
    (hkept : ∀ st₁ env, st₁ = { st with
        traces := (Tracker.initBacktraceDataForCurrentStack st.traces stack).1 } →
      Gives (Tracker.testOperatorReAlloc st env p n) (.returns p) { st₁ with
        traces := Tracker.freeBacktraceData st₁.traces
          (Tracker.initBacktraceDataForCurrentStack st.traces stack).2 } →
      Q (some none) (s.inside st₁ true))
    (h : ∀ o st₁ env locked, Frame st st₁ →
      Gives (Tracker.testOperatorReAlloc st env p n) (called o) st₁ →
      Q (o.map some) (s.inside st₁ locked)) :
    Ends (reAllocLocked p n (Tracker.initBacktraceDataForCurrentStack st.traces stack).2) Q
      (s.inside { st with
        traces := (Tracker.initBacktraceDataForCurrentStack st.traces stack).1 } true) := by
  have hbody := fun env => Tracker.testOperatorReAlloc_body env ho hp hn
  simp only [hbody] at h hkept
  set bt := (Tracker.initBacktraceDataForCurrentStack st.traces stack).2 with hbt
  set st₀ : Tracker.State :=
    { st with traces := (Tracker.initBacktraceDataForCurrentStack st.traces stack).1 } with hst₀
  have hcap : ∀ env : Tracker.Env, env.stack = stack →
      st.capture env = st₀ ∧ st.captured env = bt := by
    rintro env rfl
    exact ⟨rfl, rfl⟩
  apply Prog.wp_read.mpr
  have hfind : (s.inside st₀ true).tables.findMemoryItem p = st₀.findMemoryItem p := rfl
  rw [hfind]
  cases hf : st₀.findMemoryItem p with
  | none =>
    show Ends (reAllocUntracked p n >>= fun pReturn => pure (some pReturn)) Q (s.inside st₀ false)
    refine Ends.bind (reAllocUntracked_ends hs p n (fun a => ?_) fun item a => ?_)
    · refine h (some a) st₀ { noAnswers with stack, initialRealloc := some a } false ⟨rfl, rfl⟩ ?_
      obtain ⟨h₁, h₂⟩ := hcap { noAnswers with stack, initialRealloc := some a } rfl
      rw [h₁, h₂, hf]
      exact ⟨rfl, st₀.live, rfl⟩
    · refine h (some a) (noted st₀ item) { noAnswers with stack, raw := a, handlerMemory := item }
        false ⟨rfl, rfl⟩ ?_
      obtain ⟨h₁, h₂⟩ := hcap { noAnswers with stack, raw := a, handlerMemory := item } rfl
      rw [h₁, h₂, hf]
      exact ⟨rfl, Tracker.exists_reallocn (noted st₀ item) p a⟩
  | some item =>
    by_cases hty : item.type = .malloc
    · show Ends (if item.type ≠ .malloc then _ else _) Q (s.inside st₀ true)
      rw [if_neg (not_not_intro hty)]
      by_cases hst : item.status = .allocated
      · rw [if_neg (not_not_intro hst)]
        refine Ends.bind (reallocn_ends hs.inside fun pReturn => ?_)
        by_cases hraw : pReturn = p
        · show Ends (if pReturn = p then _ else _) Q (s.inside st₀ true)
          rw [if_pos hraw]
          refine hkept st₀ (answers stack pReturn false false .exitApp 0) rfl ?_
          obtain ⟨h₁, h₂⟩ := hcap (answers stack pReturn false false .exitApp 0) rfl
          rw [h₁, h₂, hf]
          simp only [if_neg (not_not_intro hty), if_neg (not_not_intro hst)]
          rw [if_pos (show (answers stack pReturn false false .exitApp 0).raw = p from hraw)]
          obtain ⟨L, hL⟩ := Tracker.exists_reallocn st₀ item.realAddress
            (answers stack pReturn false false .exitApp 0).raw
          rw [hL]
          exact ⟨congrArg _ hraw, L, rfl⟩
        · show Ends (if pReturn = p then _ else _) Q (s.inside st₀ true)
          obtain ⟨L, hL⟩ := Tracker.exists_reallocn st₀ item.realAddress pReturn
          rw [if_neg hraw, ← inside_withLive L]
          refine Ends.bind (removeCorrespondingTrace_ends hs _ fun st₁ hframe hrem => ?_)
          show Ends (addNewAllocatedMemoryAndCleanOldEntryNoLock .malloc pReturn bt >>=
            fun pReturn => pure (some pReturn)) Q (s.inside
              (st₁.setMemoryItem p { item with status := .duringReallocChanged }) true)
          have hrun : (st₁.setMemoryItem p { item with status := .duringReallocChanged }).process =
            .running := hframe.process.trans ho.1
          refine Ends.bind (addNewNoLock_ends hs hrun .malloc pReturn bt ?_)
          intro memoryItem stackItem action runs o st₂ locked hframe' hgives
          have hret := h (o.map fun _ => pReturn) st₂
            (answers stack pReturn memoryItem stackItem action runs) locked
            ⟨hframe'.process.trans hframe.process, hframe'.flag.trans hframe.flag⟩ (by
              obtain ⟨h₁, h₂⟩ := hcap (answers stack pReturn memoryItem stackItem action runs) rfl
              rw [h₁, h₂, hf]
              simp only [if_neg (not_not_intro hty), if_neg (not_not_intro hst)]
              rw [if_neg (show ¬ (answers stack pReturn memoryItem stackItem action runs).raw = p
                from hraw)]
              have hrem' : Tracker.removeCorrespondingTrace (st₀.reallocn item.realAddress
                (answers stack pReturn memoryItem stackItem action runs).raw) item.allocTrace =
                .ok st₁ := (congrArg (Tracker.removeCorrespondingTrace · _) hL).trans hrem
              simp only [hrem']
              exact hgives _ (answers_fits ..))
          cases o with
          | none => exact hret
          | some u => exact hret
      · rw [if_pos hst]
        show Ends (initFailureDataAndCallClbk item .notProvided p n .badReallocDeletedMem bt >>=
          fun pReturn => pure (some pReturn)) Q (s.inside st₀ false)
        refine Ends.bind (initFailureDataAndCallClbk_ends hs _ _ _ _ _ ?_)
        intro action raw runs a hgo
        refine h (some a) (afterReport st₀ bt runs) (answers stack raw false false action runs)
          false ⟨rfl, rfl⟩ ?_
        obtain ⟨h₁, h₂⟩ := hcap (answers stack raw false false action runs) rfl
        rw [h₁, h₂, hf]
        simp only [if_neg (not_not_intro hty), if_pos hst]
        exact initFailure_gives (answers_fits ..) (by simp) hgo
    · show Ends (if item.type ≠ .malloc then _ else _) Q (s.inside st₀ true)
      rw [if_pos hty]
      show Ends (initFailureDataAndCallClbk item .notProvided p n .badReallocCreatedByWrongAlloc bt
        >>= fun pReturn => pure (some pReturn)) Q (s.inside st₀ false)
      refine Ends.bind (initFailureDataAndCallClbk_ends hs _ _ _ _ _ ?_)
      intro action raw runs a hgo
      refine h (some a) (afterReport st₀ bt runs) (answers stack raw false false action runs) false
        ⟨rfl, rfl⟩ ?_
      obtain ⟨h₁, h₂⟩ := hcap (answers stack raw false false action runs) rfl
      rw [h₁, h₂, hf]
      simp only [if_pos hty]
      exact initFailure_gives (answers_fits ..) (by simp) hgo

end CrashInvestigator.Reentry
