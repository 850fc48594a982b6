import CrashInvestigator.Tracker.DefaultCallback
import CrashInvestigator.Tracker.Proofs.SignalProofs

/-!
# Two callbacks

A call under the default callback is the call under a callback that refuses every action, up to its
first report, where the process exits.
-/

namespace CrashInvestigator.Tracker

open Library

/-- The same answers, but every action is refused. -/
def Env.refusing (env : Env) : Env :=
  { env with clbkFnc := fun _ => .doNotMakeActionToPreventCrash }

theorem refusesActions_refusing (env : Env) : RefusesActions env.refusing := fun _ => rfl

/-- Both results are the same, or both report the same and the second one is the end of the
process. -/
def SameUntilReport (r r' : Res) : Prop :=
  (reported r.events = [] ∧ r' = r) ∨
    ∃ data, reported r.events = [data] ∧ reported r'.events = [data] ∧ r'.st.process = .exited 1

theorem SameUntilReport.silent {r : Res} (h : reported r.events = []) : SameUntilReport r r :=
  Or.inl ⟨h, rfl⟩

theorem reported_cons {e : Event} (he : ∀ d a, e ≠ Event.clbkFnc d a) (events : List Event) :
    reported (e :: events) = reported events := by
  cases e with
  | clbkFnc d a => exact absurd rfl (he d a)
  | _ => rfl

theorem SameUntilReport.cons {r r' : Res} (h : SameUntilReport r r') {e : Event}
    (he : ∀ d a, e ≠ Event.clbkFnc d a) :
    SameUntilReport { r with events := e :: r.events } { r' with events := e :: r'.events } := by
  rcases h with ⟨hnil, rfl⟩ | ⟨data, hr, hr', hexit⟩
  · exact Or.inl ⟨(reported_cons he _).trans hnil, rfl⟩
  · exact Or.inr ⟨data, (reported_cons he _).trans hr, (reported_cons he _).trans hr', hexit⟩

section Callbacks

variable {symbols : Addr → StackItem} {st : State} {env : Env}

/-- The failures after which the default callback ends the process. -/
def FailureType.isFatal : FailureType → Bool
  | .unknown | .deallocOfNonExistingMemory => false
  | _ => true

theorem IsDefault.exits (h : env.IsDefault symbols) {data : FailureData}
    (hft : data.failureType.isFatal = true) : env.clbkFnc data = .exitApp := by
  rw [h]
  cases hd : data.failureType with
  | unknown => rw [hd] at hft; cases hft
  | deallocOfNonExistingMemory => rw [hd] at hft; cases hft
  | _ => simp only [defaultFailureClbk, hd]

theorem initFailure_sameUntilReport (h : env.IsDefault symbols) (st : State) {ft : FailureType}
    (hft : ft.isFatal = true) (item : SMemoryItem) (freeType : MemoryType) (p : Addr) (n : ℕ)
    (bt : BacktracePtr) :
    SameUntilReport (initFailureDataAndCallClbk st env.refusing item freeType p n ft bt)
      (initFailureDataAndCallClbk st env item freeType p n ft bt) := by
  have hne : ft ≠ .unknown := by
    rintro rfl
    cases hft
  have hexit : env.clbkFnc (failureData st env item freeType p n ft bt) = .exitApp :=
    IsDefault.exits h hft
  refine Or.inr ⟨failureData st env item freeType p n ft bt, ?_, ?_, ?_⟩
  · exact reported_initFailure st env.refusing item freeType p n hne bt
  · exact reported_initFailure st env item freeType p n hne bt
  · rw [initFailure_eq st env item freeType p n ft bt hne]
    simp only [hexit]
    rfl

theorem registerStackItem_sameUntilReport (h : env.IsDefault symbols) (st : State)
    (item : SMemoryItem) (p : Addr) (bt : BacktracePtr) :
    SameUntilReport (registerStackItem st env.refusing item p bt)
      (registerStackItem st env item p bt) := by
  cases bt with
  | none => exact SameUntilReport.silent rfl
  | some t =>
    cases hf : st.findStackItem t with
    | none =>
      have hsame : registerStackItem st env item p (some t) =
          registerStackItem st env.refusing item p (some t) := by
        simp only [registerStackItem, hf]
        rfl
      rw [hsame]
      refine SameUntilReport.silent ?_
      simp only [registerStackItem, hf]
      split_ifs <;> rfl
    | some e =>
      by_cases hpos : 0 < st.unMaxNumberOfAllocFromTheSameStack
      · by_cases hmax : st.unMaxNumberOfAllocFromTheSameStack < e.2 + 1
        · simp only [registerStackItem, hf, if_pos hpos, if_pos hmax]
          have hfatal : FailureType.possibilityOfMemoryLeak.isFatal = true := rfl
          have hcall := initFailure_sameUntilReport h (st.setStackItem t (e.2 + 1)) hfatal item item.type
            p 0 (some t)
          rcases hcall with ⟨hnil, -⟩ | ⟨data, hr, hr', hexit⟩
          · rw [reported_initFailure _ _ _ _ _ _ (by simp)] at hnil
            cases hnil
          · refine Or.inr ⟨data, ?_, ?_, ?_⟩
            · split_ifs <;> exact hr
            · split_ifs <;> exact hr'
            · rw [if_neg (by rw [hexit]; simp)]
              exact hexit
        · simp only [registerStackItem, hf, if_pos hpos, if_neg hmax]
          exact SameUntilReport.silent rfl
      · simp only [registerStackItem, hf, if_neg hpos]
        exact SameUntilReport.silent rfl

theorem addNew_sameUntilReport (h : env.IsDefault symbols) (st : State) (ty : MemoryType) (p : Addr)
    (bt : BacktracePtr) :
    SameUntilReport (addNewAllocatedMemoryAndCleanOldEntryNoLock st env.refusing ty p bt)
      (addNewAllocatedMemoryAndCleanOldEntryNoLock st env ty p bt) := by
  have hreg : registerMemoryItem st env.refusing p ⟨ty, .allocated, p, bt, none⟩ =
      registerMemoryItem st env p ⟨ty, .allocated, p, bt, none⟩ := rfl
  unfold addNewAllocatedMemoryAndCleanOldEntryNoLock
  simp only [hreg]
  cases registerMemoryItem st env p ⟨ty, .allocated, p, bt, none⟩ with
  | none => exact SameUntilReport.silent rfl
  | some st₁ => exact registerStackItem_sameUntilReport h st₁ _ p bt

theorem delete_sameUntilReport (h : env.IsDefault symbols) (ho : st.Outermost) {p : Addr}
    (hp : p ≠ 0) (t : MemoryType) :
    SameUntilReport (testOperatorDelete st env.refusing p t) (testOperatorDelete st env p t) := by
  rw [testOperatorDelete_body env.refusing ho hp, testOperatorDelete_body env ho hp]
  have hcap : st.capture env.refusing = st.capture env := rfl
  have hbt : st.captured env.refusing = st.captured env := rfl
  rw [hcap, hbt]
  cases (st.capture env).findMemoryItem p with
  | none =>
    refine SameUntilReport.silent ?_
    simp only [deleteUntracked]
    split_ifs <;> rfl
  | some item =>
    by_cases hst : item.status ≠ .allocated
    · simp only [if_pos hst]
      exact initFailure_sameUntilReport h (st.capture env) rfl item .notProvided p 0 (st.captured env)
    · simp only [if_neg hst]
      cases removeCorrespondingTrace (st.capture env) item.allocTrace with
      | error pr => exact SameUntilReport.silent rfl
      | ok st₁ =>
        by_cases ht : item.type ≠ t
        · simp only [if_pos ht]
          exact initFailure_sameUntilReport h st₁ rfl item .notProvided p 0 (st.captured env)
        · simp only [if_neg ht]
          exact SameUntilReport.silent rfl

theorem reAlloc_sameUntilReport (h : env.IsDefault symbols) (ho : st.Outermost) {p : Addr} {n : ℕ}
    (hp : p ≠ 0) (hn : n ≠ 0) :
    SameUntilReport (testOperatorReAlloc st env.refusing p n) (testOperatorReAlloc st env p n) := by
  rw [testOperatorReAlloc_body env.refusing ho hp hn, testOperatorReAlloc_body env ho hp hn]
  have hcap : st.capture env.refusing = st.capture env := rfl
  have hbt : st.captured env.refusing = st.captured env := rfl
  have hraw : env.refusing.raw = env.raw := rfl
  rw [hcap, hbt, hraw]
  cases (st.capture env).findMemoryItem p with
  | none =>
    refine SameUntilReport.silent ?_
    simp only [reAllocUntracked]
    cases env.refusing.initialRealloc <;> rfl
  | some item =>
    simp only
    split_ifs
    · exact initFailure_sameUntilReport h (st.capture env) rfl item .notProvided p n (st.captured env)
    · exact initFailure_sameUntilReport h (st.capture env) rfl item .notProvided p n (st.captured env)
    · exact SameUntilReport.silent rfl
    · cases removeCorrespondingTrace ((st.capture env).reallocn item.realAddress env.raw)
          item.allocTrace with
      | error pr => exact SameUntilReport.silent rfl
      | ok st₁ =>
        refine SameUntilReport.cons ?_ (by simp)
        exact addNew_sameUntilReport h _ .malloc env.raw (st.captured env)

/-- The registration after a raw request that succeeded. -/
theorem allocation_sameUntilReport (h : env.IsDefault symbols) (st : State) (ty : MemoryType)
    {e : Event} (he : ∀ d a, e ≠ Event.clbkFnc d a) :
    SameUntilReport
      { addNewAllocatedMemoryAndCleanOldEntry (st.mallocn env.raw) env.refusing ty env.raw with
        events := e :: (addNewAllocatedMemoryAndCleanOldEntry (st.mallocn env.raw) env.refusing ty
          env.raw).events }
      { addNewAllocatedMemoryAndCleanOldEntry (st.mallocn env.raw) env ty env.raw with
        events := e :: (addNewAllocatedMemoryAndCleanOldEntry (st.mallocn env.raw) env ty
          env.raw).events } := by
  refine SameUntilReport.cons ?_ he
  exact addNew_sameUntilReport h _ ty env.raw _

theorem alloc_sameUntilReport (h : env.IsDefault symbols) (ho : st.Outermost) {c : Call}
    {ty : MemoryType}
    (heff : c.effect = .allocate ty) : SameUntilReport (call st env.refusing c) (call st env c) := by
  have hraw : env.refusing.raw = env.raw := rfl
  rcases allocate_ne_zero heff with ⟨n, b, rfl, hn⟩ | ⟨rfl, ⟨m, s, rfl, hn⟩ | ⟨n, rfl, hn⟩⟩
  · simp only [call, testOperatorAlloc, ho.2, Bool.false_eq_true, if_false, if_neg hn, hraw]
    by_cases hnull : env.raw = 0
    · simp only [if_pos hnull]
      exact SameUntilReport.silent rfl
    · simp only [if_neg hnull]
      exact allocation_sameUntilReport h st ty (by simp)
  · simp only [call, testOperatorCalloc, ho.2, Bool.false_eq_true, if_false, if_neg hn, hraw]
    by_cases hnull : env.raw = 0
    · simp only [if_pos hnull]
      exact SameUntilReport.silent rfl
    · simp only [if_neg hnull]
      exact allocation_sameUntilReport h st .malloc (by simp)
  · simp only [call, testOperatorReAlloc, testOperatorAlloc, ho.2, Bool.false_eq_true, if_false, if_true,
      if_neg hn, hraw]
    by_cases hnull : env.raw = 0
    · simp only [if_pos hnull]
      exact SameUntilReport.silent rfl
    · simp only [if_neg hnull]
      exact allocation_sameUntilReport h st .malloc (by simp)

/-- A call under the default callback is one whose actions are refused, up to its first report. -/
theorem call_sameUntilReport (h : env.IsDefault symbols) (ho : st.Outermost) (c : Call) :
    SameUntilReport (call st env.refusing c) (call st env c) := by
  cases heff : c.effect with
  | nothing =>
    have hsame : call st env c = call st env.refusing c := by
      rcases nothing_zero heff with ⟨t, b, rfl⟩ | ⟨m, s, rfl, hn⟩ | rfl | ⟨t, rfl⟩
      · simp [call, testOperatorAlloc, ho.2]
      · simp [call, testOperatorCalloc, ho.2, hn]
      · simp [call, testOperatorReAlloc, testOperatorAlloc, ho.2]
      · simp [call, testOperatorDelete]
    rw [hsame]
    refine SameUntilReport.silent ?_
    rw [(call_nothing ho heff).2]
    rfl
  | setMax m =>
    rw [setMax_eq heff]
    exact SameUntilReport.silent rfl
  | allocate t => exact alloc_sameUntilReport h ho heff
  | release p t =>
    rw [call_release ho heff, call_release ho heff]
    exact delete_sameUntilReport h ho (release_ne_zero heff).1 t
  | move p n =>
    obtain ⟨-, hp, hn⟩ := move_ne_zero heff
    rw [call_move heff, call_move heff]
    exact reAlloc_sameUntilReport h ho hp hn

end Callbacks

end CrashInvestigator.Tracker
