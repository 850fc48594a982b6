import CrashInvestigator.Tracker.Aligned
import CrashInvestigator.Tracker.Proofs.LeakAccountingProofs

/-!
# The raw blocks

No routine reads which blocks of the program are in use: two states that differ in these only give
the same outcome and the same events, and differ afterwards in these only.
-/

namespace CrashInvestigator.Tracker

open Library

variable {st st' : State} {env : Env} {p : Addr} {n : ℕ} {bt : BacktracePtr} {item : SMemoryItem}
  {type : MemoryType} {kind : FailureType} {L : Finset Addr}

/-- The state with other raw blocks. -/
def State.withLive (st : State) (L : Finset Addr) : State := { st with live := L }

/-- The same result, up to the raw blocks. -/
def Res.Alike (r r' : Res) : Prop :=
  ∃ L, r'.st = r.st.withLive L ∧ r'.out = r.out ∧ r'.events = r.events

@[simp] theorem withLive_findMemoryItem :
    (st.withLive L).findMemoryItem p = st.findMemoryItem p := rfl

@[simp] theorem withLive_findStackItem (t : ℕ) :
    (st.withLive L).findStackItem t = st.findStackItem t := rfl

theorem Res.Alike.of_eq {out : Outcome} {events : List Event} (h : st' = st.withLive st'.live) :
    Res.Alike ⟨st, out, events⟩ ⟨st', out, events⟩ := ⟨st'.live, h, rfl, rfl⟩

/-- What a leak report leaves of the call. -/
theorem Res.Alike.goesOn {r r' : Res} (h : r.Alike r') :
    Res.Alike (if r.st.process = .running then ⟨r.st, .returns p, r.events⟩ else r)
      (if r'.st.process = .running then ⟨r'.st, .returns p, r'.events⟩ else r') := by
  obtain ⟨L, hst, hout, hevents⟩ := h
  have hproc : r'.st.process = r.st.process := by
    rw [hst]
    rfl
  rw [hproc]
  split_ifs
  · exact ⟨L, hst, rfl, hevents⟩
  · exact ⟨L, hst, hout, hevents⟩

theorem mallocn_withLive (a : Addr) :
    (st.withLive L).mallocn a = (st.mallocn a).withLive ((st.withLive L).mallocn a).live := by
  unfold State.mallocn
  split_ifs
  · rfl
  · rfl

theorem reallocn_withLive (st : State) (p a : Addr) : (st.withLive L).reallocn p a =
    (st.reallocn p a).withLive ((st.withLive L).reallocn p a).live := by
  unfold State.reallocn
  split_ifs
  · rfl
  · rfl

/-- A raw request changes the raw blocks only. -/
theorem exists_reallocn (st : State) (p a : Addr) :
    ∃ L, st.reallocn p a = st.withLive L := by
  unfold State.reallocn
  split_ifs
  · exact ⟨st.live, rfl⟩
  · exact ⟨insert a (st.live.erase p), rfl⟩

theorem exists_mallocn (st : State) (a : Addr) : ∃ L, st.mallocn a = st.withLive L := by
  unfold State.mallocn
  split_ifs
  · exact ⟨st.live, rfl⟩
  · exact ⟨insert a st.live, rfl⟩

/-! ## The parts of the routines -/

theorem initFailureDataAndCallClbk_withLive :
    (initFailureDataAndCallClbk st env item type p n kind bt).Alike
      (initFailureDataAndCallClbk (st.withLive L) env item type p n kind bt) := by
  have hdata : failureData (st.withLive L) env item type p n kind bt =
      failureData st env item type p n kind bt := rfl
  cases kind with
  | unknown =>
    show Res.Alike (if st.ndebug then _ else _) (if st.ndebug then _ else _)
    split_ifs
    · exact Res.Alike.of_eq rfl
    · exact Res.Alike.of_eq rfl
  | _ =>
    unfold initFailureDataAndCallClbk
    simp only [hdata]
    generalize failureData st env item type p n _ bt = data
    cases env.clbkFnc data with
    | makeAction =>
      dsimp only
      split_ifs
      · exact Res.Alike.of_eq (by rw [reallocn_withLive]; rfl)
      · exact Res.Alike.of_eq rfl
    | doNotMakeActionToPreventCrash => exact Res.Alike.of_eq rfl
    | exitApp => exact Res.Alike.of_eq rfl
    | unknown => exact Res.Alike.of_eq rfl

theorem registerMemoryItem_withLive :
    registerMemoryItem (st.withLive L) env p item =
      (registerMemoryItem st env p item).map fun st₁ => st₁.withLive L := by
  unfold registerMemoryItem
  rw [withLive_findMemoryItem]
  cases st.findMemoryItem p with
  | none =>
    dsimp only
    split_ifs
    · rfl
    · rfl
  | some old => rfl

theorem registerStackItem_withLive :
    (registerStackItem st env item p bt).Alike
      (registerStackItem (st.withLive L) env item p bt) := by
  cases bt with
  | none => exact Res.Alike.of_eq rfl
  | some t =>
    unfold registerStackItem
    simp only [withLive_findStackItem]
    cases st.findStackItem t with
    | none =>
      dsimp only
      split_ifs
      · exact Res.Alike.of_eq rfl
      · exact Res.Alike.of_eq rfl
    | some e =>
      have hmax : (st.withLive L).unMaxNumberOfAllocFromTheSameStack =
        st.unMaxNumberOfAllocFromTheSameStack := rfl
      have hset : (st.withLive L).setStackItem t (e.2 + 1) =
        (st.setStackItem t (e.2 + 1)).withLive L := rfl
      simp only [hmax, hset]
      by_cases hpos : 0 < st.unMaxNumberOfAllocFromTheSameStack
      · rw [if_pos hpos, if_pos hpos]
        by_cases hleak : st.unMaxNumberOfAllocFromTheSameStack < e.2 + 1
        · rw [if_pos hleak, if_pos hleak]
          exact initFailureDataAndCallClbk_withLive.goesOn
        · rw [if_neg hleak, if_neg hleak]
          exact Res.Alike.of_eq rfl
      · rw [if_neg hpos, if_neg hpos]
        exact Res.Alike.of_eq rfl

theorem addNewAllocatedMemoryAndCleanOldEntryNoLock_withLive :
    (addNewAllocatedMemoryAndCleanOldEntryNoLock st env type p bt).Alike
      (addNewAllocatedMemoryAndCleanOldEntryNoLock (st.withLive L) env type p bt) := by
  unfold addNewAllocatedMemoryAndCleanOldEntryNoLock
  simp only [registerMemoryItem_withLive]
  cases registerMemoryItem st env p ⟨type, .allocated, p, bt, none⟩ with
  | none => exact Res.Alike.of_eq rfl
  | some st₁ => exact registerStackItem_withLive

theorem addNewAllocatedMemoryAndCleanOldEntry_withLive :
    (addNewAllocatedMemoryAndCleanOldEntry st env type p).Alike
      (addNewAllocatedMemoryAndCleanOldEntry (st.withLive L) env type p) :=
  addNewAllocatedMemoryAndCleanOldEntryNoLock_withLive

theorem removeCorrespondingTrace_withLive :
    removeCorrespondingTrace (st.withLive L) bt =
      (removeCorrespondingTrace st bt).map fun st₁ => st₁.withLive L :=
  removeCorrespondingTrace_live st L bt

theorem nullOrThrow_withLive (bThrow : Bool) (events : List Event) :
    (nullOrThrow st bThrow events).Alike (nullOrThrow (st.withLive L) bThrow events) :=
  Res.Alike.of_eq rfl

/-! ## The exported routines -/

theorem deleteUntracked_withLive :
    (deleteUntracked st env p bt).Alike (deleteUntracked (st.withLive L) env p bt) := by
  unfold deleteUntracked
  split_ifs
  · exact Res.Alike.of_eq rfl
  · exact Res.Alike.of_eq rfl

theorem testOperatorDelete_withLive (ho : st.Outermost) :
    (testOperatorDelete st env p type).Alike (testOperatorDelete (st.withLive L) env p type) := by
  by_cases hp : p = 0
  · subst hp
    exact Res.Alike.of_eq rfl
  have hcap : (st.withLive L).capture env = (st.capture env).withLive L := rfl
  have hcapd : (st.withLive L).captured env = st.captured env := rfl
  have ho' : (st.withLive L).Outermost := ho
  rw [testOperatorDelete_body env ho hp, testOperatorDelete_body env ho' hp, hcap, hcapd,
    withLive_findMemoryItem]
  cases (st.capture env).findMemoryItem p with
  | none => exact deleteUntracked_withLive
  | some item =>
    dsimp only
    split_ifs
    · exact initFailureDataAndCallClbk_withLive
    · rw [removeCorrespondingTrace_withLive]
      cases removeCorrespondingTrace (st.capture env) item.allocTrace with
      | error pr => exact Res.Alike.of_eq rfl
      | ok st₁ =>
        exact initFailureDataAndCallClbk_withLive
    · rw [removeCorrespondingTrace_withLive]
      cases removeCorrespondingTrace (st.capture env) item.allocTrace with
      | error pr => exact Res.Alike.of_eq rfl
      | ok st₁ => exact Res.Alike.of_eq rfl

theorem Res.Alike.cons {r r' : Res} (h : r.Alike r') (e : Event) :
    Res.Alike ⟨r.st, r.out, e :: r.events⟩ ⟨r'.st, r'.out, e :: r'.events⟩ := by
  obtain ⟨L, hst, hout, hevents⟩ := h
  exact ⟨L, hst, hout, congrArg (e :: ·) hevents⟩

theorem testOperatorAlloc_withLive (ho : st.Outermost) (bThrow : Bool) :
    (testOperatorAlloc st env n type bThrow).Alike
      (testOperatorAlloc (st.withLive L) env n type bThrow) := by
  have hflag : ¬ st.bIsAllocingOrDeallocing = true := by simp [ho.2]
  unfold testOperatorAlloc
  rw [if_neg hflag, if_neg (show ¬ (st.withLive L).bIsAllocingOrDeallocing = true from hflag)]
  split_ifs
  · exact nullOrThrow_withLive bThrow _
  · exact nullOrThrow_withLive bThrow _
  · rw [mallocn_withLive]
    exact addNewAllocatedMemoryAndCleanOldEntry_withLive.cons _

theorem testOperatorCalloc_withLive (ho : st.Outermost) (nmemb size : ℕ) :
    (testOperatorCalloc st env nmemb size).Alike
      (testOperatorCalloc (st.withLive L) env nmemb size) := by
  have hflag : ¬ st.bIsAllocingOrDeallocing = true := by simp [ho.2]
  unfold testOperatorCalloc
  rw [if_neg hflag, if_neg (show ¬ (st.withLive L).bIsAllocingOrDeallocing = true from hflag)]
  split_ifs
  · exact nullOrThrow_withLive false _
  · exact nullOrThrow_withLive false _
  · rw [mallocn_withLive]
    exact addNewAllocatedMemoryAndCleanOldEntry_withLive.cons _

theorem testOperatorNewAligned_withLive (ho : st.Outermost) (bThrow : Bool) (align : ℕ) :
    (testOperatorNewAligned st env n type bThrow align).Alike
      (testOperatorNewAligned (st.withLive L) env n type bThrow align) := by
  have hflag : ¬ st.bIsAllocingOrDeallocing = true := by simp [ho.2]
  unfold testOperatorNewAligned
  rw [if_neg hflag, if_neg (show ¬ (st.withLive L).bIsAllocingOrDeallocing = true from hflag)]
  by_cases hn : n = 0
  · rw [if_pos hn, if_pos hn]
    exact nullOrThrow_withLive bThrow _
  rw [if_neg hn, if_neg hn]
  dsimp only
  by_cases hraw : env.raw = 0
  · rw [if_pos hraw, if_pos hraw]
    exact nullOrThrow_withLive bThrow _
  rw [if_neg hraw, if_neg hraw, mallocn_withLive]
  cases stdAlign (effectiveAlign align) n env.raw
      ((n + effectiveAlign align + sizeofVoidPtr) % sizeModulus) with
  | none => exact nullOrThrow_withLive bThrow _
  | some q =>
    obtain ⟨L', hst, hout, hevents⟩ : Res.Alike
        (addNewAllocatedMemoryAndCleanOldEntry (st.mallocn env.raw) env type env.raw) _ :=
      addNewAllocatedMemoryAndCleanOldEntry_withLive (L := ((st.withLive L).mallocn env.raw).live)
    refine ⟨L', hst, ?_, ?_⟩
    · dsimp only
      rw [hout]
    · dsimp only
      rw [hevents]

theorem reAllocUntracked_withLive :
    (reAllocUntracked st env p n bt).Alike (reAllocUntracked (st.withLive L) env p n bt) := by
  unfold reAllocUntracked
  cases env.initialRealloc with
  | some q => exact Res.Alike.of_eq rfl
  | none =>
    dsimp only
    exact Res.Alike.of_eq (reallocn_withLive { st with traces := _ } p env.raw)

/-- A realloc of a block to a positive size. -/
theorem move_withLive (ho : st.Outermost) (hp : p ≠ 0) (hn : n ≠ 0) :
    (testOperatorReAlloc st env p n).Alike (testOperatorReAlloc (st.withLive L) env p n) := by
  have hcap : (st.withLive L).capture env = (st.capture env).withLive L := rfl
  have hcapd : (st.withLive L).captured env = st.captured env := rfl
  have ho' : (st.withLive L).Outermost := ho
  rw [testOperatorReAlloc_body env ho hp hn, testOperatorReAlloc_body env ho' hp hn, hcap, hcapd,
    withLive_findMemoryItem]
  cases (st.capture env).findMemoryItem p with
  | none => exact reAllocUntracked_withLive
  | some item =>
    dsimp only
    by_cases hty : item.type = .malloc
    · rw [if_neg (not_not_intro hty), if_neg (not_not_intro hty)]
      by_cases hst : item.status = .allocated
      · rw [if_neg (not_not_intro hst), if_neg (not_not_intro hst), reallocn_withLive]
        by_cases hraw : env.raw = p
        · rw [if_pos hraw, if_pos hraw]
          exact Res.Alike.of_eq rfl
        · rw [if_neg hraw, if_neg hraw, removeCorrespondingTrace_withLive]
          cases removeCorrespondingTrace ((st.capture env).reallocn item.realAddress env.raw)
              item.allocTrace with
          | error pr => exact Res.Alike.of_eq rfl
          | ok st₁ =>
            exact addNewAllocatedMemoryAndCleanOldEntryNoLock_withLive.cons _
      · rw [if_pos hst, if_pos hst]
        exact initFailureDataAndCallClbk_withLive
    · rw [if_pos hty, if_pos hty]
      exact initFailureDataAndCallClbk_withLive

theorem testOperatorReAlloc_withLive (ho : st.Outermost) :
    (testOperatorReAlloc st env p n).Alike (testOperatorReAlloc (st.withLive L) env p n) := by
  have hflag : ¬ st.bIsAllocingOrDeallocing = true := by simp [ho.2]
  have hflag' : ¬ (st.withLive L).bIsAllocingOrDeallocing = true := hflag
  by_cases hp : p = 0
  · unfold testOperatorReAlloc
    rw [if_neg hflag, if_neg hflag', if_pos hp, if_pos hp]
    exact testOperatorAlloc_withLive ho false
  · by_cases hn : n = 0
    · unfold testOperatorReAlloc
      rw [if_neg hflag, if_neg hflag', if_neg hp, if_neg hp, if_pos hn, if_pos hn]
      exact testOperatorDelete_withLive ho
    · exact move_withLive ho hp hn

/-- A call does not depend on the raw blocks. -/
theorem exportedCall_withLive (ho : st.Outermost) (c : ExportedCall) :
    (exportedCall st env c).Alike (exportedCall (st.withLive L) env c) := by
  cases c with
  | newAligned count type bThrow align => exact testOperatorNewAligned_withLive ho bThrow align
  | plain c =>
    cases c with
    | alloc count type bThrow => exact testOperatorAlloc_withLive ho bThrow
    | calloc nmemb size => exact testOperatorCalloc_withLive ho nmemb size
    | reAlloc p n => exact testOperatorReAlloc_withLive ho
    | delete p type => exact testOperatorDelete_withLive ho
    | setMaxAllowedAllocInTheSameStack n => exact Res.Alike.of_eq rfl

end CrashInvestigator.Tracker
