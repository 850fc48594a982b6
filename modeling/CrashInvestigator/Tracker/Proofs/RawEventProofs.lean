import CrashInvestigator.Tracker.Proofs.RawBlockProofs

/-!
# The raw blocks of the events

The blocks of the program that are in use after a call are those before it, changed by the raw requests
among its events. So they may be kept beside a model of the tables that knows nothing of them.
-/

namespace CrashInvestigator.Tracker

open Library

variable {st st' : State} {env : Env} {p : Addr} {n : ℕ} {bt : BacktracePtr} {item : SMemoryItem}
  {type : MemoryType} {kind : FailureType} {L : Finset Addr}

/-- The raw blocks after an event. -/
def Event.rawBlocks (L : Finset Addr) : Event → Finset Addr
  | .mallocn _ answer | .callocn _ _ answer => if answer = 0 then L else insert answer L
  | .reallocn ptr _ answer | .systemSpecificGlibcRealloc ptr _ answer =>
    if answer = 0 then L else insert answer (L.erase ptr)
  | .freen ptr | .systemSpecificGlibcDealloc ptr => L.erase ptr
  | .handlerMemoryInit _ | .clbkFnc _ _ => L

/-- The raw blocks of the result are those that its events make of `L`. -/
def Res.RawFrom (r : Res) (L : Finset Addr) : Prop := r.st.live = r.events.foldl Event.rawBlocks L

theorem mallocn_rawBlocks (st : State) (count answer : ℕ) :
    (st.mallocn answer).live = Event.rawBlocks st.live (.mallocn count answer) := by
  show _ = if answer = 0 then st.live else insert answer st.live
  unfold State.mallocn
  split_ifs
  · rfl
  · rfl

theorem reallocn_rawBlocks (st : State) (ptr count answer : ℕ) :
    (st.reallocn ptr answer).live = Event.rawBlocks st.live (.reallocn ptr count answer) := by
  show _ = if answer = 0 then st.live else insert answer (st.live.erase ptr)
  unfold State.reallocn
  split_ifs
  · rfl
  · rfl

/-- A result after one more event. -/
theorem Res.RawFrom.cons {r : Res} {e : Event} (h : r.RawFrom (e.rawBlocks L)) :
    Res.RawFrom ⟨r.st, r.out, e :: r.events⟩ L := h

/-! ## The parts of the routines -/

theorem initFailure_rawFrom (st : State) :
    (initFailureDataAndCallClbk st env item type p n kind bt).RawFrom st.live := by
  by_cases hne : kind = .unknown
  · subst hne
    unfold initFailureDataAndCallClbk
    dsimp only
    split_ifs
    · rfl
    · rfl
  obtain ⟨data, -, ⟨-, hr⟩ | ⟨-, hr⟩ | ⟨-, -, hr⟩⟩ := initFailure_cases st env item type p n kind bt hne
  · rw [hr]
    split_ifs
    · exact reallocn_rawBlocks st p n env.raw
    · rfl
  · rw [hr]
    rfl
  · rw [hr]
    rfl

theorem registerStackItem_rawFrom : (registerStackItem st env item p bt).RawFrom st.live := by
  cases bt with
  | none => rfl
  | some t =>
    rcases registerStackItem_cases st env item p t with ⟨-, -, hr⟩ | ⟨-, -, hr⟩ | ⟨e, -, -, hr⟩ |
      ⟨e, -, -, hr⟩ | ⟨e, -, -, -, r, hrr, hr⟩
    · rw [hr]
      rfl
    · rw [hr]
      rfl
    · rw [hr]
      rfl
    · rw [hr]
      rfl
    · have hreport : r.RawFrom st.live := by
        rw [hrr]
        exact initFailure_rawFrom (st.setStackItem t (e.2 + 1))
      rw [hr]
      split_ifs
      · exact hreport
      · exact hreport

theorem addNewNoLock_rawFrom (st : State) :
    (addNewAllocatedMemoryAndCleanOldEntryNoLock st env type p bt).RawFrom st.live := by
  rcases addNew_cases st env type p bt with ⟨-, hr⟩ | ⟨st₁, hreg, hr⟩
  · rw [hr]
    rfl
  · obtain ⟨-, hlive, -⟩ := registerMemoryItem_frame hreg
    rw [hr, ← hlive]
    exact registerStackItem_rawFrom

theorem addNew_rawFrom :
    (addNewAllocatedMemoryAndCleanOldEntry st env type p).RawFrom st.live :=
  addNewNoLock_rawFrom _

theorem removeCorrespondingTrace_live_eq (h : removeCorrespondingTrace st bt = .ok st') :
    st'.live = st.live := by
  rw [removeCorrespondingTrace_frame h]

/-! ## The exported routines -/

theorem deleteUntracked_rawFrom (st : State) : (deleteUntracked st env p bt).RawFrom st.live := by
  unfold deleteUntracked
  split_ifs
  · rfl
  · rfl

theorem testOperatorDelete_rawFrom (ho : st.Outermost) (type : MemoryType) :
    (testOperatorDelete st env p type).RawFrom st.live := by
  by_cases hp : p = 0
  · subst hp
    rfl
  rcases testOperatorDelete_cases env ho hp type with ⟨-, hr⟩ | ⟨item, -, -, hr⟩ |
    ⟨item, pr, -, -, -, hr⟩ | ⟨item, st₁, -, -, hrem, -, hr⟩ | ⟨item, st₁, -, -, hrem, -, hr⟩
  · rw [hr]
    exact deleteUntracked_rawFrom (st.capture env)
  · rw [hr]
    exact initFailure_rawFrom (st.capture env)
  · rw [hr]
    rfl
  · have hlive : st₁.live = (st.capture env).live := removeCorrespondingTrace_live_eq hrem
    change _ = st.live at hlive
    rw [hr, ← hlive]
    exact initFailure_rawFrom st₁
  · have hlive : st₁.live = (st.capture env).live := removeCorrespondingTrace_live_eq hrem
    change _ = st.live at hlive
    rw [hr, ← hlive]
    rfl

theorem testOperatorAlloc_rawFrom (ho : st.Outermost) (bThrow : Bool) :
    (testOperatorAlloc st env n type bThrow).RawFrom st.live := by
  unfold testOperatorAlloc
  rw [if_neg (by simp [ho.2])]
  split_ifs
  · rfl
  · rfl
  · refine Res.RawFrom.cons ?_
    rw [← mallocn_rawBlocks]
    exact addNew_rawFrom

theorem testOperatorCalloc_rawFrom (ho : st.Outermost) (nmemb size : ℕ) :
    (testOperatorCalloc st env nmemb size).RawFrom st.live := by
  unfold testOperatorCalloc
  rw [if_neg (by simp [ho.2])]
  split_ifs
  · rfl
  · rfl
  · have hlive := mallocn_rawBlocks st nmemb env.raw
    refine Res.RawFrom.cons ?_
    show Res.RawFrom _ (Event.rawBlocks st.live (.mallocn nmemb env.raw))
    rw [← hlive]
    exact addNew_rawFrom

theorem testOperatorNewAligned_rawFrom (ho : st.Outermost) (bThrow : Bool) (align : ℕ) :
    (testOperatorNewAligned st env n type bThrow align).RawFrom st.live := by
  unfold testOperatorNewAligned
  rw [if_neg (by simp [ho.2])]
  by_cases hn : n = 0
  · rw [if_pos hn]
    rfl
  rw [if_neg hn]
  dsimp only
  by_cases hraw : env.raw = 0
  · rw [if_pos hraw]
    rfl
  rw [if_neg hraw]
  have hlive := mallocn_rawBlocks st
    ((n + effectiveAlign align + sizeofVoidPtr) % sizeModulus) env.raw
  cases stdAlign (effectiveAlign align) n env.raw
      ((n + effectiveAlign align + sizeofVoidPtr) % sizeModulus) with
  | none => exact hlive
  | some q =>
    have hadd : (addNewAllocatedMemoryAndCleanOldEntry (st.mallocn env.raw) env type env.raw).RawFrom
        (st.mallocn env.raw).live := addNew_rawFrom
    rw [hlive] at hadd
    exact hadd

theorem reAllocUntracked_rawFrom (st : State) : (reAllocUntracked st env p n bt).RawFrom st.live := by
  unfold reAllocUntracked
  cases env.initialRealloc with
  | some q => rfl
  | none => exact reallocn_rawBlocks { st with traces := _ } p n env.raw

theorem testOperatorReAlloc_rawFrom (ho : st.Outermost) :
    (testOperatorReAlloc st env p n).RawFrom st.live := by
  have hflag : ¬ st.bIsAllocingOrDeallocing = true := by simp [ho.2]
  by_cases hp : p = 0
  · unfold testOperatorReAlloc
    rw [if_neg hflag, if_pos hp]
    exact testOperatorAlloc_rawFrom ho false
  by_cases hn : n = 0
  · unfold testOperatorReAlloc
    rw [if_neg hflag, if_neg hp, if_pos hn]
    exact testOperatorDelete_rawFrom ho .malloc
  rcases testOperatorReAlloc_cases env ho hp hn with ⟨-, hr⟩ | ⟨item, -, -, hr⟩ |
    ⟨item, -, -, -, hr⟩ | ⟨item, -, -, -, -, hr⟩ | ⟨item, pr, -, -, -, -, -, hr⟩ |
    ⟨item, st₁, r, -, -, -, -, hrem, hrr, hr⟩
  · rw [hr]
    exact reAllocUntracked_rawFrom (st.capture env)
  · rw [hr]
    exact initFailure_rawFrom (st.capture env)
  · rw [hr]
    exact initFailure_rawFrom (st.capture env)
  · rw [hr]
    exact reallocn_rawBlocks (st.capture env) item.realAddress n env.raw
  · rw [hr]
    exact reallocn_rawBlocks (st.capture env) item.realAddress n env.raw
  · have hlive : st₁.live = Event.rawBlocks st.live (.reallocn item.realAddress n env.raw) :=
      (removeCorrespondingTrace_live_eq hrem).trans
        (reallocn_rawBlocks (st.capture env) item.realAddress n env.raw)
    rw [hr]
    refine Res.RawFrom.cons ?_
    rw [← hlive, hrr]
    exact addNewNoLock_rawFrom (st₁.setMemoryItem p _)

/-- A call changes the raw blocks as its events say. -/
theorem exportedCall_rawFrom (env : Env) (ho : st.Outermost) (c : ExportedCall) :
    (exportedCall st env c).RawFrom st.live := by
  cases c with
  | newAligned count type bThrow align => exact testOperatorNewAligned_rawFrom ho bThrow align
  | plain c =>
    cases c with
    | alloc count type bThrow => exact testOperatorAlloc_rawFrom ho bThrow
    | calloc nmemb size => exact testOperatorCalloc_rawFrom ho nmemb size
    | reAlloc p n => exact testOperatorReAlloc_rawFrom ho
    | delete p type => exact testOperatorDelete_rawFrom ho type
    | setMaxAllowedAllocInTheSameStack n => rfl

end CrashInvestigator.Tracker
