import CrashInvestigator.Reentry.Signals

/-!
# What signals can do

After the first call a signal is never noticed: the interrupted call does what it does alone. During
the first call one that arrives between the start of `pthread_once` and the first statement of
`InitFunction` enters `pthread_once` again.
-/

namespace CrashInvestigator.Reentry

open Library.Reentrant
open Tracker (Addr BacktracePtr MemoryType SMemoryItem FailureAction FailureType)

variable {α β : Type} {s : State}

theorem Inited.agrees (hs : Inited s) : Agrees s := by
  refine ⟨?_, iff_of_true hs.notInited hs.once⟩
  exact iff_of_false (by simp [hs.initFunction]) (by simp [hs.once])

theorem Inited.of_agrees (hs : Agrees s) (honce : s.onceControl = .done) : Inited s := by
  refine ⟨honce, ?_, hs.notInited.mpr honce⟩
  cases hi : s.isInitFunction with
  | false => rfl
  | true =>
    have hrunning := hs.init.mp hi
    rw [honce] at hrunning
    cases hrunning

/-! ## The routines leave the backend inited -/

/-- `p` started where the backend is inited leaves it so. -/
def Steady (p : Act α) : Prop := p.StaysIn Inited

theorem Steady.pure (a : α) : Steady (pure a : Act α) := trivial

theorem Steady.bind {p : Act α} {f : α → Act β} (hp : Steady p) (hf : ∀ a, Steady (f a)) :
    Steady (p >>= f) :=
  Prog.StaysIn.bind hp hf

theorem Steady.read {f : State → Act α} (hf : ∀ s, Inited s → Steady (f s)) :
    Steady (Prog.read >>= f) := hf

theorem Steady.question (q : Query) : Steady (question q) := fun _ => trivial

theorem Steady.outside (q : Query) : Steady (outside q) := fun _ => trivial

theorem Steady.update (f : Tracker.State → Tracker.State) : Steady (update f) :=
  Prog.StaysIn.modify fun _ hs => ⟨hs.once, hs.initFunction, hs.notInited⟩

theorem Steady.unlock : Steady unlock :=
  Prog.StaysIn.modify fun _ hs => ⟨hs.once, hs.initFunction, hs.notInited⟩

theorem Steady.lock : Steady lock := by
  refine Steady.read fun s hs => ?_
  split_ifs
  · trivial
  · exact Prog.StaysIn.modify fun _ hs => ⟨hs.once, hs.initFunction, hs.notInited⟩

theorem Steady.uniqueLock {p : Act α} (hp : Steady p) : Steady (uniqueLock p) :=
  Steady.lock.bind fun _ => Prog.StaysIn.withCleanup hp Steady.unlock

theorem Steady.isAllocingHandler {p : Act α} (hp : Steady p) : Steady (isAllocingHandler p) := by
  refine Steady.read fun s _ => ?_
  split_ifs
  · exact hp
  · exact (Steady.update _).bind fun _ => Prog.StaysIn.withCleanup hp (Steady.update _)

theorem Steady.initOnce : Steady initOnce := by
  refine Steady.read fun s hs => ?_
  rw [if_neg (by simp [hs.notInited])]
  trivial

theorem Steady.rawRequest (pool libc : Query) : Steady (rawRequest pool libc) := by
  refine Steady.read fun s hs => ?_
  rw [if_neg (by simp [hs.initFunction])]
  exact Steady.initOnce.bind fun _ => Steady.outside libc

theorem Steady.mallocn (count : ℕ) : Steady (mallocn count) :=
  (Steady.rawRequest _ _).bind fun _ => Steady.pure _

theorem Steady.callocn (nmemb size : ℕ) : Steady (callocn nmemb size) :=
  (Steady.rawRequest _ _).bind fun _ => Steady.pure _

theorem Steady.reallocn (ptr : Addr) (count : ℕ) : Steady (reallocn ptr count) :=
  (Steady.rawRequest _ _).bind fun _ => Steady.pure _

theorem Steady.freen (block : Block) : Steady (freen block) :=
  (Steady.rawRequest _ _).bind fun _ => Steady.pure _

theorem Steady.freeBacktraceData (t : BacktracePtr) : Steady (freeBacktraceData t) := by
  cases t with
  | none => exact Steady.pure ()
  | some t =>
    exact (Steady.freen _).bind fun _ => (Steady.freen _).bind fun _ => Steady.update _

theorem Steady.initBacktraceDataForCurrentStack : Steady initBacktraceDataForCurrentStack := by
  refine Steady.read fun s _ => (Steady.mallocn _).bind fun pReturn => ?_
  split_ifs
  · exact Steady.pure _
  · refine (Steady.outside _).bind fun w => (Steady.mallocn _).bind fun ppBuffer => ?_
    split_ifs
    · exact (Steady.freen _).bind fun _ => Steady.pure _
    · exact (Steady.update _).bind fun _ => Steady.pure _

theorem Steady.convertBacktraceToNames (t : BacktracePtr) :
    Steady (convertBacktraceToNames t) := by
  cases t with
  | none => exact Steady.pure ()
  | some t =>
    refine (Steady.outside _).bind fun ppStrings => ?_
    split_ifs
    · exact Steady.pure ()
    · exact (Steady.outside _).bind fun _ => Steady.freen _

theorem Steady.convertAll (ts : List BacktracePtr) : Steady (convertAll ts) := by
  induction ts with
  | nil => exact Steady.pure ()
  | cons t ts ih => exact (Steady.convertBacktraceToNames t).bind fun _ => ih

theorem Steady.callback (q : Query) : Steady (callback q) := by
  refine Steady.read fun s _ => ?_
  split_ifs
  · trivial
  · exact Steady.outside q

theorem Steady.takeAction (ft : FailureType) (p : Addr) (n : ℕ) (action : FailureAction) :
    Steady (takeAction ft p n action) := by
  cases action with
  | unknown => exact (Steady.callback _).bind fun _ => trivial
  | makeAction =>
    unfold Reentry.takeAction
    split_ifs
    · exact Steady.reallocn p n
    · exact (Steady.freen _).bind fun _ => Steady.pure _
  | doNotMakeActionToPreventCrash => exact Steady.pure _
  | exitApp => trivial

theorem Steady.initFailureDataAndCallClbk (item : SMemoryItem) (freeType : MemoryType) (p : Addr)
    (n : ℕ) (ft : FailureType) (t : BacktracePtr) :
    Steady (initFailureDataAndCallClbk item freeType p n ft t) := by
  refine Prog.StaysIn.withCleanup (Prog.StaysIn.withCleanup ?_ ?_) ?_
  · refine (Steady.convertAll _).bind fun _ => (Steady.callback _).bind fun w => ?_
    exact Steady.takeAction ft p n w.action
  · refine (Steady.question _).bind fun w => ?_
    exact Prog.StaysIn.replicate (Steady.freeBacktraceData t) w.runs
  · exact (Steady.outside _).bind fun _ => Steady.pure ()

theorem Steady.addEntryWithKnownHash (size : ℕ) (add : Tracker.State → Tracker.State) :
    Steady (addEntryWithKnownHash size add) := by
  refine (Steady.mallocn _).bind fun pItem => ?_
  split_ifs
  · trivial
  · exact Steady.update add

theorem Steady.registerMemoryItem (p : Addr) (item : SMemoryItem) :
    Steady (registerMemoryItem p item) := by
  refine Steady.read fun s _ => ?_
  cases s.tables.findMemoryItem p with
  | none => exact Steady.addEntryWithKnownHash _ _
  | some old =>
    refine (Steady.freeBacktraceData _).bind fun _ => (Steady.freeBacktraceData _).bind fun _ => ?_
    exact Steady.update _

theorem Steady.registerStackItem (item : SMemoryItem) (p : Addr) (t : BacktracePtr) :
    Steady (registerStackItem item p t) := by
  cases t with
  | none => trivial
  | some t =>
    refine Steady.read fun s _ => ?_
    cases s.tables.findStackItem t with
    | none => exact Steady.addEntryWithKnownHash _ _
    | some e =>
      dsimp only
      split_ifs
      · refine (Steady.update _).bind fun _ => Steady.unlock.bind fun _ => ?_
        exact (Steady.initFailureDataAndCallClbk _ _ _ _ _ _).bind fun _ => Steady.pure ()
      · exact (Steady.update _).bind fun _ => Steady.pure ()
      · exact Steady.pure ()

theorem Steady.addNewAllocatedMemoryAndCleanOldEntryNoLock (type : MemoryType) (p : Addr)
    (t : BacktracePtr) : Steady (addNewAllocatedMemoryAndCleanOldEntryNoLock type p t) := by
  refine (Steady.registerMemoryItem _ _).bind fun _ => ?_
  exact (Steady.registerStackItem _ _ _).bind fun _ => Steady.pure p

theorem Steady.addNewAllocatedMemoryAndCleanOldEntry (type : MemoryType) (p : Addr) :
    Steady (addNewAllocatedMemoryAndCleanOldEntry type p) :=
  Steady.initBacktraceDataForCurrentStack.bind fun t =>
    (Steady.addNewAllocatedMemoryAndCleanOldEntryNoLock type p t).uniqueLock

theorem Steady.removeCorrespondingTrace (t : BacktracePtr) :
    Steady (removeCorrespondingTrace t) := by
  refine Steady.read fun s _ => ?_
  cases Tracker.removeCorrespondingTrace s.tables t with
  | error e => trivial
  | ok tables =>
    refine (Steady.update _).bind fun _ => ?_
    split_ifs
    · exact Steady.freen _
    · exact Steady.pure ()

theorem Steady.initHandlerMemory : Steady initHandlerMemory := by
  refine (Steady.outside _).bind fun w => ?_
  cases w.handlerMemory with
  | none =>
    exact (Steady.mallocn _).bind fun _ => (Steady.outside _).bind fun _ => Steady.pure ()
  | some item => exact Steady.freeBacktraceData _

theorem Steady.nullOrThrow (bThrow : Bool) : Steady (nullOrThrow bThrow) := by
  cases bThrow with
  | false => exact Steady.pure 0
  | true => trivial

theorem Steady.deleteUntracked (p : Addr) : Steady (deleteUntracked p) := by
  refine (Steady.question _).bind fun w => ?_
  split_ifs
  · exact Steady.pure ()
  · exact Steady.initHandlerMemory.bind fun _ => (Steady.outside _).bind fun _ => Steady.pure ()

theorem Steady.reAllocUntracked (p : Addr) (n : ℕ) : Steady (reAllocUntracked p n) := by
  refine (Steady.question _).bind fun w => ?_
  split_ifs
  · exact Steady.pure w.addr
  · exact Steady.initHandlerMemory.bind fun _ => (Steady.outside _).bind fun _ => Steady.pure _

theorem Steady.deleteLocked (p : Addr) (type : MemoryType) (t : BacktracePtr) :
    Steady (deleteLocked p type t) := by
  refine Steady.read fun s _ => ?_
  cases s.tables.findMemoryItem p with
  | none =>
    exact Steady.unlock.bind fun _ => (Steady.deleteUntracked p).bind fun _ => Steady.pure none
  | some item =>
    dsimp only
    split_ifs
    · refine Steady.unlock.bind fun _ => ?_
      exact (Steady.initFailureDataAndCallClbk _ _ _ _ _ _).bind fun _ => Steady.pure none
    · refine (Steady.removeCorrespondingTrace _).bind fun _ => Steady.unlock.bind fun _ => ?_
      exact (Steady.initFailureDataAndCallClbk _ _ _ _ _ _).bind fun _ => Steady.pure none
    · refine (Steady.removeCorrespondingTrace _).bind fun _ => ?_
      exact (Steady.update _).bind fun _ => Steady.pure _

theorem Steady.reAllocLocked (p : Addr) (n : ℕ) (t : BacktracePtr) :
    Steady (reAllocLocked p n t) := by
  refine Steady.read fun s _ => ?_
  cases s.tables.findMemoryItem p with
  | none =>
    exact Steady.unlock.bind fun _ => (Steady.reAllocUntracked p n).bind fun _ => Steady.pure _
  | some item =>
    dsimp only
    split_ifs
    · refine Steady.unlock.bind fun _ => ?_
      exact (Steady.initFailureDataAndCallClbk _ _ _ _ _ _).bind fun _ => Steady.pure _
    · refine Steady.unlock.bind fun _ => ?_
      exact (Steady.initFailureDataAndCallClbk _ _ _ _ _ _).bind fun _ => Steady.pure _
    · refine (Steady.reallocn _ _).bind fun pReturn => ?_
      split_ifs
      · exact Steady.pure none
      · refine (Steady.removeCorrespondingTrace _).bind fun _ => ?_
        refine (Steady.update _).bind fun _ => ?_
        refine (Steady.addNewAllocatedMemoryAndCleanOldEntryNoLock _ _ _).bind fun _ => ?_
        exact Steady.pure _

theorem Steady.freeReleased (p : Option Addr) : Steady (freeReleased p) := by
  cases p with
  | none => exact Steady.pure 0
  | some p => exact (Steady.freen _).bind fun _ => Steady.pure 0

theorem Steady.keepAddress (p : Addr) (t : BacktracePtr) (r : Option Addr) :
    Steady (keepAddress p t r) := by
  cases r with
  | none => exact (Steady.freeBacktraceData t).bind fun _ => Steady.pure p
  | some a => exact Steady.pure a

theorem Steady.testOperatorAlloc (count : ℕ) (type : MemoryType) (bThrow : Bool) :
    Steady (testOperatorAlloc count type bThrow) := by
  refine Steady.read fun s _ => ?_
  split_ifs
  · exact Steady.mallocn count
  · exact Steady.isAllocingHandler (Steady.nullOrThrow bThrow)
  · refine Steady.isAllocingHandler ((Steady.mallocn count).bind fun pReturn => ?_)
    split_ifs
    · exact Steady.nullOrThrow bThrow
    · exact Steady.addNewAllocatedMemoryAndCleanOldEntry type pReturn

theorem Steady.testOperatorCalloc (nmemb size : ℕ) : Steady (testOperatorCalloc nmemb size) := by
  refine Steady.read fun s _ => ?_
  split_ifs
  · exact Steady.callocn nmemb size
  · exact Steady.isAllocingHandler (Steady.nullOrThrow false)
  · refine Steady.isAllocingHandler ((Steady.callocn nmemb size).bind fun pReturn => ?_)
    split_ifs
    · exact Steady.nullOrThrow false
    · exact Steady.addNewAllocatedMemoryAndCleanOldEntry .malloc pReturn

theorem Steady.testOperatorNewAligned (count : ℕ) (type : MemoryType) (bThrow : Bool) (align : ℕ) :
    Steady (testOperatorNewAligned count type bThrow align) := by
  refine Steady.read fun s _ => ?_
  split_ifs
  · exact Steady.mallocn count
  · exact Steady.isAllocingHandler (Steady.nullOrThrow bThrow)
  · refine Steady.isAllocingHandler ((Steady.mallocn _).bind fun pReturn => ?_)
    split_ifs
    · exact Steady.nullOrThrow bThrow
    · cases Tracker.stdAlign (Tracker.effectiveAlign align) count pReturn
        ((count + Tracker.effectiveAlign align + Tracker.sizeofVoidPtr) % Tracker.sizeModulus) with
      | none => exact Steady.nullOrThrow bThrow
      | some pReturnRet =>
        refine (Steady.addNewAllocatedMemoryAndCleanOldEntry type pReturn).bind fun _ => ?_
        exact Steady.pure pReturnRet

theorem Steady.testOperatorDelete (p : Addr) (type : MemoryType) :
    Steady (testOperatorDelete p type) := by
  refine Steady.read fun s _ => ?_
  split_ifs
  · exact Steady.pure 0
  · exact (Steady.freen _).bind fun _ => Steady.pure 0
  · refine Steady.isAllocingHandler (Steady.initBacktraceDataForCurrentStack.bind fun t => ?_)
    exact (Steady.deleteLocked p type t).uniqueLock.bind fun r => Steady.freeReleased r

theorem Steady.testOperatorReAlloc (p : Addr) (count : ℕ) :
    Steady (testOperatorReAlloc p count) := by
  refine Steady.read fun s _ => ?_
  split_ifs
  · exact Steady.reallocn p count
  · exact Steady.testOperatorAlloc count .malloc false
  · exact Steady.testOperatorDelete p .malloc
  · refine Steady.isAllocingHandler (Steady.initBacktraceDataForCurrentStack.bind fun t => ?_)
    exact (Steady.reAllocLocked p count t).uniqueLock.bind fun r => Steady.keepAddress p t r

theorem Steady.body (i : Routine) : Steady (body i) := by
  cases i with
  | alloc count type bThrow => exact Steady.testOperatorAlloc count type bThrow
  | calloc nmemb size => exact Steady.testOperatorCalloc nmemb size
  | reAlloc p count => exact Steady.testOperatorReAlloc p count
  | newAligned count type bThrow align =>
    exact Steady.testOperatorNewAligned count type bThrow align
  | delete p type => exact Steady.testOperatorDelete p type
  | setMaxAllowedAllocInTheSameStack n =>
    exact Steady.read fun s _ => (Steady.update _).bind fun _ => Steady.pure _

/-! ## Nested calls change nothing -/

/-- A call that is cut, or answers and changes nothing. -/
def Answers (s : State) (r : Result State Violation Addr) : Prop :=
  r.outcome = .cut ∨ (∃ a, r.outcome = .returned a) ∧ r.st = s

/-- A raw request alone is a question to libc. -/
theorem rawRequest_alone {ι : Type} (call : Tree ι Answer → State → Result State Violation Unit)
    (hs : Inited s) {pool libc : Query} {f : Answer → Addr} (ws : List Answer) :
    Answers s (runProg call (rawRequest pool libc >>= fun w => pure (f w)) (bare ws) s) := by
  have hrun : runProg call (rawRequest pool libc >>= fun w => pure (f w)) (bare ws) s =
      runProg call (outside libc >>= fun w => pure (f w)) (bare ws) s := by
    show runProg call (((if s.isInitFunction then _ else _) : Act Answer).bind _) _ s = _
    rw [if_neg (by simp [hs.initFunction])]
    show runProg call ((((if s.isNotInited then _ else _) : Act Unit).bind _).bind _) _ s = _
    rw [if_neg (by simp [hs.notInited])]
    rfl
  rw [hrun]
  cases ws with
  | nil => exact Or.inl rfl
  | cons w ws => exact Or.inr ⟨⟨f w, rfl⟩, rfl⟩

/-- A nested call alone makes its raw request. -/
theorem body_alone {ι : Type} (call : Tree ι Answer → State → Result State Violation Unit)
    (hs : Inited s) (hflag : s.isAllocing = true) {i : Routine} (hi : i.Allocates)
    (ws : List Answer) : Answers s (runProg call (body i) (bare ws) s) := by
  have hnested : ∀ {q : Act Addr} {p : State → Act Addr},
      Answers s (runProg call q (bare ws) s) →
      Answers s
        (runProg call (Prog.read >>= fun s => if s.isAllocing then q else p s) (bare ws) s) := by
    intro q p hq
    show Answers s (runProg call (if s.isAllocing then q else p s) _ s)
    rwa [if_pos hflag]
  cases i with
  | alloc count type bThrow => exact hnested (rawRequest_alone call hs ws)
  | calloc nmemb size => exact hnested (rawRequest_alone call hs ws)
  | reAlloc p count => exact hnested (rawRequest_alone call hs ws)
  | newAligned count type bThrow align => exact hnested (rawRequest_alone call hs ws)
  | delete p type =>
    show Answers s (runProg call (if p = 0 then _ else if s.isAllocing then _ else _) _ s)
    rw [if_pos hflag]
    split_ifs
    · exact Or.inr ⟨⟨0, rfl⟩, rfl⟩
    · have hfreen : (freen (.program p) >>= fun _ => pure 0 : Act Addr) =
          (rawRequest (.poolDealloc (.program p)) (.origFree (.program p)) >>= fun _ => pure 0) :=
        Prog.bind_assoc _ _ _
      rw [hfreen]
      exact rawRequest_alone call hs ws
  | setMaxAllowedAllocInTheSameStack n => exact hi.elim

/-- By induction on the depth: the calls inside a nested call change nothing, so it ends as it does
alone. -/
theorem nested_absorbed (n : ℕ) (hs : Inited s) (hflag : s.isAllocing = true)
    (t : Tree AllocRoutine Answer) : Absorbed s (runTree interruptible n t s) := by
  induction n generalizing s t with
  | zero => exact Or.inl rfl
  | succ n ih =>
    obtain ⟨⟨i, hi⟩, script⟩ := t
    have hnesting : Nesting s := ⟨hflag, hs.agrees⟩
    have hends : EndsAlone (η := Routine) (body i) script s
        (runProg (runTree interruptible n) (interruptible ⟨i, hi⟩) script s) :=
      endsAlone (fun _ h => h.1) keeps (fun s hs hflag t => ih hs hflag t) (Steady.body i) hs
        (body_nested i s hnesting) script
    rcases hends with hcut | ⟨ws, -, hsame⟩
    · exact Or.inl (runTree_cut hcut)
    · obtain ⟨hout, hst⟩ := hsame (runTree body 0)
      rcases body_alone (runTree body 0) hs hflag hi ws with hcut | ⟨⟨a, ha⟩, hst'⟩
      · exact Or.inl (runTree_cut (hout.trans hcut))
      · have hret := runTree_returned (hout.trans ha)
        exact Or.inr ⟨Or.inl hret, runTree_st.trans (hst.trans hst')⟩

/-! ## Outermost calls -/

/-- The states between two outermost calls after the first one. -/
def Settled (s : State) : Prop := Idle s ∧ Inited s

/-- One outermost call with signals is one without. -/
theorem call_undisturbed (n : ℕ) (hs : Settled s) (t : Tree AllocRoutine Answer) :
    (runTree interruptible n t s).outcome = .cut ∨ ∃ t', Undisturbed t t' ∧
      SameEnd (runTree interruptible n t s) (runTree body 1 t' s) ∧
      (runTree body 1 t' s).st.onceControl = .done := by
  cases n with
  | zero => exact Or.inl rfl
  | succ n =>
    obtain ⟨⟨i, hi⟩, script⟩ := t
    have hends : EndsAlone (η := Routine) (body i) script s
        (runProg (runTree interruptible n) (interruptible ⟨i, hi⟩) script s) :=
      endsAlone (fun _ h => h.1) keeps (fun s hs hflag t => nested_absorbed n hs hflag t)
        (Steady.body i) hs.2 (body_outermost i hs.1) script
    rcases hends with hcut | ⟨ws, hws, hsame⟩
    · exact Or.inl (runTree_cut hcut)
    · refine Or.inr ⟨.node i (bare ws), ⟨ws, hws, rfl⟩, (hsame (runTree body 0)).runTree, ?_⟩
      rw [runTree_st]
      exact ((Steady.body i).ends ws hs.2).once

theorem exists_undisturbed (ts : List (Tree AllocRoutine Answer)) :
    ∃ ts', List.Forall₂ Undisturbed ts ts' := by
  induction ts with
  | nil => exact ⟨[], List.Forall₂.nil⟩
  | cons t ts ih =>
    obtain ⟨i, script⟩ := t
    obtain ⟨ts', hts⟩ := ih
    exact ⟨.node i.1 (bare []) :: ts', List.Forall₂.cons ⟨[], List.nil_sublist _, rfl⟩ hts⟩

/-- Calls from a settled state: cut, or the undisturbed calls end in the same way. -/
theorem calls_undisturbed (n : ℕ) (ts : List (Tree AllocRoutine Answer)) (hs : Settled s) :
    (runCalls (runTree interruptible n) ts s).outcome = .cut ∨
      ∃ ts', List.Forall₂ Undisturbed ts ts' ∧
        SameEnd (runCalls (runTree interruptible n) ts s) (runCalls (runTree body 1) ts' s) := by
  induction ts generalizing s with
  | nil => exact Or.inr ⟨[], List.Forall₂.nil, rfl, rfl⟩
  | cons t ts ih =>
    rcases call_undisturbed n hs t with hcut | ⟨t', ht, hsame, hdone⟩
    · refine Or.inl ?_
      rw [runCalls, hcut]
    · obtain ⟨-, -, hgoes⟩ := outermost_sound 1 t' s hs.1
      by_cases hr : Goes (runTree body 1 t' s)
      · have hr' : Goes (runTree interruptible n t s) := by
          unfold Goes
          rw [hsame.1]
          exact hr
        have hfirst := runCalls_goes hr' ts
        rw [hsame.2] at hfirst
        have hset : Settled (runTree body 1 t' s).st :=
          ⟨(hgoes hr).1, Inited.of_agrees (hgoes hr).1.agrees hdone⟩
        rcases ih hset with hcut | ⟨ts', hts, hrest⟩
        · exact Or.inl (hfirst.1.trans hcut)
        · refine Or.inr ⟨t' :: ts', List.Forall₂.cons ht hts, ?_⟩
          exact (hfirst.trans hrest).trans (runCalls_goes hr ts').symm
      · have hr' : ¬ Goes (runTree interruptible n t s) := by
          unfold Goes
          rw [hsame.1]
          exact hr
        obtain ⟨rest, hrest⟩ := exists_undisturbed ts
        refine Or.inr ⟨t' :: rest, List.Forall₂.cons ht hrest, ?_⟩
        exact ((runCalls_stops hr' ts).trans hsame).trans (runCalls_stops hr rest).symm

/-- Over every sequence of calls after the first one, with signals at any access of them and calls
inside them, to any depth: the sequence ends as the same calls do with no signal and no call inside,
given some of the same answers. -/
theorem signals_unnoticed (n : ℕ) (ts : List (Tree AllocRoutine Answer)) (hs : Idle s)
    (hdone : s.onceControl = .done) :
    (runCalls (runTree interruptible n) ts s).outcome = .cut ∨
      ∃ ts', List.Forall₂ Undisturbed ts ts' ∧
        SameEnd (runCalls (runTree interruptible n) ts s) (runCalls (runTree body 1) ts' s) :=
  calls_undisturbed n ts ⟨hs, Inited.of_agrees hs.agrees hdone⟩

/-- The state after `InitFunction`. -/
def State.inited (ndebug : Bool) : State :=
  { State.init ndebug with isNotInited := false, onceControl := .done }

theorem Idle.inited (ndebug : Bool) : Idle (.inited ndebug) := by
  refine ⟨rfl, rfl, ⟨?_, iff_of_true rfl rfl⟩, nofun⟩
  exact iff_of_false nofun nofun

/-- A signal in `operator new` while it records its block. -/
def signalUnderLock : Tree AllocRoutine Answer :=
  .node ⟨.alloc 8 .new false, trivial⟩
    (List.replicate 20 quietLine ++ ([handlerAllocates], .block 16) :: List.replicate 12 quietLine)

theorem signals_unnoticed_underLock :
    ((runCalls (runTree interruptible 2) [signalUnderLock] (.inited false)).outcome = .returned () ∧
      ∃ e ∈ (runCalls (runTree interruptible 2) [signalUnderLock] (.inited false)).ended,
        e.1.isLocked = true) ∧
    ((runCalls (runTree interruptible 2) [signalUnderLock] (.inited false)).outcome = .cut ∨
      ∃ ts', List.Forall₂ Undisturbed [signalUnderLock] ts' ∧
        SameEnd (runCalls (runTree interruptible 2) [signalUnderLock] (.inited false))
          (runCalls (runTree body 1) ts' (.inited false))) :=
  ⟨by decide, signals_unnoticed 2 [signalUnderLock] (Idle.inited false) rfl⟩

/-! ## The first call -/

/-- The first `operator new`, with a signal between the start of `pthread_once` and the first
statement of `InitFunction`. -/
def signalDuringOnce : Tree AllocRoutine Answer :=
  .node ⟨.alloc 8 .new false, trivial⟩
    [quietLine, quietLine, quietLine, quietLine, ([handlerAllocates], .block 16)]

theorem signalDuringOnce_faults (hs : Idle s) (hstart : s.onceControl = .notStarted) :
    (runTree interruptible 2 signalDuringOnce s).outcome = .faulted .initReentered := by
  have hinit : s.isInitFunction = false := by
    cases hi : s.isInitFunction with
    | false => rfl
    | true =>
      have hrunning := hs.agrees.init.mp hi
      rw [hstart] at hrunning
      cases hrunning
  have hinited : s.isNotInited = true := by
    cases hn : s.isNotInited with
    | true => rfl
    | false =>
      have hdone := hs.agrees.notInited.mp hn
      rw [hstart] at hdone
      cases hdone
  have hflag := hs.allocing
  obtain ⟨tables, isLocked, isInitFunction, isNotInited, onceControl⟩ := s
  obtain ⟨memoryItems, stackItems, limit, flag, traces, live, ndebug, process⟩ := tables
  cases hinit
  cases hinited
  cases hstart
  cases hflag
  rfl

/-- Between two outermost calls: no sequence of calls with signals goes wrong exactly if the backend
is inited. -/
theorem signal_safe_iff (hs : Idle s) :
    (∀ n ts v, (runCalls (runTree interruptible n) ts s).outcome ≠ .faulted v) ↔
      s.onceControl = .done := by
  constructor
  · intro hsafe
    cases ho : s.onceControl with
    | notStarted =>
      have hfault := signalDuringOnce_faults hs ho
      refine absurd ?_ (hsafe 2 [signalDuringOnce] .initReentered)
      rw [runCalls, hfault]
    | running => exact absurd ho hs.running
    | done => rfl
  · intro hdone n ts v hv
    have hset : Settled s := ⟨hs, Inited.of_agrees hs.agrees hdone⟩
    rcases calls_undisturbed n ts hset with hcut | ⟨ts', -, hout, -⟩
    · rw [hv] at hcut
      cases hcut
    · obtain ⟨hfault, -⟩ := runCalls_sound idle_keeps (outermost_sound 1) ts' hs
      exact hfault v (hout.symm.trans hv)

theorem signal_safe_iff_started :
    ¬ ∀ n ts v, (runCalls (runTree interruptible n) ts (.init false)).outcome ≠ .faulted v :=
  fun hsafe => absurd ((signal_safe_iff (Idle.init false)).mp hsafe) (by decide)

end CrashInvestigator.Reentry
