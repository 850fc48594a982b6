import CrashInvestigator.Reentry.Routines

/-!
# Re-entrancy safety

A call that is made inside another one finds the nesting flag set and makes a single raw request, which
touches neither the flag nor the lock. Control is outside only while the flag is set, callbacks are
invoked in the unlocked parts of a routine, and `InitFunction` runs at most once because the requests
it makes itself go to the pool.
-/

namespace CrashInvestigator.Reentry

open Library.Reentrant
open Tracker (Addr BacktracePtr MemoryType SMemoryItem FailureAction FailureType)

/-! ## The discipline -/

/-- The flags of the backend agree with `s_once_control`. -/
structure Agrees (s : State) : Prop where
  init : s.isInitFunction = true ↔ s.onceControl = .running
  notInited : s.isNotInited = false ↔ s.onceControl = .done

/-- The states in which control may be outside. -/
def Nesting (s : State) : Prop := s.isAllocing = true ∧ Agrees s

/-- What calls do that are made while control is outside: the flag, the lock and a running
`InitFunction` stay as they are. -/
structure Kept (s s' : State) : Prop where
  allocing : s'.isAllocing = s.isAllocing
  locked : s'.isLocked = s.isLocked
  agrees : Agrees s'
  running : s'.onceControl = .running ↔ s.onceControl = .running

/-- The same for the part of a call that may release its lock. -/
structure Kept₀ (s s' : State) : Prop where
  allocing : s'.isAllocing = s.isAllocing
  agrees : Agrees s'
  running : s'.onceControl = .running ↔ s.onceControl = .running

theorem Kept.nesting {s s' : State} (h : Kept s s') (hs : Nesting s) : Nesting s' :=
  ⟨h.allocing.trans hs.1, h.agrees⟩

theorem Kept₀.nesting {s s' : State} (h : Kept₀ s s') (hs : Nesting s) : Nesting s' :=
  ⟨h.allocing.trans hs.1, h.agrees⟩

theorem Kept.trans {s s' s'' : State} (h : Kept s s') (h' : Kept s' s'') : Kept s s'' :=
  ⟨h'.allocing.trans h.allocing, h'.locked.trans h.locked, h'.agrees, h'.running.trans h.running⟩

theorem Kept.refl {s : State} (hs : Nesting s) : Kept s s := ⟨rfl, rfl, hs.2, Iff.rfl⟩

theorem keeps : Keeps Nesting Kept := ⟨fun _ hs => Kept.refl hs, fun _ _ _ h h' => h.trans h'⟩

variable {α β : Type}

/-- `p` hands control out in nesting states only, and it leads from a state with `pre` to `post`. -/
def Does (pre : State → Prop) (post : State → State → Prop) (p : Act α) : Prop :=
  ∀ s Q, Nesting s → pre s → (∀ o s', post s s' → Q o s') → p.wp Nesting Kept Q s

/-- `p` touches neither the flag nor the lock. -/
def Quiet (p : Act α) : Prop := Does (fun _ => True) Kept p

/-- The same where the lock is not held. -/
def Unlocked (p : Act α) : Prop := Does (fun s => s.isLocked = false) Kept p

/-- `p` runs under the lock and may release it. -/
def Locked (p : Act α) : Prop := Does (fun s => s.isLocked = true) Kept₀ p

/-! ## Rules -/

theorem Quiet.unlocked {p : Act α} (h : Quiet p) : Unlocked p :=
  fun s Q hs _ hQ => h s Q hs trivial hQ

theorem Quiet.locked {p : Act α} (h : Quiet p) : Locked p :=
  fun s Q hs _ hQ => h s Q hs trivial fun o s' hk => hQ o s' ⟨hk.allocing, hk.agrees, hk.running⟩

theorem Quiet.pure (a : α) : Quiet (pure a : Act α) := fun _ _ hs _ hQ => hQ _ _ (Kept.refl hs)

theorem Quiet.throw : Quiet (.throw : Act α) := fun _ _ hs _ hQ => hQ _ _ (Kept.refl hs)

theorem Quiet.exit : Quiet (.exit : Act α) := fun _ _ _ _ _ => trivial

theorem Quiet.question (q : Query) : Quiet (question q) :=
  fun _ _ hs _ hQ w => hQ (some w) _ (Kept.refl hs)

theorem Quiet.outside (q : Query) : Quiet (outside q) :=
  fun _ _ hs _ hQ => ⟨hs, fun s' hk w => hQ (some w) s' hk⟩

/-- An update of the tables that leaves the flag alone. -/
theorem Quiet.update {f : Tracker.State → Tracker.State}
    (hf : ∀ t, (f t).bIsAllocingOrDeallocing = t.bIsAllocingOrDeallocing) : Quiet (update f) :=
  fun s _ hs _ hQ => hQ _ _ ⟨hf s.tables, rfl, ⟨hs.2.init, hs.2.notInited⟩, Iff.rfl⟩

theorem Quiet.read {f : State → Act α} (h : ∀ s, Quiet (f s)) : Quiet (Prog.read >>= f) :=
  fun s Q hs _ hQ => h s s Q hs trivial hQ

theorem Unlocked.read {f : State → Act α} (h : ∀ s, Unlocked (f s)) : Unlocked (Prog.read >>= f) :=
  fun s Q hs hl hQ => h s s Q hs hl hQ

theorem Locked.read {f : State → Act α} (h : ∀ s, Locked (f s)) : Locked (Prog.read >>= f) :=
  fun s Q hs hl hQ => h s s Q hs hl hQ

/-- A quiet beginning keeps what the rest needs. -/
theorem Quiet.then {p : Act α} {f : α → Act β} {pre : State → Prop}
    {post : State → State → Prop} (hp : Quiet p) (hpre : ∀ s s', Kept s s' → pre s → pre s')
    (hf : ∀ a, Does pre post (f a)) (hpost : ∀ s s' s'', Kept s s' → post s' s'' → post s s'')
    (hthrow : ∀ s s', Kept s s' → post s s') : Does pre post (p >>= f) := by
  intro s Q hs hl hQ
  refine Prog.wp_bind.mpr (hp s _ hs trivial ?_)
  rintro (_ | a) s' hk
  · exact hQ none s' (hthrow s s' hk)
  · exact hf a s' Q (hk.nesting hs) (hpre s s' hk hl) fun o s'' hk' => hQ o s'' (hpost _ _ _ hk hk')

theorem Quiet.bind {p : Act α} {f : α → Act β} (hp : Quiet p) (hf : ∀ a, Quiet (f a)) :
    Quiet (p >>= f) :=
  hp.then (fun _ _ _ _ => trivial) hf (fun _ _ _ h h' => h.trans h') fun _ _ h => h

theorem Quiet.bindUnlocked {p : Act α} {f : α → Act β} (hp : Quiet p) (hf : ∀ a, Unlocked (f a)) :
    Unlocked (p >>= f) :=
  hp.then (fun _ _ h hl => h.locked.trans hl) hf (fun _ _ _ h h' => h.trans h') fun _ _ h => h

theorem Quiet.bindLocked {p : Act α} {f : α → Act β} (hp : Quiet p) (hf : ∀ a, Locked (f a)) :
    Locked (p >>= f) :=
  hp.then (fun _ _ h hl => h.locked.trans hl) hf
    (fun _ _ _ h h' => ⟨h'.allocing.trans h.allocing, h'.agrees, h'.running.trans h.running⟩)
    fun _ _ h => ⟨h.allocing, h.agrees, h.running⟩

theorem Unlocked.bind {p : Act α} {f : α → Act β} (hp : Unlocked p) (hf : ∀ a, Unlocked (f a)) :
    Unlocked (p >>= f) := by
  intro s Q hs hl hQ
  refine Prog.wp_bind.mpr (hp s _ hs hl ?_)
  rintro (_ | a) s' hk
  · exact hQ none s' hk
  · exact hf a s' Q (hk.nesting hs) (hk.locked.trans hl) fun o s'' hk' => hQ o s'' (hk.trans hk')

/-- A quiet end of a locked part. -/
theorem Locked.bindQuiet {p : Act α} {f : α → Act β} (hp : Locked p) (hf : ∀ a, Quiet (f a)) :
    Locked (p >>= f) := by
  intro s Q hs hl hQ
  refine Prog.wp_bind.mpr (hp s _ hs hl ?_)
  rintro (_ | a) s' hk
  · exact hQ none s' hk
  · refine hf a s' Q (hk.nesting hs) trivial fun o s'' hk' => hQ o s'' ?_
    exact ⟨hk'.allocing.trans hk.allocing, hk'.agrees, hk'.running.trans hk.running⟩

/-- The rest of a locked part after its lock is released. -/
theorem Unlocked.afterUnlock {p : Act α} (hp : Unlocked p) : Locked (unlock >>= fun _ => p) := by
  intro s Q hs _ hQ
  refine hp { s with isLocked := false } Q ⟨hs.1, ⟨hs.2.init, hs.2.notInited⟩⟩ rfl ?_
  intro o s' hk
  exact hQ o s' ⟨hk.allocing, hk.agrees, hk.running⟩

theorem Unlocked.withCleanup {p : Act α} {c : Act Unit} (hp : Unlocked p) (hc : Quiet c) :
    Unlocked (p.withCleanup c) := by
  intro s Q hs hl hQ
  refine Prog.wp_withCleanup (hp s _ hs hl fun o s' hk => ?_)
  exact hc s' _ (hk.nesting hs) trivial fun o' s'' hk' => hQ _ _ (hk.trans hk')

theorem Quiet.replicate {p : Act Unit} (hp : Quiet p) (n : ℕ) : Quiet (p.replicate n) := by
  induction n with
  | zero => exact Quiet.pure ()
  | succ n ih => exact hp.bind fun _ => ih

/-- The scope of a lock, entered where it is not held. -/
theorem Locked.uniqueLock {p : Act α} (hp : Locked p) : Unlocked (uniqueLock p) := by
  intro s Q hs hl hQ
  have hlock : (lock : Act Unit).wp Nesting Kept
      (andThen (fun _ => p.withCleanup unlock) Nesting Kept Q) s := by
    show (if s.isLocked then _ else _ : Act Unit).wp Nesting Kept _ s
    rw [hl]
    refine Prog.wp_withCleanup (hp { s with isLocked := true } _ ⟨hs.1, ⟨hs.2.init, hs.2.notInited⟩⟩
      rfl fun o s' hk => ?_)
    refine hQ _ _ ⟨hk.allocing, hl.symm, ⟨hk.agrees.init, hk.agrees.notInited⟩, hk.running⟩
  exact Prog.wp_bind.mpr hlock

/-! ## The backend -/

/-- `InitFunction` ends inited; its own requests find it running. -/
theorem initFunction_wp {s : State} {Q : Option Unit → State → Prop} (ha : s.isAllocing = true)
    (ho : s.onceControl = .running) (hn : s.isNotInited = true)
    (hQ : ∀ s', s'.isAllocing = s.isAllocing → s'.isLocked = s.isLocked →
      s'.isInitFunction = false → s'.isNotInited = false → Q (some ()) s') :
    initFunction.wp Nesting Kept Q s := by
  have hs₀ : Nesting { s with isInitFunction := true } := by
    refine ⟨ha, ⟨?_, ?_⟩⟩
    · exact iff_of_true rfl ho
    · simp [hn, ho]
  refine ⟨hs₀, fun s₁ h₁ w₁ => ⟨h₁.nesting hs₀, fun s₂ h₂ w₂ => ?_⟩⟩
  have hs₂ := (h₁.trans h₂).nesting hs₀
  refine ⟨hs₂, fun s₃ h₃ w₃ => ⟨h₃.nesting hs₂, fun s₄ h₄ w₄ => ?_⟩⟩
  have hk := ((h₁.trans h₂).trans h₃).trans h₄
  show (finishInit w₁.addr w₃.addr w₄.addr).wp Nesting Kept Q s₄
  unfold finishInit
  split_ifs
  · exact ⟨hk.nesting hs₀, fun _ _ _ => trivial⟩
  · exact hQ _ hk.allocing hk.locked rfl rfl

theorem Quiet.initOnce {s : State} {Q : Option Unit → State → Prop} (hs : Nesting s)
    (hi : s.isInitFunction = false) (hQ : ∀ s', Kept s s' → Q (some ()) s') :
    initOnce.wp Nesting Kept Q s := by
  apply Prog.wp_read.mpr
  cases hn : s.isNotInited with
  | false => exact hQ s (Kept.refl hs)
  | true =>
    have honce : s.onceControl = .notStarted := by
      cases ho : s.onceControl with
      | notStarted => rfl
      | running => simp [hs.2.init.mpr ho] at hi
      | done => simp [hs.2.notInited.mpr ho] at hn
    apply Prog.wp_read.mpr
    rw [honce]
    apply Prog.wp_bind.mpr
    show (initFunction >>= fun _ => _ : Act Unit).wp Nesting Kept Q { s with onceControl := .running }
    apply Prog.wp_bind.mpr
    refine initFunction_wp (s := { s with onceControl := .running }) hs.1 rfl hn ?_
    intro s' ha hl hi' hn'
    refine hQ _ ⟨ha, hl, ⟨?_, ?_⟩, ?_⟩
    · simp [hi']
    · simp [hn']
    · simp [honce]

/-- A raw request is answered by the pool, or by libc after `InitFunction`. -/
theorem Quiet.rawRequest (pool libc : Query) : Quiet (rawRequest pool libc) := by
  intro s Q hs _ hQ
  show (if s.isInitFunction then _ else _ : Act Answer).wp Nesting Kept Q s
  cases hi : s.isInitFunction with
  | true => exact fun w => hQ (some w) s (Kept.refl hs)
  | false =>
    refine Prog.wp_bind.mpr (Quiet.initOnce hs hi fun s' hk => ?_)
    exact ⟨hk.nesting hs, fun s'' hk' w => hQ (some w) s'' (hk.trans hk')⟩

theorem Quiet.mallocn (count : ℕ) : Quiet (mallocn count) :=
  (Quiet.rawRequest _ _).bind fun w => Quiet.pure w.addr

theorem Quiet.callocn (nmemb size : ℕ) : Quiet (callocn nmemb size) :=
  (Quiet.rawRequest _ _).bind fun w => Quiet.pure w.addr

theorem Quiet.reallocn (ptr : Addr) (count : ℕ) : Quiet (reallocn ptr count) :=
  (Quiet.rawRequest _ _).bind fun w => Quiet.pure w.addr

theorem Quiet.freen (block : Block) : Quiet (freen block) :=
  (Quiet.rawRequest _ _).bind fun _ => Quiet.pure ()

/-! ## The parts of the routines -/

theorem Quiet.freeBacktraceData (t : BacktracePtr) : Quiet (freeBacktraceData t) := by
  cases t with
  | none => exact Quiet.pure ()
  | some t =>
    refine (Quiet.freen _).bind fun _ => (Quiet.freen _).bind fun _ => ?_
    exact Quiet.update fun _ => by rfl

theorem Quiet.initBacktraceDataForCurrentStack : Quiet initBacktraceDataForCurrentStack := by
  refine Quiet.read fun s => (Quiet.mallocn _).bind fun pReturn => ?_
  split_ifs
  · exact Quiet.pure _
  · refine (Quiet.outside _).bind fun w => (Quiet.mallocn _).bind fun ppBuffer => ?_
    split_ifs
    · exact (Quiet.freen _).bind fun _ => Quiet.pure _
    · exact (Quiet.update fun _ => by rfl).bind fun _ => Quiet.pure _

theorem Quiet.convertBacktraceToNames (t : BacktracePtr) : Quiet (convertBacktraceToNames t) := by
  cases t with
  | none => exact Quiet.pure ()
  | some t =>
    refine (Quiet.outside _).bind fun ppStrings => ?_
    split_ifs
    · exact Quiet.pure ()
    · exact (Quiet.outside _).bind fun _ => Quiet.freen _

theorem Quiet.convertAll (ts : List BacktracePtr) : Quiet (convertAll ts) := by
  induction ts with
  | nil => exact Quiet.pure ()
  | cons t ts ih => exact (Quiet.convertBacktraceToNames t).bind fun _ => ih

/-- A callback is invoked where the lock is not held. -/
theorem Unlocked.callback (q : Query) : Unlocked (callback q) := by
  intro s Q hs hl hQ
  show (if s.isLocked then _ else _ : Act Answer).wp Nesting Kept Q s
  rw [hl]
  exact Quiet.outside q s Q hs trivial hQ

theorem Unlocked.takeAction (ft : FailureType) (p : Addr) (n : ℕ) (action : FailureAction) :
    Unlocked (takeAction ft p n action) := by
  cases action with
  | unknown => exact (Unlocked.callback _).bind fun _ => Quiet.exit.unlocked
  | makeAction =>
    unfold Reentry.takeAction
    split_ifs
    · exact (Quiet.reallocn p n).unlocked
    · exact ((Quiet.freen _).bind fun _ => Quiet.pure _).unlocked
  | doNotMakeActionToPreventCrash => exact (Quiet.pure _).unlocked
  | exitApp => exact Quiet.exit.unlocked

theorem Unlocked.initFailureDataAndCallClbk (item : SMemoryItem) (freeType : MemoryType) (p : Addr)
    (n : ℕ) (ft : FailureType) (t : BacktracePtr) :
    Unlocked (initFailureDataAndCallClbk item freeType p n ft t) := by
  refine Unlocked.withCleanup (Unlocked.withCleanup ?_ ?_) ?_
  · refine (Quiet.convertAll _).bindUnlocked fun _ => (Unlocked.callback _).bind fun w => ?_
    exact Unlocked.takeAction ft p n w.action
  · exact (Quiet.question _).bind fun w => (Quiet.freeBacktraceData t).replicate w.runs
  · exact (Quiet.outside _).bind fun _ => Quiet.pure ()

theorem Quiet.addEntryWithKnownHash (size : ℕ) {add : Tracker.State → Tracker.State}
    (hadd : ∀ t, (add t).bIsAllocingOrDeallocing = t.bIsAllocingOrDeallocing) :
    Quiet (addEntryWithKnownHash size add) := by
  refine (Quiet.mallocn _).bind fun pItem => ?_
  split_ifs
  · exact Quiet.throw
  · exact Quiet.update hadd

theorem Quiet.registerMemoryItem (p : Addr) (item : SMemoryItem) :
    Quiet (registerMemoryItem p item) := by
  refine Quiet.read fun s => ?_
  cases s.tables.findMemoryItem p with
  | none => exact Quiet.addEntryWithKnownHash _ fun _ => by rfl
  | some old =>
    refine (Quiet.freeBacktraceData _).bind fun _ => (Quiet.freeBacktraceData _).bind fun _ => ?_
    exact Quiet.update fun _ => by rfl

theorem Locked.registerStackItem (item : SMemoryItem) (p : Addr) (t : BacktracePtr) :
    Locked (registerStackItem item p t) := by
  cases t with
  | none => exact Quiet.exit.locked
  | some t =>
    refine Locked.read fun s => ?_
    cases s.tables.findStackItem t with
    | none => exact (Quiet.addEntryWithKnownHash _ fun _ => by rfl).locked
    | some e =>
      dsimp only
      split_ifs
      · refine (Quiet.update fun _ => by rfl).bindLocked fun _ => Unlocked.afterUnlock ?_
        refine (Unlocked.initFailureDataAndCallClbk _ _ _ _ _ _).bind fun _ => ?_
        exact (Quiet.pure ()).unlocked
      · exact ((Quiet.update fun _ => by rfl).bind fun _ => Quiet.pure ()).locked
      · exact (Quiet.pure ()).locked

theorem Locked.addNewAllocatedMemoryAndCleanOldEntryNoLock (type : MemoryType) (p : Addr)
    (t : BacktracePtr) : Locked (addNewAllocatedMemoryAndCleanOldEntryNoLock type p t) := by
  refine (Quiet.registerMemoryItem _ _).bindLocked fun _ => ?_
  exact (Locked.registerStackItem _ _ _).bindQuiet fun _ => Quiet.pure p

theorem Unlocked.addNewAllocatedMemoryAndCleanOldEntry (type : MemoryType) (p : Addr) :
    Unlocked (addNewAllocatedMemoryAndCleanOldEntry type p) := by
  refine Quiet.initBacktraceDataForCurrentStack.bindUnlocked fun t => ?_
  apply Locked.uniqueLock
  exact Locked.addNewAllocatedMemoryAndCleanOldEntryNoLock type p t

/-- The removal of a record's stack touches the counters only. -/
theorem removeCorrespondingTrace_allocing {t t' : Tracker.State} {trace : BacktracePtr}
    (h : Tracker.removeCorrespondingTrace t trace = .ok t') :
    t'.bIsAllocingOrDeallocing = t.bIsAllocingOrDeallocing := by
  unfold Tracker.removeCorrespondingTrace at h
  cases trace with
  | none => cases h
  | some trace =>
    dsimp only at h
    split at h
    · cases h
    · split_ifs at h <;> cases h <;> rfl

theorem Quiet.removeCorrespondingTrace (t : BacktracePtr) : Quiet (removeCorrespondingTrace t) := by
  intro s Q hs _ hQ
  apply Prog.wp_read.mpr
  cases hr : Tracker.removeCorrespondingTrace s.tables t with
  | error e => trivial
  | ok tables =>
    have hk : Kept s { s with tables := tables } :=
      ⟨removeCorrespondingTrace_allocing hr, rfl, ⟨hs.2.init, hs.2.notInited⟩, Iff.rfl⟩
    show (if _ then Reentry.freen .stackItem else Pure.pure () : Act Unit).wp Nesting Kept Q
      { s with tables := tables }
    split_ifs
    · exact Quiet.freen _ _ Q (hk.nesting hs) trivial fun o s' hk' => hQ o s' (hk.trans hk')
    · exact hQ _ _ hk

/-! ## The exported routines -/

theorem Quiet.initHandlerMemory : Quiet initHandlerMemory := by
  refine (Quiet.outside _).bind fun w => ?_
  cases w.handlerMemory with
  | none =>
    exact (Quiet.mallocn _).bind fun _ => (Quiet.outside _).bind fun _ => Quiet.pure ()
  | some item => exact Quiet.freeBacktraceData _

theorem Quiet.nullOrThrow (bThrow : Bool) : Quiet (nullOrThrow bThrow) := by
  cases bThrow with
  | false => exact Quiet.pure 0
  | true => exact Quiet.throw

theorem Quiet.deleteUntracked (p : Addr) : Quiet (deleteUntracked p) := by
  refine (Quiet.question _).bind fun w => ?_
  split_ifs
  · exact Quiet.pure ()
  · exact Quiet.initHandlerMemory.bind fun _ => (Quiet.outside _).bind fun _ => Quiet.pure ()

theorem Quiet.reAllocUntracked (p : Addr) (n : ℕ) : Quiet (reAllocUntracked p n) := by
  refine (Quiet.question _).bind fun w => ?_
  split_ifs
  · exact Quiet.pure w.addr
  · exact Quiet.initHandlerMemory.bind fun _ => (Quiet.outside _).bind fun w => Quiet.pure w.addr

/-- A report that ends a locked block, after the lock is released. -/
theorem Locked.report (item : SMemoryItem) (p : Addr) (n : ℕ) (ft : FailureType) (t : BacktracePtr)
    (f : Addr → β) :
    Locked (unlock >>= fun _ =>
      initFailureDataAndCallClbk item .notProvided p n ft t >>= fun a => (pure (f a) : Act β)) := by
  apply Unlocked.afterUnlock
  exact (Unlocked.initFailureDataAndCallClbk _ _ _ _ _ _).bind fun a => (Quiet.pure _).unlocked

theorem Locked.deleteLocked (p : Addr) (type : MemoryType) (t : BacktracePtr) :
    Locked (deleteLocked p type t) := by
  refine Locked.read fun s => ?_
  cases s.tables.findMemoryItem p with
  | none =>
    apply Unlocked.afterUnlock
    exact ((Quiet.deleteUntracked p).bind fun _ => Quiet.pure none).unlocked
  | some item =>
    dsimp only
    split_ifs
    · exact Locked.report item p 0 .doubleFree t fun _ => none
    · refine (Quiet.removeCorrespondingTrace _).bindLocked fun _ => ?_
      exact Locked.report item p 0 .freeMissmatch t fun _ => none
    · refine (Quiet.removeCorrespondingTrace _).bindLocked fun _ => ?_
      exact ((Quiet.update fun _ => by rfl).bind fun _ => Quiet.pure _).locked

theorem Locked.reAllocLocked (p : Addr) (n : ℕ) (t : BacktracePtr) :
    Locked (reAllocLocked p n t) := by
  refine Locked.read fun s => ?_
  cases s.tables.findMemoryItem p with
  | none =>
    apply Unlocked.afterUnlock
    exact ((Quiet.reAllocUntracked p n).bind fun _ => Quiet.pure _).unlocked
  | some item =>
    dsimp only
    split_ifs
    · exact Locked.report item p n .badReallocCreatedByWrongAlloc t some
    · exact Locked.report item p n .badReallocDeletedMem t some
    · refine (Quiet.reallocn _ _).bindLocked fun pReturn => ?_
      split_ifs
      · exact (Quiet.pure none).locked
      · refine (Quiet.removeCorrespondingTrace _).bindLocked fun _ => ?_
        refine (Quiet.update fun _ => by rfl).bindLocked fun _ => ?_
        refine (Locked.addNewAllocatedMemoryAndCleanOldEntryNoLock _ _ _).bindQuiet fun a => ?_
        exact Quiet.pure (some a)

theorem Quiet.freeReleased (p : Option Addr) : Quiet (freeReleased p) := by
  cases p with
  | none => exact Quiet.pure 0
  | some p => exact (Quiet.freen _).bind fun _ => Quiet.pure 0

theorem Quiet.keepAddress (p : Addr) (t : BacktracePtr) (r : Option Addr) :
    Quiet (keepAddress p t r) := by
  cases r with
  | none => exact (Quiet.freeBacktraceData t).bind fun _ => Quiet.pure p
  | some a => exact Quiet.pure a

theorem Quiet.setMaxAllowedAllocInTheSameStack (n : ℕ) :
    Quiet (setMaxAllowedAllocInTheSameStack n) :=
  Quiet.read fun _ => (Quiet.update fun _ => by rfl).bind fun _ => Quiet.pure _

/-! ## Nested calls -/

/-- A nested call makes one raw request. -/
theorem nested_wp {s : State} {q : Act Addr} {p : State → Act Addr} (hs : Nesting s) (hq : Quiet q) :
    (Prog.read >>= fun s => if s.isAllocing then q else p s).wp Nesting Kept
      (fun _ s' => Nesting s' ∧ Kept s s') s := by
  show (if s.isAllocing then q else p s).wp Nesting Kept _ s
  rw [if_pos hs.1]
  exact hq s _ hs trivial fun _ s' hk => ⟨hk.nesting hs, hk⟩

theorem body_nested (i : Routine) (s : State) (hs : Nesting s) :
    (body i).wp Nesting Kept (fun _ s' => Nesting s' ∧ Kept s s') s := by
  cases i with
  | alloc count type bThrow => exact nested_wp hs (Quiet.mallocn count)
  | calloc nmemb size => exact nested_wp hs (Quiet.callocn nmemb size)
  | reAlloc p count => exact nested_wp hs (Quiet.reallocn p count)
  | newAligned count type bThrow align => exact nested_wp hs (Quiet.mallocn count)
  | delete p type =>
    show (if p = 0 then _ else if s.isAllocing then _ else _ : Act Addr).wp Nesting Kept _ s
    rw [if_pos hs.1]
    split_ifs
    · exact ⟨hs, Kept.refl hs⟩
    · refine ((Quiet.freen (.program p)).bind fun _ => Quiet.pure 0) s _ hs trivial ?_
      exact fun _ s' hk => ⟨hk.nesting hs, hk⟩
  | setMaxAllowedAllocInTheSameStack n =>
    refine Quiet.setMaxAllowedAllocInTheSameStack n s _ hs trivial ?_
    exact fun _ s' hk => ⟨hk.nesting hs, hk⟩

/-! ## Outermost calls -/

/-- The states between two outermost calls. -/
structure Idle (s : State) : Prop where
  allocing : s.isAllocing = false
  locked : s.isLocked = false
  agrees : Agrees s
  running : s.onceControl ≠ .running

/-- What a call leaves as it found it. The lock may be held after a nested call, never after an
outermost one. -/
structure Restores (s s' : State) : Prop where
  allocing : s'.isAllocing = s.isAllocing
  locked : s'.isLocked = s.isLocked
  outermost : s.isAllocing = false → s'.isLocked = false

theorem Idle.restores {s s' : State} (hs : Idle s) (hs' : Idle s') : Restores s s' :=
  ⟨hs'.allocing.trans hs.allocing.symm, hs'.locked.trans hs.locked.symm, fun _ => hs'.locked⟩

theorem Idle.init (ndebug : Bool) : Idle (.init ndebug) := by
  refine ⟨rfl, rfl, ⟨?_, ?_⟩, nofun⟩
  · exact iff_of_false nofun nofun
  · exact iff_of_false nofun nofun

/-- The scope of an `IsAllocingHandler` around an unlocked body. -/
theorem Unlocked.isAllocingHandler {p : Act Addr} (hp : Unlocked p) {s : State} (hs : Idle s) :
    (isAllocingHandler p).wp Nesting Kept (fun _ s' => Idle s' ∧ Restores s s') s := by
  have hset : (p.withCleanup (setAllocing false)).wp Nesting Kept (fun _ s' => Idle s' ∧ Restores s s')
      { s with tables := { s.tables with bIsAllocingOrDeallocing := true } } := by
    apply Prog.wp_withCleanup
    refine hp _ _ ⟨rfl, ⟨hs.agrees.init, hs.agrees.notInited⟩⟩ hs.locked fun o s' hk => ?_
    have hidle : Idle { s' with tables := { s'.tables with bIsAllocingOrDeallocing := false } } :=
      ⟨rfl, hk.locked.trans hs.locked, ⟨hk.agrees.init, hk.agrees.notInited⟩,
        fun hr => hs.running (hk.running.mp hr)⟩
    exact ⟨hidle, hs.restores hidle⟩
  show (if s.isAllocing then p else _ : Act Addr).wp Nesting Kept _ s
  rw [hs.allocing]
  exact hset

theorem Unlocked.nullOrThrow (bThrow : Bool) : Unlocked (nullOrThrow bThrow) :=
  (Quiet.nullOrThrow bThrow).unlocked

/-- An outermost call that is more than its scope does not take the nested branch. -/
theorem outermost_wp {s : State} {q p : Act Addr} (hs : Idle s)
    (hp : p.wp Nesting Kept (fun _ s' => Idle s' ∧ Restores s s') s) :
    (Prog.read >>= fun s => if s.isAllocing then q else p).wp Nesting Kept
      (fun _ s' => Idle s' ∧ Restores s s') s := by
  show (if s.isAllocing then q else p).wp Nesting Kept _ s
  rw [hs.allocing]
  exact hp

theorem testOperatorAlloc_wp (count : ℕ) (type : MemoryType) (bThrow : Bool) {s : State}
    (hs : Idle s) : (testOperatorAlloc count type bThrow).wp Nesting Kept
      (fun _ s' => Idle s' ∧ Restores s s') s := by
  refine outermost_wp hs (Unlocked.isAllocingHandler ?_ hs)
  split_ifs
  · exact Unlocked.nullOrThrow bThrow
  · refine (Quiet.mallocn count).bindUnlocked fun pReturn => ?_
    split_ifs
    · exact Unlocked.nullOrThrow bThrow
    · exact Unlocked.addNewAllocatedMemoryAndCleanOldEntry type pReturn

theorem testOperatorCalloc_wp (nmemb size : ℕ) {s : State} (hs : Idle s) :
    (testOperatorCalloc nmemb size).wp Nesting Kept (fun _ s' => Idle s' ∧ Restores s s') s := by
  refine outermost_wp hs (Unlocked.isAllocingHandler ?_ hs)
  split_ifs
  · exact Unlocked.nullOrThrow false
  · refine (Quiet.callocn nmemb size).bindUnlocked fun pReturn => ?_
    split_ifs
    · exact Unlocked.nullOrThrow false
    · exact Unlocked.addNewAllocatedMemoryAndCleanOldEntry .malloc pReturn

theorem testOperatorNewAligned_wp (count : ℕ) (type : MemoryType) (bThrow : Bool) (align : ℕ)
    {s : State} (hs : Idle s) : (testOperatorNewAligned count type bThrow align).wp Nesting Kept
      (fun _ s' => Idle s' ∧ Restores s s') s := by
  refine outermost_wp hs (Unlocked.isAllocingHandler ?_ hs)
  split_ifs
  · exact Unlocked.nullOrThrow bThrow
  · refine (Quiet.mallocn _).bindUnlocked fun pReturn => ?_
    split_ifs
    · exact Unlocked.nullOrThrow bThrow
    · cases Tracker.stdAlign (Tracker.effectiveAlign align) count pReturn
        ((count + Tracker.effectiveAlign align + Tracker.sizeofVoidPtr) % Tracker.sizeModulus) with
      | none => exact Unlocked.nullOrThrow bThrow
      | some pReturnRet =>
        refine (Unlocked.addNewAllocatedMemoryAndCleanOldEntry type pReturn).bind fun _ => ?_
        exact (Quiet.pure pReturnRet).unlocked

theorem testOperatorDelete_wp (p : Addr) (type : MemoryType) {s : State} (hs : Idle s) :
    (testOperatorDelete p type).wp Nesting Kept (fun _ s' => Idle s' ∧ Restores s s') s := by
  show (if p = 0 then _ else if s.isAllocing then _ else _ : Act Addr).wp Nesting Kept _ s
  have hout : ¬ s.isAllocing = true := by simp [hs.allocing]
  rw [if_neg hout]
  split_ifs
  · exact ⟨hs, hs.restores hs⟩
  · refine Unlocked.isAllocingHandler ?_ hs
    refine Quiet.initBacktraceDataForCurrentStack.bindUnlocked fun t => ?_
    exact (Locked.deleteLocked p type t).uniqueLock.bind fun r => (Quiet.freeReleased r).unlocked

theorem testOperatorReAlloc_wp (p : Addr) (count : ℕ) {s : State} (hs : Idle s) :
    (testOperatorReAlloc p count).wp Nesting Kept (fun _ s' => Idle s' ∧ Restores s s') s := by
  apply outermost_wp hs
  split_ifs
  · exact testOperatorAlloc_wp count .malloc false hs
  · exact testOperatorDelete_wp p .malloc hs
  · refine Unlocked.isAllocingHandler ?_ hs
    refine Quiet.initBacktraceDataForCurrentStack.bindUnlocked fun t => ?_
    refine (Locked.reAllocLocked p count t).uniqueLock.bind fun r => ?_
    exact (Quiet.keepAddress p t r).unlocked

theorem body_outermost (i : Routine) {s : State} (hs : Idle s) :
    (body i).wp Nesting Kept (fun _ s' => Idle s' ∧ Restores s s') s := by
  cases i with
  | alloc count type bThrow => exact testOperatorAlloc_wp count type bThrow hs
  | calloc nmemb size => exact testOperatorCalloc_wp nmemb size hs
  | reAlloc p count => exact testOperatorReAlloc_wp p count hs
  | newAligned count type bThrow align => exact testOperatorNewAligned_wp count type bThrow align hs
  | delete p type => exact testOperatorDelete_wp p type hs
  | setMaxAllowedAllocInTheSameStack n =>
    have hidle : Idle { s with tables :=
        { s.tables with unMaxNumberOfAllocFromTheSameStack := n } } :=
      ⟨hs.allocing, hs.locked, ⟨hs.agrees.init, hs.agrees.notInited⟩, hs.running⟩
    exact ⟨hidle, hs.restores hidle⟩

/-! ## Trees of calls -/

theorem nested_sound (n : ℕ) (t : Tree Routine Answer) (s : State) (hs : Nesting s) :
    Sound Restores Nesting Kept s (runTree body n t s) := by
  refine runTree_sound keeps body_nested ?_ n t s hs
  intro s s' hs hk
  refine ⟨hk.allocing, hk.locked, fun ha => ?_⟩
  rw [hs.1] at ha
  cases ha

theorem outermost_sound (n : ℕ) (t : Tree Routine Answer) (s : State) (hs : Idle s) :
    Sound Restores Idle Restores s (runTree body n t s) := by
  cases n with
  | zero => exact runTree_zero_sound t s
  | succ n =>
    obtain ⟨i, script⟩ := t
    have hbody : (body i).wp Nesting Kept (fun _ s' => Idle s' ∧ Restores s s') s :=
      body_outermost i hs
    exact runTree_of_wp (T := Restores) keeps (nested_sound n) hbody (fun s' h => h) script

theorem idle_keeps : Keeps Idle Restores := by
  refine ⟨fun s hs => hs.restores hs, fun s s' s'' h h' => ?_⟩
  refine ⟨h'.allocing.trans h.allocing, h'.locked.trans h.locked, fun ha => ?_⟩
  exact h'.outermost (h.allocing.trans ha)

/-- Over every sequence of outermost calls with any calls inside them, to any depth: nothing that must
not happen happens, and every call that ends leaves the flag and the lock as it found them, an
outermost one with the lock released. -/
theorem calls_reentrant (ndebug : Bool) (n : ℕ) (ts : List (Tree Routine Answer)) :
    (∀ v, (runCalls (runTree body n) ts (.init ndebug)).outcome ≠ .faulted v) ∧
      ∀ e ∈ (runCalls (runTree body n) ts (.init ndebug)).ended, Restores e.1 e.2 := by
  have hsound := runCalls_sound idle_keeps (outermost_sound n) ts (Idle.init ndebug)
  obtain ⟨hfault, hended, -⟩ := hsound
  exact ⟨hfault, hended⟩

/-- An answer with a block. -/
def Answer.block (a : Addr) : Answer := ⟨a, true, [a], .doNotMakeActionToPreventCrash, none, 0⟩

/-- `dlsym`, four times, and the block of an `operator new`; then the captured stack, and the item of
the record, before which the raw allocator calls `malloc` itself. -/
def nestedUnderLock : Tree Routine Answer :=
  .node (.alloc 8 .new false)
    [([], .block 16), ([], .block 16), ([], .block 16), ([], .block 16), ([], .block 32),
      ([], .block 48), ([], .block 64), ([], .block 80),
      ([.node (.alloc 8 .malloc false) [([], .block 96)]], .block 112), ([], .block 128)]

/-- A nested call that a request under the lock makes ends with the lock held. -/
theorem nested_call_ends_locked :
    (runCalls (runTree body 2) [nestedUnderLock] (.init false)).outcome = .returned () ∧
      ∃ e ∈ (runCalls (runTree body 2) [nestedUnderLock] (.init false)).ended,
        e.2.isLocked = true := by
  decide

end CrashInvestigator.Reentry
