import CrashInvestigator.Tracker.Proofs.RawBlockProofs
import CrashInvestigator.Reentry.Refinement
import CrashInvestigator.Reentry.Proofs.SignalProofs

/-!
# What the parts of a call do to the tables

A call in which nothing comes back changed from outside: each part of it ends as that part of the
tracker model does, for answers of the environment that are read off the answers to its questions.
-/

namespace CrashInvestigator.Reentry

open Library Library.Reentrant
open Tracker (Addr Backtrace BacktracePtr MemoryType SMemoryItem FailureAction FailureType)

variable {α β : Type} {s : State} {st st₁ : Tracker.State} {locked : Bool}

/-- Nothing comes back changed from outside, and `p` ends in `Q`. -/
abbrev Ends (p : Act α) (Q : Option α → State → Prop) (s : State) : Prop :=
  p.wp (fun _ => True) Eq Q s

theorem Ends.bind {p : Act α} {f : α → Act β} {Q : Option β → State → Prop}
    (h : Ends p (andThen f (fun _ => True) Eq Q) s) : Ends (p >>= f) Q s :=
  Prog.wp_bind.mpr h

/-- Inside an outermost call that started in `s`: the tracker state with the nesting flag set, and
the lock. -/
def State.inside (s : State) (st : Tracker.State) (locked : Bool) : State :=
  { s with
    tables := { st with live := s.tables.live, bIsAllocingOrDeallocing := true }
    isLocked := locked }

theorem Inited.inside (hs : Inited s) : Inited (s.inside st locked) :=
  ⟨hs.once, hs.initFunction, hs.notInited⟩

/-- What no part of a call changes. -/
structure Frame (st st₁ : Tracker.State) : Prop where
  process : st₁.process = st.process
  flag : st₁.bIsAllocingOrDeallocing = st.bIsAllocingOrDeallocing

theorem Frame.refl : Frame st st := ⟨rfl, rfl⟩

theorem Frame.trans {st₂ : Tracker.State} (h : Frame st st₁) (h' : Frame st₁ st₂) : Frame st st₂ :=
  ⟨h'.process.trans h.process, h'.flag.trans h.flag⟩

/-- The answers of the environment that a part of a call reads. -/
structure Fits (env : Tracker.Env) (memoryItem stackItem : Bool) (action : FailureAction)
    (runs : ℕ) : Prop where
  memoryItem : env.memoryItem = memoryItem
  stackItem : env.stackItem = stackItem
  clbkFnc : ∀ data, env.clbkFnc data = action
  inScopeCleanerRuns : env.inScopeCleanerRuns = runs

/-! ## Requests -/

theorem rawRequest_ends (hs : Inited s) {pool libc : Query} {Q : Option Answer → State → Prop}
    (h : ∀ w, Q (some w) s) : Ends (rawRequest pool libc) Q s := by
  show Ends (if s.isInitFunction then _ else _) Q s
  rw [if_neg (by simp [hs.initFunction])]
  apply Ends.bind
  show Ends (if s.isNotInited then _ else _) _ s
  rw [if_neg (by simp [hs.notInited])]
  refine ⟨trivial, ?_⟩
  rintro s' rfl w
  exact h w

theorem mallocn_ends (hs : Inited s) {count : ℕ} {Q : Option Addr → State → Prop}
    (h : ∀ a, Q (some a) s) : Ends (mallocn count) Q s :=
  Ends.bind (rawRequest_ends hs fun w => h w.addr)

theorem callocn_ends (hs : Inited s) {nmemb size : ℕ} {Q : Option Addr → State → Prop}
    (h : ∀ a, Q (some a) s) : Ends (callocn nmemb size) Q s :=
  Ends.bind (rawRequest_ends hs fun w => h w.addr)

theorem reallocn_ends (hs : Inited s) {p : Addr} {count : ℕ} {Q : Option Addr → State → Prop}
    (h : ∀ a, Q (some a) s) : Ends (reallocn p count) Q s :=
  Ends.bind (rawRequest_ends hs fun w => h w.addr)

theorem freen_ends (hs : Inited s) {block : Block} {Q : Option Unit → State → Prop}
    (h : Q (some ()) s) : Ends (freen block) Q s :=
  Ends.bind (rawRequest_ends hs fun _ => h)

theorem outside_ends {q : Query} {Q : Option Answer → State → Prop} (h : ∀ w, Q (some w) s) :
    Ends (outside q) Q s := by
  refine ⟨trivial, ?_⟩
  rintro s' rfl w
  exact h w

/-! ## Captured stacks -/

theorem freeBacktraceData_ends (hs : Inited s) (t : BacktracePtr) {Q : Option Unit → State → Prop}
    (h : Q (some ())
      (s.inside { st with traces := Tracker.freeBacktraceData st.traces t } locked)) :
    Ends (freeBacktraceData t) Q (s.inside st locked) := by
  cases t with
  | none => exact h
  | some t => exact Ends.bind (freen_ends hs.inside (Ends.bind (freen_ends hs.inside h)))

theorem replicate_freeBacktraceData_ends (hs : Inited s) (t : BacktracePtr) (n : ℕ)
    {Q : Option Unit → State → Prop}
    (h : Q (some ()) (s.inside
      { st with traces := (fun h => Tracker.freeBacktraceData h t)^[n] st.traces } locked)) :
    Ends ((freeBacktraceData t).replicate n) Q (s.inside st locked) := by
  induction n generalizing st with
  | zero => exact h
  | succ n ih =>
    refine Ends.bind (freeBacktraceData_ends hs t ?_)
    exact ih h

/-- The two requests of a capture may fail. -/
theorem initBacktraceDataForCurrentStack_ends (hs : Inited s)
    {Q : Option BacktracePtr → State → Prop}
    (h : ∀ stack : Option Backtrace,
      Q (some (Tracker.initBacktraceDataForCurrentStack st.traces stack).2) (s.inside { st with
        traces := (Tracker.initBacktraceDataForCurrentStack st.traces stack).1 } locked)) :
    Ends initBacktraceDataForCurrentStack Q (s.inside st locked) := by
  apply Prog.wp_read.mpr
  refine Ends.bind (mallocn_ends hs.inside fun pReturn => ?_)
  show Ends (if pReturn = 0 then _ else _) Q _
  split_ifs
  · exact h none
  · refine Ends.bind (outside_ends fun w => Ends.bind (mallocn_ends hs.inside fun ppBuffer => ?_))
    show Ends (if ppBuffer = 0 then _ else _) Q _
    split_ifs
    · exact Ends.bind (freen_ends hs.inside (h none))
    · exact h (some ⟨w.frames⟩)

theorem convertBacktraceToNames_ends (hs : Inited s) (t : BacktracePtr)
    {Q : Option Unit → State → Prop} (h : Q (some ()) s) :
    Ends (convertBacktraceToNames t) Q s := by
  cases t with
  | none => exact h
  | some t =>
    refine Ends.bind (outside_ends fun ppStrings => ?_)
    show Ends (if ppStrings.addr = 0 then _ else _) Q _
    split_ifs
    · exact h
    · exact Ends.bind (outside_ends fun _ => freen_ends hs h)

theorem convertAll_ends (hs : Inited s) (ts : List BacktracePtr) {Q : Option Unit → State → Prop}
    (h : Q (some ()) s) : Ends (convertAll ts) Q s := by
  induction ts with
  | nil => exact h
  | cons t ts ih => exact Ends.bind (convertBacktraceToNames_ends hs t ih)

/-! ## Reports -/

/-- The tracker state after a report whose cleaner ran `runs` times, the raw blocks aside. -/
def afterReport (st : Tracker.State) (bt : BacktracePtr) (runs : ℕ) : Tracker.State :=
  { st with traces := (fun h => Tracker.freeBacktraceData h bt)^[runs] st.traces }

/-- A part of a call has the outcome `o` and leads to `st₁`, whatever the raw blocks. -/
def Gives (r : Tracker.Res) (o : Tracker.Outcome) (st₁ : Tracker.State) : Prop :=
  r.out = o ∧ ∃ L, r.st = st₁.withLive L

/-- The process goes on after the answer `action` of the callback, and the report returns `a`; `raw`
is the block of its `reallocn`. -/
def GoesOn (kind : FailureType) (action : FailureAction) (raw a : Addr) : Prop :=
  action = .makeAction ∧ a = (if kind.actionIsRealloc then raw else 0) ∨
    action = .doNotMakeActionToPreventCrash ∧ a = 0

/-- A report whose action is a `freen` returns null. -/
theorem GoesOn.released {kind : FailureType} {action : FailureAction} {raw raw' a : Addr}
    (h : GoesOn kind action raw a) (hkind : kind.actionIsRealloc = false) :
    GoesOn kind action raw' 0 := by
  rcases h with ⟨haction, -⟩ | ⟨haction, -⟩
  · exact Or.inl ⟨haction, by simp [hkind]⟩
  · exact Or.inr ⟨haction, rfl⟩

/-- The report of the tracker model when the process goes on. -/
theorem initFailure_gives {env : Tracker.Env} {k m : Bool} {action : FailureAction} {runs : ℕ}
    (hfits : Fits env k m action runs) {item : SMemoryItem} {type : MemoryType} {p : Addr} {n : ℕ}
    {kind : FailureType} (hkind : kind ≠ .unknown) {bt : BacktracePtr} {a : Addr}
    (ha : GoesOn kind action env.raw a) :
    Gives (Tracker.initFailureDataAndCallClbk st env item type p n kind bt) (.returns a)
      (afterReport st bt runs) := by
  rw [Tracker.initFailure_eq st env item type p n kind bt hkind]
  simp only [hfits.clbkFnc]
  rcases ha with ⟨rfl, rfl⟩ | ⟨rfl, rfl⟩
  · dsimp only
    split_ifs
    · refine ⟨rfl, (st.reallocn p env.raw).live, ?_⟩
      unfold Tracker.State.leaveScope
      rw [hfits.inScopeCleanerRuns]
      unfold Tracker.State.reallocn
      split_ifs
      · rfl
      · rfl
    · refine ⟨rfl, (st.freen p).live, ?_⟩
      unfold Tracker.State.leaveScope
      rw [hfits.inScopeCleanerRuns]
      rfl
  · refine ⟨rfl, st.live, ?_⟩
    unfold Tracker.State.leaveScope
    rw [hfits.inScopeCleanerRuns]
    rfl

theorem callback_ends (hl : s.isLocked = false) {q : Query} {Q : Option Answer → State → Prop}
    (h : ∀ w, Q (some w) s) : Ends (callback q) Q s := by
  show Ends (if s.isLocked then _ else _) Q s
  rw [if_neg (by simp [hl])]
  exact outside_ends h

theorem initFailureDataAndCallClbk_ends (hs : Inited s) (item : SMemoryItem) (type : MemoryType)
    (p : Addr) (n : ℕ) {kind : FailureType} (bt : BacktracePtr) {Q : Option Addr → State → Prop}
    (h : ∀ action raw runs a, GoesOn kind action raw a →
      Q (some a) (s.inside (afterReport st bt runs) false)) :
    Ends (initFailureDataAndCallClbk item type p n kind bt) Q (s.inside st false) := by
  have hclean : ∀ action raw a, GoesOn kind action raw a →
      Ends (scopeCleaner bt) (fun o s' => Ends (outside .stackItems >>= fun _ => pure ())
        (fun o' => Q (o'.bind fun _ => o.bind fun _ => some a)) s') (s.inside st false) := by
    intro action raw a ha runs
    refine replicate_freeBacktraceData_ends hs bt runs.runs ?_
    exact Ends.bind (outside_ends fun _ => h action raw runs.runs a ha)
  apply Prog.wp_withCleanup
  apply Prog.wp_withCleanup
  refine Ends.bind (convertAll_ends hs.inside _ ?_)
  refine Ends.bind (callback_ends (Q := andThen _ _ _ _) rfl fun w => ?_)
  show Ends (takeAction kind p n w.action) _ _
  cases haction : w.action with
  | unknown =>
    exact Ends.bind (callback_ends rfl fun _ => trivial)
  | exitApp => trivial
  | doNotMakeActionToPreventCrash => exact hclean _ 0 0 (Or.inr ⟨rfl, rfl⟩)
  | makeAction =>
    unfold takeAction
    split_ifs with hre
    · refine reallocn_ends hs.inside fun a => ?_
      exact hclean _ a a (Or.inl ⟨rfl, by rw [if_pos hre]⟩)
    · refine Ends.bind (freen_ends hs.inside ?_)
      exact hclean _ 0 0 (Or.inl ⟨rfl, by rw [if_neg hre]⟩)

/-! ## Registration -/

theorem addEntryWithKnownHash_ends (hs : Inited s) (sizeofItem : ℕ)
    (add : Tracker.State → Tracker.State) {Q : Option Unit → State → Prop} (hfull : Q none s)
    (hadd : Q (some ()) { s with tables := add s.tables }) :
    Ends (addEntryWithKnownHash sizeofItem add) Q s := by
  refine Ends.bind (mallocn_ends hs fun pItem => ?_)
  show Ends (if pItem = 0 then _ else _) Q s
  split_ifs
  · exact hfull
  · exact hadd

theorem registerMemoryItem_ends (hs : Inited s) (p : Addr) (item : SMemoryItem)
    {Q : Option Unit → State → Prop}
    (hnone : (∀ env : Tracker.Env, env.memoryItem = false →
      Tracker.registerMemoryItem st env p item = none) → Q none (s.inside st locked))
    (hsome : ∀ memoryItem st₁, Frame st st₁ → (∀ env : Tracker.Env, env.memoryItem = memoryItem →
      Tracker.registerMemoryItem st env p item = some st₁) → Q (some ()) (s.inside st₁ locked)) :
    Ends (registerMemoryItem p item) Q (s.inside st locked) := by
  apply Prog.wp_read.mpr
  have hfind : (s.inside st locked).tables.findMemoryItem p = st.findMemoryItem p := rfl
  rw [hfind]
  cases hf : st.findMemoryItem p with
  | none =>
    refine addEntryWithKnownHash_ends hs.inside _ _ (hnone ?_)
      (hsome true { st with memoryItems := (p, item) :: st.memoryItems } ⟨rfl, rfl⟩ ?_)
    · intro env henv
      simp [Tracker.registerMemoryItem, hf, henv]
    · intro env henv
      simp [Tracker.registerMemoryItem, hf, henv]
  | some old =>
    refine Ends.bind (freeBacktraceData_ends hs _ (Ends.bind (freeBacktraceData_ends hs _ ?_)))
    set freed := Tracker.freeBacktraceData st.traces old.deallocTrace with hfreed
    refine hsome true (Tracker.State.setMemoryItem
      { st with traces := Tracker.freeBacktraceData freed old.allocTrace } p item) ⟨rfl, rfl⟩ ?_
    intro env _
    simp only [Tracker.registerMemoryItem, hf]
    rfl

/-- The outcome of a call in the tracker model. -/
def called : Option Addr → Tracker.Outcome
  | some a => .returns a
  | none => .throwsBadAlloc

/-- The outcome of a registration. -/
def registered (p : Addr) (o : Option Unit) : Tracker.Outcome := called (o.map fun _ => p)

theorem registerStackItem_ends (hs : Inited s) (hrun : st.process = .running) (item : SMemoryItem)
    (p : Addr) (bt : BacktracePtr) {Q : Option Unit → State → Prop}
    (h : ∀ stackItem action runs o st₁ locked, Frame st st₁ →
      (∀ (env : Tracker.Env) memoryItem, Fits env memoryItem stackItem action runs →
        Gives (Tracker.registerStackItem st env item p bt) (registered p o) st₁) →
      Q o (s.inside st₁ locked)) :
    Ends (registerStackItem item p bt) Q (s.inside st true) := by
  cases bt with
  | none => trivial
  | some t =>
    apply Prog.wp_read.mpr
    have hfind : (s.inside st true).tables.findStackItem t = st.findStackItem t := rfl
    have hmax : (s.inside st true).tables.unMaxNumberOfAllocFromTheSameStack =
      st.unMaxNumberOfAllocFromTheSameStack := rfl
    rw [hfind, hmax]
    cases hf : st.findStackItem t with
    | none =>
      refine addEntryWithKnownHash_ends hs.inside _ _ ?_ ?_
      · refine h false .exitApp 0 none st true Frame.refl fun env m hfits => ?_
        simp only [Tracker.registerStackItem, hf, hfits.stackItem]
        exact ⟨rfl, st.live, rfl⟩
      · refine h true .exitApp 0 (some ()) { st with stackItems := (t, 1) :: st.stackItems } true
          ⟨rfl, rfl⟩ fun env m hfits => ?_
        simp only [Tracker.registerStackItem, hf, hfits.stackItem]
        exact ⟨rfl, st.live, rfl⟩
    | some e =>
      by_cases hpos : 0 < st.unMaxNumberOfAllocFromTheSameStack
      · show Ends (if 0 < st.unMaxNumberOfAllocFromTheSameStack then _ else _) Q _
        rw [if_pos hpos]
        apply Ends.bind
        by_cases hleak : st.unMaxNumberOfAllocFromTheSameStack < e.2 + 1
        · show Ends (if st.unMaxNumberOfAllocFromTheSameStack < e.2 + 1 then _ else _) Q
            (s.inside (st.setStackItem t (e.2 + 1)) true)
          rw [if_pos hleak]
          show Ends (initFailureDataAndCallClbk item item.type p 0 .possibilityOfMemoryLeak (some t)
            >>= fun _ => pure ()) Q (s.inside (st.setStackItem t (e.2 + 1)) false)
          refine Ends.bind (initFailureDataAndCallClbk_ends hs _ _ _ _ _ ?_)
          intro action raw runs a hgo
          refine h false action runs (some ())
            (afterReport (st.setStackItem t (e.2 + 1)) (some t) runs) false ⟨rfl, rfl⟩ ?_
          intro env m hfits
          simp only [Tracker.registerStackItem, hf, if_pos hpos, if_pos hleak]
          obtain ⟨hout, L, hst⟩ : Gives (Tracker.initFailureDataAndCallClbk
              (st.setStackItem t (e.2 + 1)) env item item.type p 0 .possibilityOfMemoryLeak
              (some t)) (.returns 0) (afterReport (st.setStackItem t (e.2 + 1)) (some t) runs) := by
            exact initFailure_gives hfits (by simp) (hgo.released rfl)
          have hproc : (Tracker.initFailureDataAndCallClbk (st.setStackItem t (e.2 + 1)) env item
              item.type p 0 .possibilityOfMemoryLeak (some t)).st.process = .running := by
            rw [hst]
            exact hrun
          rw [if_pos hproc]
          exact ⟨rfl, L, hst⟩
        · show Ends (if st.unMaxNumberOfAllocFromTheSameStack < e.2 + 1 then _ else _) Q
            (s.inside (st.setStackItem t (e.2 + 1)) true)
          rw [if_neg hleak]
          refine h false .exitApp 0 (some ()) (st.setStackItem t (e.2 + 1)) true ⟨rfl, rfl⟩ ?_
          intro env m hfits
          simp only [Tracker.registerStackItem, hf, if_pos hpos, if_neg hleak]
          exact ⟨rfl, st.live, rfl⟩
      · show Ends (if 0 < st.unMaxNumberOfAllocFromTheSameStack then _ else _) Q _
        rw [if_neg hpos]
        refine h false .exitApp 0 (some ()) st true Frame.refl fun env m hfits => ?_
        simp only [Tracker.registerStackItem, hf, if_neg hpos]
        exact ⟨rfl, st.live, rfl⟩

theorem addNewNoLock_ends (hs : Inited s) (hrun : st.process = .running) (type : MemoryType)
    (p : Addr) (bt : BacktracePtr) {Q : Option Addr → State → Prop}
    (h : ∀ memoryItem stackItem action runs o st₁ locked, Frame st st₁ →
      (∀ env : Tracker.Env, Fits env memoryItem stackItem action runs →
        Gives (Tracker.addNewAllocatedMemoryAndCleanOldEntryNoLock st env type p bt)
          (registered p o) st₁) → Q (o.map fun _ => p) (s.inside st₁ locked)) :
    Ends (addNewAllocatedMemoryAndCleanOldEntryNoLock type p bt) Q (s.inside st true) := by
  apply Ends.bind
  refine registerMemoryItem_ends hs p _ ?_ ?_
  · intro hnone
    refine h false false .exitApp 0 none st true Frame.refl fun env hfits => ?_
    unfold Tracker.addNewAllocatedMemoryAndCleanOldEntryNoLock
    simp only [hnone env hfits.memoryItem]
    exact ⟨rfl, st.live, rfl⟩
  · intro memoryItem st₁ hframe hsome
    refine Ends.bind (registerStackItem_ends hs (hframe.process.trans hrun) _ p bt ?_)
    intro stackItem action runs o st₂ locked hframe' hgives
    have hQ := h memoryItem stackItem action runs o st₂ locked (hframe.trans hframe') (by
      intro env hfits
      unfold Tracker.addNewAllocatedMemoryAndCleanOldEntryNoLock
      simp only [hsome env hfits.memoryItem]
      exact hgives env memoryItem hfits)
    cases o with
    | none => exact hQ
    | some u => exact hQ

/-- The scope of the lock. -/
theorem uniqueLock_ends {p : Act α} {Q : Option α → State → Prop}
    (h : Ends p (fun o s' => Q o { s' with isLocked := false }) (s.inside st true)) :
    Ends (uniqueLock p) Q (s.inside st false) := by
  have hlock : Ends (lock : Act Unit)
      (andThen (fun _ => p.withCleanup unlock) (fun _ => True) Eq Q) (s.inside st false) := by
    show Ends (if (s.inside st false).isLocked then .fault .lockWhileHeld
      else Prog.modify fun s => { s with isLocked := true }) _ (s.inside st false)
    rw [if_neg (by simp [State.inside])]
    refine Prog.wp_withCleanup (Prog.wp_mono ?_ h)
    intro o s' hQ
    cases o with
    | none => exact hQ
    | some a => exact hQ
  exact Prog.wp_bind.mpr hlock

theorem addNew_ends (hs : Inited s) (hrun : st.process = .running) (type : MemoryType) (p : Addr)
    {Q : Option Addr → State → Prop}
    (h : ∀ stack memoryItem stackItem action runs o st₁, Frame st st₁ →
      (∀ env : Tracker.Env, env.stack = stack → Fits env memoryItem stackItem action runs →
        Gives (Tracker.addNewAllocatedMemoryAndCleanOldEntry st env type p) (registered p o) st₁) →
      Q (o.map fun _ => p) (s.inside st₁ false)) :
    Ends (addNewAllocatedMemoryAndCleanOldEntry type p) Q (s.inside st false) := by
  refine Ends.bind (initBacktraceDataForCurrentStack_ends hs fun stack => ?_)
  set c := Tracker.initBacktraceDataForCurrentStack st.traces stack with hc
  have hrun' : ({ st with traces := c.1 } : Tracker.State).process = .running := hrun
  refine uniqueLock_ends (addNewNoLock_ends hs hrun' type p c.2 ?_)
  intro memoryItem stackItem action runs o st₁ locked hframe hgives
  refine h stack memoryItem stackItem action runs o st₁ ⟨hframe.process, hframe.flag⟩ ?_
  rintro env rfl hfits
  exact hgives env hfits

end CrashInvestigator.Reentry
