import CrashInvestigator.Reentry.Proofs.LockedBlockProofs

/-!
# The programs do what the tracker does

Every routine, called between two outermost calls, ends as the call of the tracker does for some
answers. A call with signals and calls inside it is one without, so the same holds of every sequence
of calls.
-/

namespace CrashInvestigator.Reentry

open Library Library.Reentrant
open Tracker (Addr Backtrace BacktracePtr MemoryType SMemoryItem FailureAction FailureType)

variable {s : State} {st st₁ : Tracker.State} {locked : Bool}

/-! ## The exported routines -/

/-- Inside a call that started in `s`, the program ends as the tracker does for some answers. -/
def EndsAs (p : Act Addr) (f : Tracker.Env → Tracker.Res) (s : State) (st : Tracker.State) : Prop :=
  ∀ Q : Option Addr → State → Prop, (∀ o st₁ env, Frame st st₁ → Gives (f env) (called o) st₁ →
    Q o (s.inside st₁ false)) → Ends p Q (s.inside st false)

theorem nullOrThrow_endsAs (bThrow : Bool) {f : Tracker.Env → Tracker.Res} (env : Tracker.Env)
    {events : List Tracker.Event} (hf : f env = Tracker.nullOrThrow st bThrow events) :
    EndsAs (nullOrThrow bThrow) f s st := by
  intro Q hQ
  cases bThrow with
  | false => exact hQ (some 0) st env Frame.refl (by rw [hf]; exact ⟨rfl, st.live, rfl⟩)
  | true => exact hQ none st env Frame.refl (by rw [hf]; exact ⟨rfl, st.live, rfl⟩)

theorem EndsAs.of_mallocn {p : Act Addr} {f : Tracker.Env → Tracker.Res} (a : Addr)
    (hp : EndsAs p f s (st.mallocn a)) : EndsAs p f s st := by
  obtain ⟨L, hL⟩ := Tracker.exists_mallocn st a
  rw [hL] at hp
  exact fun Q hQ => hp Q fun o st₁ env hframe => hQ o st₁ env ⟨hframe.process, hframe.flag⟩

theorem Frame.mallocn (a : Addr) : Frame st (st.mallocn a) := by
  obtain ⟨L, hL⟩ := Tracker.exists_mallocn st a
  rw [hL]
  exact Frame.withLive L

/-- A request for the program's block and the registration of the block. -/
theorem allocated_endsAs (hs : Inited s) (ho : st.Outermost) {request : Act Addr}
    (hrequest : ∀ Q : Option Addr → State → Prop, (∀ a, Q (some a) (s.inside st false)) →
      Ends request Q (s.inside st false)) (type : MemoryType) (bThrow : Bool)
    (event : Addr → Tracker.Event) :
    EndsAs (request >>= fun pReturn => if pReturn = 0 then nullOrThrow bThrow
        else addNewAllocatedMemoryAndCleanOldEntry type pReturn)
      (fun env => if env.raw = 0 then Tracker.nullOrThrow st bThrow [event 0] else
        { Tracker.addNewAllocatedMemoryAndCleanOldEntry (st.mallocn env.raw) env type env.raw with
          events := event env.raw :: (Tracker.addNewAllocatedMemoryAndCleanOldEntry
            (st.mallocn env.raw) env type env.raw).events }) s st := by
  intro Q hQ
  refine Ends.bind (hrequest _ fun pReturn => ?_)
  by_cases hzero : pReturn = 0
  · show Ends (if pReturn = 0 then _ else _) Q _
    rw [if_pos hzero]
    exact nullOrThrow_endsAs bThrow noAnswers (if_pos rfl) Q hQ
  · show Ends (if pReturn = 0 then _ else _) Q _
    rw [if_neg hzero]
    refine EndsAs.of_mallocn pReturn (fun Q hQ => ?_) Q hQ
    refine addNew_ends hs ((Frame.mallocn pReturn).process.trans ho.1) type pReturn ?_
    intro stack memoryItem stackItem action runs o st₁ hframe hgives
    refine hQ _ st₁ (answers stack pReturn memoryItem stackItem action runs) hframe ?_
    have hraw : ¬ (answers stack pReturn memoryItem stackItem action runs).raw = 0 := hzero
    rw [if_neg hraw]
    exact hgives _ rfl (answers_fits ..)

/-- The call `f` of the tracker, for some answers, ends as the program did: with the same outcome
and the same tables. -/
def Simulates (f : Tracker.Env → Tracker.Res) (o : Option Addr) (s' : State) : Prop :=
  s'.tables.process = .running ∧
    ∃ env, (f env).out = called o ∧ bookkeeping (f env).st = bookkeeping s'.tables

/-- The scope of the nesting flag. -/
theorem EndsAs.isAllocingHandler (hi : Idle s) (hrun : s.tables.process = .running) {p : Act Addr}
    {f : Tracker.Env → Tracker.Res} (hp : EndsAs p f s s.tables) :
    Ends (isAllocingHandler p) (Simulates f) s := by
  have hstart : s.inside s.tables false =
      { s with tables := { s.tables with bIsAllocingOrDeallocing := true } } := by
    unfold State.inside
    rw [← hi.locked]
  have hset : Ends (p.withCleanup (setAllocing false)) (Simulates f)
      { s with tables := { s.tables with bIsAllocingOrDeallocing := true } } := by
    rw [← hstart]
    apply Prog.wp_withCleanup
    apply hp
    intro o st₁ env hframe hgives
    obtain ⟨hout, L, hst⟩ := hgives
    have hflag : st₁.bIsAllocingOrDeallocing = false := hframe.flag.trans hi.allocing
    have hsame : Simulates f o { s.inside st₁ false with
        tables := { st₁ with live := s.tables.live, bIsAllocingOrDeallocing := false } } := by
      refine ⟨hframe.process.trans hrun, env, hout, ?_⟩
      rw [hst]
      show bookkeeping st₁ = { st₁ with live := ∅, bIsAllocingOrDeallocing := false }
      rw [← hflag]
      rfl
    cases o with
    | none => exact hsame
    | some a => exact hsame
  show Ends (if s.isAllocing then p else
    (setAllocing true >>= fun _ => p.withCleanup (setAllocing false))) (Simulates f) s
  rw [if_neg (by simp [hi.allocing])]
  exact hset

/-- A call that finds the flag unset. -/
theorem outermost_ends (hi : Idle s) {q p : Act Addr} {Q : Option Addr → State → Prop}
    (hp : Ends p Q s) : Ends (Prog.read >>= fun s => if s.isAllocing then q else p) Q s := by
  show Ends (if s.isAllocing then q else p) Q s
  rwa [if_neg (by simp [hi.allocing])]

/-- Between two outermost calls, after the first one, in a process that runs. -/
structure Ready (s : State) : Prop where
  idle : Idle s
  inited : Inited s
  running : s.tables.process = .running

theorem Ready.outermost (h : Ready s) : s.tables.Outermost := ⟨h.running, h.idle.allocing⟩

theorem Ready.notNested (h : Ready s) : ¬ s.tables.bIsAllocingOrDeallocing = true := by
  simp [h.outermost.2]

theorem testOperatorAlloc_ends (h : Ready s) (count : ℕ) (type : MemoryType) (bThrow : Bool) :
    Ends (testOperatorAlloc count type bThrow)
      (Simulates fun env => Tracker.testOperatorAlloc s.tables env count type bThrow) s := by
  refine outermost_ends h.idle (EndsAs.isAllocingHandler h.idle h.running ?_)
  unfold Tracker.testOperatorAlloc
  simp only [if_neg h.notNested]
  split_ifs
  · exact nullOrThrow_endsAs bThrow noAnswers rfl
  · exact allocated_endsAs h.inited h.outermost (fun Q hQ => mallocn_ends h.inited.inside hQ) type
      bThrow (.mallocn count)

theorem testOperatorCalloc_ends (h : Ready s) (nmemb size : ℕ) :
    Ends (testOperatorCalloc nmemb size)
      (Simulates fun env => Tracker.testOperatorCalloc s.tables env nmemb size) s := by
  refine outermost_ends h.idle (EndsAs.isAllocingHandler h.idle h.running ?_)
  unfold Tracker.testOperatorCalloc
  simp only [if_neg h.notNested]
  split_ifs
  · exact nullOrThrow_endsAs false noAnswers rfl
  · exact allocated_endsAs h.inited h.outermost (fun Q hQ => callocn_ends h.inited.inside hQ)
      .malloc false (.callocn nmemb size)

theorem newAligned_null (ho : st.Outermost) {env : Tracker.Env} {count : ℕ} (hcount : count ≠ 0)
    (hraw : env.raw = 0) (type : MemoryType) (bThrow : Bool) (align : ℕ) :
    Tracker.testOperatorNewAligned st env count type bThrow align =
      Tracker.nullOrThrow st bThrow [.mallocn
        ((count + Tracker.effectiveAlign align + Tracker.sizeofVoidPtr) % Tracker.sizeModulus)
        0] := by
  unfold Tracker.testOperatorNewAligned
  rw [if_neg (by simp [ho.2]), if_neg hcount]
  exact if_pos hraw

/-- The block is too small to align in. -/
theorem newAligned_none (ho : st.Outermost) {env : Tracker.Env} {count : ℕ} (hcount : count ≠ 0)
    (hraw : env.raw ≠ 0) (type : MemoryType) (bThrow : Bool) (align : ℕ)
    (hal : Tracker.stdAlign (Tracker.effectiveAlign align) count env.raw
      ((count + Tracker.effectiveAlign align + Tracker.sizeofVoidPtr) % Tracker.sizeModulus) =
        none) :
    Tracker.testOperatorNewAligned st env count type bThrow align =
      Tracker.nullOrThrow (st.mallocn env.raw) bThrow [.mallocn
        ((count + Tracker.effectiveAlign align + Tracker.sizeofVoidPtr) % Tracker.sizeModulus)
        env.raw] := by
  unfold Tracker.testOperatorNewAligned
  rw [if_neg (by simp [ho.2]), if_neg hcount]
  simp only [if_neg hraw, hal]

theorem newAligned_some (ho : st.Outermost) {env : Tracker.Env} {count : ℕ} (hcount : count ≠ 0)
    (hraw : env.raw ≠ 0) {type : MemoryType} (bThrow : Bool) (align : ℕ) {q : Addr}
    (hal : Tracker.stdAlign (Tracker.effectiveAlign align) count env.raw
      ((count + Tracker.effectiveAlign align + Tracker.sizeofVoidPtr) % Tracker.sizeModulus) =
        some q) {o : Option Unit} (h : Gives (Tracker.addNewAllocatedMemoryAndCleanOldEntry
      (st.mallocn env.raw) env type env.raw) (registered env.raw o) st₁) :
    Gives (Tracker.testOperatorNewAligned st env count type bThrow align)
      (called (o.map fun _ => q)) st₁ := by
  obtain ⟨hout, hst⟩ := h
  unfold Tracker.testOperatorNewAligned
  rw [if_neg (by simp [ho.2]), if_neg hcount]
  simp only [if_neg hraw, hal]
  refine ⟨?_, hst⟩
  simp only [hout]
  cases o with
  | none => rfl
  | some u => rfl

theorem testOperatorNewAligned_ends (h : Ready s) (count : ℕ) (type : MemoryType) (bThrow : Bool)
    (align : ℕ) :
    Ends (testOperatorNewAligned count type bThrow align)
      (Simulates fun env => Tracker.testOperatorNewAligned s.tables env count type bThrow align)
      s := by
  refine outermost_ends h.idle (EndsAs.isAllocingHandler h.idle h.running ?_)
  by_cases hcount : count = 0
  · rw [if_pos hcount]
    have hnull : Tracker.testOperatorNewAligned s.tables noAnswers count type bThrow align =
        Tracker.nullOrThrow s.tables bThrow [] := by
      unfold Tracker.testOperatorNewAligned
      rw [if_neg h.notNested, if_pos hcount]
    exact nullOrThrow_endsAs bThrow noAnswers hnull
  rw [if_neg hcount]
  intro Q hQ
  refine Ends.bind (mallocn_ends h.inited.inside fun pReturn => ?_)
  by_cases hzero : pReturn = 0
  · show Ends (if pReturn = 0 then _ else _) Q _
    rw [if_pos hzero]
    exact nullOrThrow_endsAs bThrow noAnswers
      (newAligned_null h.outermost hcount rfl type bThrow align) Q hQ
  · show Ends (if pReturn = 0 then _ else _) Q _
    rw [if_neg hzero]
    refine EndsAs.of_mallocn pReturn (fun Q hQ => ?_) Q hQ
    cases hal : Tracker.stdAlign (Tracker.effectiveAlign align) count pReturn
        ((count + Tracker.effectiveAlign align + Tracker.sizeofVoidPtr) % Tracker.sizeModulus) with
    | none =>
      exact nullOrThrow_endsAs bThrow (answers none pReturn false false .exitApp 0)
        (newAligned_none h.outermost hcount hzero type bThrow align hal) Q hQ
    | some q =>
      refine Ends.bind (addNew_ends h.inited ((Frame.mallocn pReturn).process.trans h.running) type
        pReturn ?_)
      intro stack memoryItem stackItem action runs o st₁ hframe hgives
      obtain ⟨env, henv⟩ : ∃ env, env = answers stack pReturn memoryItem stackItem action runs :=
        ⟨_, rfl⟩
      have hraw : env.raw = pReturn := by rw [henv]; rfl
      have hret := hgives env (by rw [henv]; rfl) (by rw [henv]; exact answers_fits ..)
      rw [← hraw] at hret hal hzero
      have hgiven := hQ (o.map fun _ => q) st₁ env hframe
        (newAligned_some h.outermost hcount hzero bThrow align hal hret)
      cases o with
      | none => exact hgiven
      | some u => exact hgiven

theorem testOperatorDelete_ends (h : Ready s) (p : Addr) (type : MemoryType) :
    Ends (testOperatorDelete p type)
      (Simulates fun env => Tracker.testOperatorDelete s.tables env p type) s := by
  show Ends (if p = 0 then pure 0 else if s.isAllocing then _ else isAllocingHandler _) _ s
  by_cases hp : p = 0
  · rw [if_pos hp]
    refine ⟨h.running, noAnswers, ?_, ?_⟩
    · simp only [Tracker.testOperatorDelete, if_pos hp, called]
    · simp only [Tracker.testOperatorDelete, if_pos hp]
  · rw [if_neg hp, if_neg (by simp [h.idle.allocing])]
    refine EndsAs.isAllocingHandler h.idle h.running fun Q hQ => ?_
    refine Ends.bind (initBacktraceDataForCurrentStack_ends h.inited fun stack => ?_)
    refine Ends.bind (uniqueLock_ends
      (deleteLocked_ends h.inited h.outermost hp type stack ?_))
    intro r st₁ env locked hframe hgives
    cases r with
    | none => exact hQ (some 0) st₁ env hframe hgives
    | some q => exact Ends.bind (freen_ends h.inited.inside (hQ (some 0) st₁ env hframe hgives))

theorem testOperatorReAlloc_ends (h : Ready s) (p : Addr) (n : ℕ) :
    Ends (testOperatorReAlloc p n)
      (Simulates fun env => Tracker.testOperatorReAlloc s.tables env p n) s := by
  apply outermost_ends h.idle
  by_cases hp : p = 0
  · have hcall : (fun env => Tracker.testOperatorReAlloc s.tables env p n) =
        fun env => Tracker.testOperatorAlloc s.tables env n .malloc false := by
      funext env
      unfold Tracker.testOperatorReAlloc
      rw [if_neg h.notNested, if_pos hp]
    rw [hcall, if_pos hp]
    exact testOperatorAlloc_ends h n .malloc false
  by_cases hn : n = 0
  · have hcall : (fun env => Tracker.testOperatorReAlloc s.tables env p n) =
        fun env => Tracker.testOperatorDelete s.tables env p .malloc := by
      funext env
      unfold Tracker.testOperatorReAlloc
      rw [if_neg h.notNested, if_neg hp, if_pos hn]
    rw [hcall, if_neg hp, if_pos hn]
    exact testOperatorDelete_ends h p .malloc
  rw [if_neg hp, if_neg hn]
  refine EndsAs.isAllocingHandler h.idle h.running fun Q hQ => ?_
  refine Ends.bind (initBacktraceDataForCurrentStack_ends h.inited fun stack => ?_)
  refine Ends.bind (uniqueLock_ends (reAllocLocked_ends h.inited h.outermost hp hn stack ?_ ?_))
  · rintro st₁ env rfl hgives
    refine Ends.bind (freeBacktraceData_ends h.inited _ ?_)
    exact hQ (some p) _ env ⟨rfl, rfl⟩ hgives
  · intro o st₁ env locked hframe hgives
    have hret := hQ o st₁ env hframe hgives
    cases o with
    | none => exact hret
    | some a => exact hret

/-- One outermost call: whatever the answers, the call of the tracker does the same for some. -/
theorem body_ends (h : Ready s) (i : Routine) :
    Ends (body i) (Simulates fun env => Tracker.exportedCall s.tables env i.call) s := by
  cases i with
  | alloc count type bThrow => exact testOperatorAlloc_ends h count type bThrow
  | calloc nmemb size => exact testOperatorCalloc_ends h nmemb size
  | reAlloc p n => exact testOperatorReAlloc_ends h p n
  | newAligned count type bThrow align =>
    exact testOperatorNewAligned_ends h count type bThrow align
  | delete p type => exact testOperatorDelete_ends h p type
  | setMaxAllowedAllocInTheSameStack n => exact ⟨h.running, noAnswers, rfl, rfl⟩

/-! ## Runs -/

/-- One call with nothing inside: cut, the process ended, or the call of the tracker. -/
theorem call_simulated (h : Ready s) (i : Routine) (ws : List Answer) :
    (runTree body 1 (.node i (bare ws)) s).outcome = .cut ∨
      (runTree body 1 (.node i (bare ws)) s).outcome = .exited ∨
      Goes (runTree body 1 (.node i (bare ws)) s) ∧
        ∃ o, Simulates (fun env => Tracker.exportedCall s.tables env i.call) o
          (runTree body 1 (.node i (bare ws)) s).st := by
  have hkeeps : Keeps (fun _ : State => True) Eq := ⟨fun _ _ => rfl, fun _ _ _ h h' => h.trans h'⟩
  have hnone : ∀ (t : Tree Routine Answer) s, True →
      Sound (fun _ _ => True) (fun _ => True) Eq s (runTree body 0 t s) :=
    fun t s _ => runTree_zero_sound t s
  obtain ⟨hfault, -, hret, hthrow⟩ := runProg_sound hkeeps hnone (bare ws) (body_ends h i)
  have hst : (runTree body 1 (.node i (bare ws)) s).st =
    (runProg (runTree body 0) (body i) (bare ws) s).st := runTree_st
  cases ho : (runProg (runTree body 0) (body i) (bare ws) s).outcome with
  | returned a =>
    refine Or.inr (Or.inr ⟨Or.inl ⟨(), runTree_returned ho⟩, some a, ?_⟩)
    rw [hst]
    exact hret a ho
  | thrown =>
    have hout : (runTree body 1 (.node i (bare ws)) s).outcome = .thrown := by rw [runTree, ho]
    refine Or.inr (Or.inr ⟨Or.inr hout, none, ?_⟩)
    rw [hst]
    exact hthrow ho
  | exited => exact Or.inr (Or.inl (by rw [runTree, ho]))
  | faulted f => exact absurd ho (hfault f)
  | cut => exact Or.inl (runTree_cut ho)

/-- A state of the tracker with the same tables: the same call with the same answers leads to the
same tables. -/
theorem exportedStep_congr {T : Tracker.State} (ho : st.Outermost)
    (hT : bookkeeping T = bookkeeping st) (c : Tracker.ExportedCall) (env : Tracker.Env) :
    bookkeeping (Tracker.exportedStep T (c, env)) =
      bookkeeping (Tracker.exportedCall st env c).st := by
  have hlive : T = st.withLive T.live := by
    have hcopy : T = { bookkeeping T with live := T.live } := rfl
    rw [hT] at hcopy
    exact hcopy
  obtain ⟨L, hst, -, -⟩ : (Tracker.exportedCall st env c).Alike
      (Tracker.exportedCall (st.withLive T.live) env c) := Tracker.exportedCall_withLive ho c
  have hrun : T.process = .running := by
    rw [hlive]
    exact ho.1
  unfold Tracker.exportedStep
  rw [if_pos hrun, hlive, hst]
  rfl

/-- The induction is on the calls; the tracker goes through states with the same tables. -/
theorem calls_simulated (n : ℕ) (ts : List (Tree AllocRoutine Answer)) (h : Ready s)
    {T : Tracker.State} (hT : bookkeeping T = bookkeeping s.tables) :
    (runCalls (runTree interruptible n) ts s).outcome = .cut ∨
      (runCalls (runTree interruptible n) ts s).outcome = .exited ∨
      ∃ cs : List (Tracker.ExportedCall × Tracker.Env),
        cs.map Prod.fst = ts.map (fun t => (routine t).1.call) ∧
        bookkeeping (Runs.final Tracker.exportedStep T cs) =
          bookkeeping (runCalls (runTree interruptible n) ts s).st.tables := by
  induction ts generalizing s T with
  | nil => exact Or.inr (Or.inr ⟨[], rfl, hT⟩)
  | cons t ts ih =>
    rcases call_undisturbed n ⟨h.idle, h.inited⟩ t with hcut | ⟨t', ht, hsame, hdone⟩
    · refine Or.inl ?_
      rw [runCalls, hcut]
    · obtain ⟨i, script⟩ := t
      obtain ⟨ws, -, rfl⟩ := ht
      have hsound := outermost_sound 1 (.node i.1 (bare ws)) s h.idle
      rcases call_simulated h i.1 ws with hcut | hexit | ⟨hgoes, o, hrun, env, -, htables⟩
      · refine Or.inl ?_
        rw [runCalls, hsame.1, hcut]
      · refine Or.inr (Or.inl ?_)
        rw [runCalls, hsame.1, hexit]
      · have hidle : Idle (runTree body 1 (.node i.1 (bare ws)) s).st := (hsound.2.2 hgoes).1
        have hready : Ready (runTree body 1 (.node i.1 (bare ws)) s).st :=
          ⟨hidle, Inited.of_agrees hidle.agrees hdone, hrun⟩
        have hgoes' : Goes (runTree interruptible n (.node i script) s) := by
          unfold Goes
          rw [hsame.1]
          exact hgoes
        have hfirst := runCalls_goes hgoes' ts
        rw [hsame.2] at hfirst
        have hT' : bookkeeping (Tracker.exportedStep T (i.1.call, env)) = bookkeeping
            (runTree body 1 (.node i.1 (bare ws)) s).st.tables :=
          (exportedStep_congr h.outermost hT i.1.call env).trans htables
        rcases ih hready hT' with hcut | hexit | ⟨cs, hcalls, hfinal⟩
        · exact Or.inl (hfirst.1.trans hcut)
        · exact Or.inr (Or.inl (hfirst.1.trans hexit))
        · refine Or.inr (Or.inr ⟨(i.1.call, env) :: cs, ?_, ?_⟩)
          · rw [List.map_cons, List.map_cons, hcalls]
            rfl
          · rw [Runs.final_cons, hfinal, hfirst.2]

/-- Over every sequence of calls after the first one, with signals at any access of them and calls
inside them, to any depth: it is cut, or the process ends, or the tables are those that the tracker
has after the same calls, for some answers of its environment. -/
theorem calls_refine_tracker (n : ℕ) (ts : List (Tree AllocRoutine Answer)) (hs : Idle s)
    (hdone : s.onceControl = .done) (hrun : s.tables.process = .running) :
    (runCalls (runTree interruptible n) ts s).outcome = .cut ∨
      (runCalls (runTree interruptible n) ts s).outcome = .exited ∨
      ∃ cs : List (Tracker.ExportedCall × Tracker.Env),
        cs.map Prod.fst = ts.map (fun t => (routine t).1.call) ∧
        bookkeeping (Runs.final Tracker.exportedStep s.tables cs) =
          bookkeeping (runCalls (runTree interruptible n) ts s).st.tables :=
  calls_simulated n ts ⟨hs, Inited.of_agrees hs.agrees hdone, hrun⟩ rfl

theorem calls_refine_tracker_underLock :
    (runCalls (runTree interruptible 2) [signalUnderLock] (.inited false)).outcome = .returned () ∧
    ((runCalls (runTree interruptible 2) [signalUnderLock] (.inited false)).outcome = .cut ∨
      (runCalls (runTree interruptible 2) [signalUnderLock] (.inited false)).outcome = .exited ∨
      ∃ cs : List (Tracker.ExportedCall × Tracker.Env),
        cs.map Prod.fst = [signalUnderLock].map (fun t => (routine t).1.call) ∧
        bookkeeping (Runs.final Tracker.exportedStep (State.inited false).tables cs) =
          bookkeeping
            (runCalls (runTree interruptible 2) [signalUnderLock] (.inited false)).st.tables) :=
  ⟨by decide, calls_refine_tracker 2 [signalUnderLock] (Idle.inited false) rfl rfl⟩

end CrashInvestigator.Reentry
