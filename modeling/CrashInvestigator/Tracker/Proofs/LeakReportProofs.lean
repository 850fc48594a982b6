import CrashInvestigator.Tracker.Proofs.LeakAccountingProofs

/-!
# Leak reports

The threshold is changed by `SetMaxAllowedAllocInTheSameStack` only. Under a threshold that is never
zero the gap of the accounting invariant stays empty, and the counter that a registration compares
with the threshold is the number of allocated blocks of the stack, the new one included.
-/

namespace CrashInvestigator.Tracker

open Library

/-! ## The threshold -/

section Threshold

variable {st : State} {env : Env}

theorem registerStackItem_threshold (item : SMemoryItem) (p : Addr) (bt : BacktracePtr) :
    (registerStackItem st env item p bt).st.unMaxNumberOfAllocFromTheSameStack =
      st.unMaxNumberOfAllocFromTheSameStack := by
  cases bt with
  | none => rfl
  | some t =>
    rcases registerStackItem_cases st env item p t with ⟨-, -, hr⟩ | ⟨-, -, hr⟩ |
      ⟨e, -, -, hr⟩ | ⟨e, -, -, hr⟩ | ⟨e, -, -, -, r, hrr, hr⟩
    · rw [hr]
    · rw [hr]
    · rw [hr]
    · rw [hr]
      rfl
    · obtain ⟨-, -, hmax, -⟩ := initFailure_frame (by simp) hrr
      rw [hr]
      split_ifs <;> exact hmax

theorem addNew_threshold (memoryType : MemoryType) (p : Addr) (bt : BacktracePtr) :
    (addNewAllocatedMemoryAndCleanOldEntryNoLock st env memoryType p
      bt).st.unMaxNumberOfAllocFromTheSameStack = st.unMaxNumberOfAllocFromTheSameStack := by
  rcases addNew_cases st env memoryType p bt with ⟨-, hr⟩ | ⟨st₁, hreg, hr⟩
  · rw [hr]
  · obtain ⟨-, -, -, -, -, hmax, -⟩ := registerMemoryItem_frame hreg
    rw [hr, registerStackItem_threshold, hmax]

theorem testOperatorDelete_threshold (ho : st.Outermost) {p : Addr} (hp : p ≠ 0) (t : MemoryType) :
    (testOperatorDelete st env p t).st.unMaxNumberOfAllocFromTheSameStack =
      st.unMaxNumberOfAllocFromTheSameStack := by
  rcases testOperatorDelete_cases env ho hp t with ⟨-, hr⟩ | ⟨item, -, -, hr⟩ |
    ⟨item, pr, -, -, -, hr⟩ | ⟨item, st₁, -, -, hrem, -, hr⟩ | ⟨item, st₁, -, -, hrem, -, hr⟩
  · rw [hr]
    unfold deleteUntracked
    split_ifs <;> rfl
  · exact (initFailure_frame (by simp) hr).2.2.1
  · rw [hr]
    rfl
  · have hmax := (initFailure_frame (by simp) hr).2.2.1
    rw [hmax, removeCorrespondingTrace_frame hrem]
    rfl
  · rw [hr, removeCorrespondingTrace_frame hrem]
    rfl

theorem testOperatorReAlloc_threshold (ho : st.Outermost) {p : Addr} {n : ℕ} (hp : p ≠ 0)
    (hn : n ≠ 0) :
    (testOperatorReAlloc st env p n).st.unMaxNumberOfAllocFromTheSameStack =
      st.unMaxNumberOfAllocFromTheSameStack := by
  rcases testOperatorReAlloc_cases env ho hp hn with ⟨-, hr⟩ | ⟨item, -, -, hr⟩ |
    ⟨item, -, -, -, hr⟩ | ⟨item, -, -, -, -, hr⟩ | ⟨item, pr, -, -, -, -, -, hr⟩ |
    ⟨item, st₁, r, -, -, -, -, hrem, hrr, hr⟩
  · rw [hr]
    unfold reAllocUntracked
    cases env.initialRealloc with
    | some q => rfl
    | none => simp
  · exact (initFailure_frame (by simp) hr).2.2.1
  · exact (initFailure_frame (by simp) hr).2.2.1
  · rw [hr]
    simp
  · rw [hr]
    simp [State.ends]
  · rw [hr, hrr]
    show (addNewAllocatedMemoryAndCleanOldEntryNoLock _ env .malloc env.raw _).st.unMaxNumberOfAllocFromTheSameStack = _
    rw [addNew_threshold, removeCorrespondingTrace_frame hrem]
    show ((st.capture env).reallocn item.realAddress env.raw).unMaxNumberOfAllocFromTheSameStack = _
    simp

/-- Only `SetMaxAllowedAllocInTheSameStack` changes the threshold. -/
theorem call_threshold (ho : st.Outermost) {c : Call} (hc : ∀ n, c.effect ≠ .setMax n) :
    (call st env c).st.unMaxNumberOfAllocFromTheSameStack =
      st.unMaxNumberOfAllocFromTheSameStack := by
  cases heff : c.effect with
  | nothing => rw [(call_nothing ho heff).1]
  | allocate t =>
    by_cases hraw : env.raw = 0
    · rw [(call_allocate_null ho heff hraw).1]
    · obtain ⟨e, -, hcall⟩ := call_allocate ho heff hraw
      rw [hcall]
      show (addNewAllocatedMemoryAndCleanOldEntryNoLock _ env t env.raw _).st.unMaxNumberOfAllocFromTheSameStack = _
      rw [addNew_threshold]
      simp
  | move p n =>
    obtain ⟨-, hp, hn⟩ := move_ne_zero heff
    rw [call_move heff]
    exact testOperatorReAlloc_threshold ho hp hn
  | release p t =>
    rw [call_release ho heff]
    exact testOperatorDelete_threshold ho (release_ne_zero heff).1 t
  | setMax n => exact absurd heff (hc n)

end Threshold

/-! ## Reports of one call -/

section Reports

variable {st : State} {env : Env} {c : Call}

/-- A refused report is a report of its own kind. -/
theorem initFailure_reports (href : RefusesActions env) {item : SMemoryItem}
    {freeType : MemoryType} {addr : Addr} {n : ℕ} {failureType ft : FailureType}
    (hft : failureType ≠ .unknown) {trace : BacktracePtr} :
    (initFailureDataAndCallClbk st env item freeType addr n failureType trace).Reports ft ↔
      failureType = ft := by
  rw [initFailure_doNot st env item freeType addr n failureType trace hft (href _)]
  constructor
  · rintro ⟨d, a, hmem, hd⟩
    obtain ⟨rfl, -⟩ : d = _ ∧ a = _ := by simpa using hmem
    exact hd
  · intro h
    exact ⟨_, _, List.mem_singleton_self _, h⟩

/-- An event before the body that is not a callback does not count as a report. -/
theorem reports_cons {r : Res} {e : Event} (he : ∀ d a, e ≠ Event.clbkFnc d a) {ft : FailureType} :
    ({ r with events := e :: r.events } : Res).Reports ft ↔ r.Reports ft := by
  constructor
  · rintro ⟨d, a, hmem, hd⟩
    rcases List.mem_cons.mp hmem with h | h
    · exact absurd h.symm (he d a)
    · exact ⟨d, a, h, hd⟩
  · rintro ⟨d, a, hmem, hd⟩
    exact ⟨d, a, List.mem_cons_of_mem _ hmem, hd⟩

/-- With every block counted, a stack's counter is the number of its allocated blocks. -/
theorem Accounted.exact (h : Accounted st fun _ => 0) : st.StackItemsExact := by
  intro s
  have hbal := h.balance s
  cases hc : st.stackCount s with
  | none =>
    rw [hc] at hbal
    simp only [Option.getD_none, Nat.add_zero] at hbal
    rw [if_pos hbal.symm]
  | some n =>
    rw [hc] at hbal
    simp only [Option.getD_some, Nat.add_zero] at hbal
    obtain ⟨k, hk, -⟩ := Entries.lookup_mem hc
    have hpos := (h.keys _ hk).2.2
    rw [← hbal, if_neg (by omega)]

/-- A registration is reported exactly when its stack then has more allocated blocks than allowed. -/
theorem addNew_reports (p : Addr) (ty : MemoryType) {gap : Backtrace → ℕ} {t : ℕ}
    (hgap : gap = fun _ => 0) (h : LeakInv st gap) (hlt : t < st.traces.next)
    (hne : (st.traces.data t).ppBuffer ≠ []) (hgrow : TablesGrow env) (href : RefusesActions env)
    (hmax : 0 < st.unMaxNumberOfAllocFromTheSameStack)
    (hold : ∀ old, st.findMemoryItem p = some old → old.status ≠ .allocated) :
    (addNewAllocatedMemoryAndCleanOldEntryNoLock st env ty p (some t)).Reports
        .possibilityOfMemoryLeak ↔
      st.unMaxNumberOfAllocFromTheSameStack <
        (addNewAllocatedMemoryAndCleanOldEntryNoLock st env ty p (some t)).st.allocatedCount
          (st.traces.data t) := by
  have hacc := h.accounted.addNew ty hlt hne hgrow hold
  rw [if_neg (by omega), hgap] at hacc
  have hbal := hacc.balance (st.traces.data t)
  obtain ⟨st₁, hreg⟩ := registerMemoryItem_isSome st p ⟨ty, .allocated, p, some t, none⟩ hgrow.1
  have hr : addNewAllocatedMemoryAndCleanOldEntryNoLock st env ty p (some t) =
      registerStackItem st₁ env ⟨ty, .allocated, p, some t, none⟩ p (some t) := by
    simp only [addNewAllocatedMemoryAndCleanOldEntryNoLock, hreg]
  obtain ⟨-, -, -, -, -, hmax₁, -, hdata⟩ := registerMemoryItem_frame hreg
  have hfind := findStackItem_registerMemoryItem hreg t
  rw [hr] at hbal ⊢
  have hcount := registerStackItem_stackCount st₁ p t (by rw [hdata]; exact hne)
    hgrow.2 (by omega) ⟨ty, .allocated, p, some t, none⟩
  rw [hdata] at hcount
  rw [hcount, Option.getD_some] at hbal
  rw [registerStackItem_reports href, hfind, hmax₁, ← hbal, hfind]
  constructor
  · rintro ⟨e, he, -, hle⟩
    rw [he]
    simp only [Option.map_some, Option.getD_some]
    omega
  · intro hlt'
    cases he : st.findStackItem t with
    | none =>
      rw [he] at hlt'
      simp only [Option.map_none, Option.getD_none] at hlt'
      omega
    | some e =>
      rw [he] at hlt'
      simp only [Option.map_some, Option.getD_some] at hlt'
      exact ⟨e, rfl, hmax, by omega⟩

theorem Registers.reports {st' : State} {ty : MemoryType} {t : ℕ}
    (h : Registers st c env (fun _ => 0) st' ty t) (ho : st.Outermost) (hc : Tracked st (c, env))
    (hmax : 0 < st.unMaxNumberOfAllocFromTheSameStack) :
    (call st env c).Reports .possibilityOfMemoryLeak ↔
      ∃ s, env.stack = some s ∧
        st.unMaxNumberOfAllocFromTheSameStack < (Tracker.step st (c, env)).allocatedCount s := by
  have hiff := addNew_reports env.raw ty rfl h.inv h.lt h.nonempty hc.grow hc.refuses
    (by rw [h.threshold]; exact hmax) h.old
  have hst := h.call_st
  obtain ⟨e, he, hcall⟩ := h.result
  rw [step_eq ho, hst, hcall, reports_cons he, hiff, h.threshold, h.stack]
  simp

/-- A call without callbacks reports nothing. -/
theorem not_reports_of_silent {r : Res} {ft : FailureType}
    (hev : ∀ d a, Event.clbkFnc d a ∉ r.events) : ¬ r.Reports ft := by
  rintro ⟨d, a, hmem, -⟩
  exact hev d a hmem

/-- A release never reports a possible leak. -/
theorem release_not_reports (ho : st.Outermost) (href : RefusesActions env) {p : Addr}
    {ty : MemoryType} (hp : p ≠ 0) :
    ¬ (testOperatorDelete st env p ty).Reports .possibilityOfMemoryLeak := by
  rcases testOperatorDelete_cases env ho hp ty with ⟨-, hr⟩ | ⟨item, -, -, hr⟩ |
    ⟨item, pr, -, -, -, hr⟩ | ⟨item, st₁, -, -, -, -, hr⟩ | ⟨item, st₁, -, -, -, -, hr⟩
  · rw [hr]
    unfold deleteUntracked
    split_ifs
    · exact not_reports_of_silent (by simp)
    · exact not_reports_of_silent (by simp)
  · rw [hr, initFailure_reports href (by simp)]
    simp
  · rw [hr]
    exact not_reports_of_silent (by simp [State.ends])
  · rw [hr, initFailure_reports href (by simp)]
    simp
  · rw [hr]
    exact not_reports_of_silent (by simp)

/-- Only an allocation or a realloc registers a block. -/
theorem not_registersBlock (hal : ∀ t, c.effect ≠ .allocate t) (hmv : ∀ p n, c.effect ≠ .move p n) :
    ¬ RegistersBlock st (c, env) := by
  rintro (⟨t, ht, -⟩ | ⟨p, n, item, hm, -⟩)
  · exact hal t ht
  · exact hmv p n hm

/-- An allocation registers its block unless the raw request fails. -/
theorem registersBlock_allocate {t : MemoryType} (heff : c.effect = .allocate t) :
    RegistersBlock st (c, env) ↔ env.raw ≠ 0 := by
  constructor
  · rintro (⟨-, -, hraw⟩ | ⟨p, n, item, hm, -⟩)
    · exact hraw
    · rw [heff] at hm
      cases hm
  · intro hraw
    exact Or.inl ⟨t, heff, hraw⟩

/-- A realloc registers a block when it moves an allocated one. -/
theorem registersBlock_move {p : Addr} {n : ℕ} (heff : c.effect = .move p n) :
    RegistersBlock st (c, env) ↔ ∃ item, st.findMemoryItem p = some item ∧ item.type = .malloc ∧
      item.status = .allocated ∧ env.raw ≠ p := by
  constructor
  · rintro (⟨t, ht, -⟩ | ⟨p', n', item, hm, hitem⟩)
    · rw [heff] at ht
      cases ht
    · rw [heff] at hm
      cases hm
      exact ⟨item, hitem⟩
  · rintro ⟨item, hitem⟩
    exact Or.inr ⟨p, n, item, heff, hitem⟩

/-- A realloc that moves no block reports no possible leak. -/
theorem LeakInv.move_not_reports (h : LeakInv st fun _ => 0) (hc : Tracked st (c, env)) {p : Addr}
    {n : ℕ} (heff : c.effect = .move p n) (hnot : ¬ RegistersBlock st (c, env)) :
    ¬ (call st env c).Reports .possibilityOfMemoryLeak := by
  obtain ⟨-, hp, hn⟩ := move_ne_zero heff
  rw [registersBlock_move heff] at hnot
  rw [call_move heff]
  rcases testOperatorReAlloc_cases env h.outermost hp hn with ⟨hf, hr⟩ |
    ⟨item, hf, hty, hr⟩ | ⟨item, hf, -, hst, hr⟩ | ⟨item, hf, -, -, hkeep, hr⟩ |
    ⟨item, pr, hf, hty, hst, hmv, -, hr⟩ | ⟨item, st₁, r, hf, hty, hst, hmv, -⟩
  · rw [hr]
    refine not_reports_of_silent ?_
    unfold reAllocUntracked
    cases env.initialRealloc <;> simp
  · rw [hr, initFailure_reports hc.refuses (by simp)]
    simp
  · rw [hr, initFailure_reports hc.refuses (by simp)]
    simp
  · rw [hr]
    exact not_reports_of_silent (by simp)
  · exact absurd ⟨item, hf, hty, hst, hmv⟩ hnot
  · exact absurd ⟨item, hf, hty, hst, hmv⟩ hnot

/-- A realloc that moves a block is one of the registrations that the accounting follows. -/
theorem LeakInv.registers_of_move (h : LeakInv st fun _ => 0) (hc : Tracked st (c, env)) {p : Addr}
    {n : ℕ} (heff : c.effect = .move p n) (hreg : RegistersBlock st (c, env)) :
    ∃ st' t, Registers st c env (fun _ => 0) st' .malloc t := by
  obtain ⟨item, hf, hty, hst, hmv⟩ := (registersBlock_move heff).mp hreg
  obtain ⟨-, hp, hn⟩ := move_ne_zero heff
  rcases testOperatorReAlloc_cases env h.outermost hp hn with ⟨hf', -⟩ |
    ⟨item', hf', hty', -⟩ | ⟨item', hf', -, hst', -⟩ | ⟨-, -, -, -, hkeep, -⟩ |
    ⟨item', pr, hf', -, -, -, hrem, -⟩ | ⟨item', st₁, r, hf', -, -, -, hrem, hrr, hr⟩
  · rw [hf] at hf'
    cases hf'
  · rw [hf] at hf'
    cases hf'
    exact absurd hty hty'
  · rw [hf] at hf'
    cases hf'
    exact absurd hst hst'
  · exact absurd hkeep hmv
  · -- with every block counted, the stack of the block is found
    rw [hf] at hf'
    cases hf'
    exfalso
    rw [reallocn_eq, removeCorrespondingTrace_live] at hrem
    rcases (h.capture env).removal hf hst with ⟨st₁, hok⟩ | ⟨-, s, hs⟩
    · rw [hok] at hrem
      cases hrem
    · omega
  · rw [hf] at hf'
    cases hf'
    exact h.registers_move hc heff hf hty hst hmv hrem hrr hr

/-- With every block counted, a possible leak is reported by the registration of a block whose stack
then has more allocated blocks than allowed, and by nothing else. -/
theorem LeakInv.reports_iff (h : LeakInv st fun _ => 0) (hc : Tracked st (c, env))
    (hmax : 0 < st.unMaxNumberOfAllocFromTheSameStack) :
    (call st env c).Reports .possibilityOfMemoryLeak ↔
      RegistersBlock st (c, env) ∧ ∃ s, env.stack = some s ∧
        st.unMaxNumberOfAllocFromTheSameStack < (Tracker.step st (c, env)).allocatedCount s := by
  by_cases hreg : RegistersBlock st (c, env)
  · have hregisters : ∃ st' ty t, Registers st c env (fun _ => 0) st' ty t := by
      cases heff : c.effect with
      | nothing => exact absurd hreg (not_registersBlock (by simp [heff]) (by simp [heff]))
      | setMax n => exact absurd hreg (not_registersBlock (by simp [heff]) (by simp [heff]))
      | release p ty => exact absurd hreg (not_registersBlock (by simp [heff]) (by simp [heff]))
      | allocate ty =>
        obtain ⟨st', t, hr⟩ := h.registers_allocate hc heff ((registersBlock_allocate heff).mp hreg)
        exact ⟨st', ty, t, hr⟩
      | move p n =>
        obtain ⟨st', t, hr⟩ := h.registers_of_move hc heff hreg
        exact ⟨st', .malloc, t, hr⟩
    obtain ⟨st', ty, t, hr⟩ := hregisters
    rw [hr.reports h.outermost hc hmax]
    exact ⟨fun hs => ⟨hreg, hs⟩, fun hs => hs.2⟩
  · have hsilent : ¬ (call st env c).Reports .possibilityOfMemoryLeak := by
      cases heff : c.effect with
      | nothing => exact not_reports_of_silent (by simp [(call_nothing h.outermost heff).2])
      | setMax n => exact not_reports_of_silent (by simp [(call_setMax heff).2])
      | release p ty =>
        rw [call_release h.outermost heff]
        exact release_not_reports h.outermost hc.refuses (release_ne_zero heff).1
      | allocate ty =>
        have hraw : env.raw = 0 := by
          by_contra hraw
          exact hreg ((registersBlock_allocate heff).mpr hraw)
        refine not_reports_of_silent fun d a hmem => ?_
        have hal := (call_allocate_null h.outermost heff hraw).2 _ hmem
        exact Event.isAllocation.ne_clbkFnc hal d a rfl
      | move p n => exact h.move_not_reports hc heff hreg
    exact ⟨fun hr => absurd hr hsilent, fun hr => absurd hr.1 hreg⟩

end Reports

/-! ## Runs -/

/-- With a positive threshold no block is left uncounted. -/
theorem gapAfter_of_pos {st : State} {c : Call × Env} {gap : Backtrace → ℕ}
    (h : 0 < st.unMaxNumberOfAllocFromTheSameStack) : gapAfter st c gap = gap := by
  unfold gapAfter
  rw [if_neg fun hc => by omega]

/-- One call of a run under positive thresholds. -/
theorem LeakInv.step_positive {st : State} {c : Call × Env}
    (h : LeakInv st (fun _ => 0) ∧ 0 < st.unMaxNumberOfAllocFromTheSameStack)
    (hc : Tracked st c ∧ SetsPositiveMax c.1) :
    LeakInv (Tracker.step st c) (fun _ => 0) ∧
      0 < (Tracker.step st c).unMaxNumberOfAllocFromTheSameStack := by
  obtain ⟨hinv, hpos⟩ := h
  obtain ⟨c, env⟩ := c
  refine ⟨?_, ?_⟩
  · rcases hinv.step hc.1 with hstep | ⟨-, s, hs⟩
    · rw [gapAfter_of_pos hpos] at hstep
      exact hstep
    · omega
  · rw [step_eq hinv.outermost]
    by_cases hset : ∃ n, c.effect = .setMax n
    · obtain ⟨n, hn⟩ := hset
      rw [(call_setMax hn).1]
      exact hc.2 n hn
    · rw [call_threshold hinv.outermost fun n hn => hset ⟨n, hn⟩]
      exact hpos

/-- In a run whose thresholds are positive, `m_stackItems` counts the allocated records of every
stack after every call, no assertion fails, and a possible leak is reported exactly by the
registrations that exceed the threshold, the new block included. -/
theorem leak_accounting {cs : List (Call × Env)}
    (h : Runs.Along step (fun st c => Tracked st c ∧ SetsPositiveMax c.1) .init cs) :
    Runs.Always step (fun st => st.process = .running ∧ st.StackItemsExact) .init cs ∧
      Runs.Along step (fun st c => (call st c.2 c.1).Reports .possibilityOfMemoryLeak ↔
        RegistersBlock st c ∧ ∃ s, c.2.stack = some s ∧
          st.unMaxNumberOfAllocFromTheSameStack < (step st c).allocatedCount s) .init cs := by
  set I : State → Prop := fun st =>
    LeakInv st (fun _ => 0) ∧ 0 < st.unMaxNumberOfAllocFromTheSameStack with hI
  have hinit : I .init := ⟨LeakInv.init, by decide⟩
  refine ⟨?_, ?_⟩
  · refine (Runs.always_of_invariant (I := I) (fun st c => LeakInv.step_positive) hinit h).mono ?_
    rintro st ⟨hinv, -⟩
    exact ⟨hinv.outermost.1, hinv.accounted.exact⟩
  · refine Runs.along_of_invariant (I := I) (fun st c => LeakInv.step_positive) ?_ hinit h
    rintro st ⟨c, env⟩ ⟨hinv, hpos⟩ ⟨hc, -⟩
    exact hinv.reports_iff hc hpos

/-- Two blocks of one stack under a threshold of one, their releases and a double free. -/
def twoBlocksRun : List (Call × Env) :=
  [(.setMaxAllowedAllocInTheSameStack 1, .giving 1 [7] .doNotMakeActionToPreventCrash),
    (.alloc 8 .malloc false, .giving 16 [7] .doNotMakeActionToPreventCrash),
    (.alloc 8 .malloc false, .giving 32 [7] .doNotMakeActionToPreventCrash),
    (.delete 16 .malloc, .giving 1 [8] .doNotMakeActionToPreventCrash),
    (.delete 32 .malloc, .giving 1 [8] .doNotMakeActionToPreventCrash),
    (.delete 32 .malloc, .giving 1 [8] .doNotMakeActionToPreventCrash)]

theorem leak_accounting_twoBlocks :
    Runs.Always step (fun st => st.process = .running ∧ st.StackItemsExact) .init twoBlocksRun ∧
      Runs.Along step (fun st c => (call st c.2 c.1).Reports .possibilityOfMemoryLeak ↔
        RegistersBlock st c ∧ ∃ s, c.2.stack = some s ∧
          st.unMaxNumberOfAllocFromTheSameStack < (step st c).allocatedCount s) .init
        twoBlocksRun := by
  have hpos : ∀ c : Call, (∀ n, c.effect ≠ .setMax n) → SetsPositiveMax c :=
    fun c hc n hn => absurd hn (hc n)
  refine leak_accounting ⟨⟨tracked_giving (by decide) (by decide) (by decide) (by decide), ?_⟩,
    ⟨tracked_giving (by decide) (by decide) (by decide) (by decide), hpos _ (by simp [Call.effect])⟩,
    ⟨tracked_giving (by decide) (by decide) (by decide) (by decide), hpos _ (by simp [Call.effect])⟩,
    ⟨tracked_giving (by decide) (by decide) (by decide) (by decide), hpos _ (by simp [Call.effect])⟩,
    ⟨tracked_giving (by decide) (by decide) (by decide) (by decide), hpos _ (by simp [Call.effect])⟩,
    ⟨tracked_giving (by decide) (by decide) (by decide) (by decide), hpos _ (by simp [Call.effect])⟩,
    trivial⟩
  intro n hn
  cases hn
  decide

end CrashInvestigator.Tracker
