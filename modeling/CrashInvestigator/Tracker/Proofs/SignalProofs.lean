import CrashInvestigator.Tracker.Proofs.RegistrationProofs
import CrashInvestigator.Tracker.Signal

/-!
# What the signal handler tells

The thread's item is always the one that was initialized last, whether or not libc has returned since.
The handler reports its address, and never the failure type in it.
-/

namespace CrashInvestigator.Tracker

open Library

variable {st : State} {env : Env}

/-! ## Calls that initialize the item -/

/-- No event of the list writes the thread's item. -/
def KeepsItem (events : List Event) : Prop := ∀ item, .handlerMemoryInit item ∉ events

theorem KeepsItem.nil : KeepsItem [] := fun _ => List.not_mem_nil

theorem KeepsItem.cons {e : Event} {events : List Event} (h : KeepsItem events)
    (he : ∀ item, e ≠ .handlerMemoryInit item) : KeepsItem (e :: events) := by
  intro item hmem
  rcases List.mem_cons.mp hmem with heq | hmem
  · exact he item heq.symm
  · exact h item hmem

theorem initFailure_keepsItem (st : State) (env : Env) (item : SMemoryItem) (freeType : MemoryType)
    (addr : Addr) (count : ℕ) {failureType : FailureType} (hft : failureType ≠ .unknown)
    (trace : BacktracePtr) : KeepsItem
      (initFailureDataAndCallClbk st env item freeType addr count failureType trace).events := by
  obtain ⟨data, -, ⟨-, hr⟩ | ⟨-, hr⟩ | ⟨-, -, hr⟩⟩ :=
    initFailure_cases st env item freeType addr count failureType trace hft
  · rw [hr]
    split_ifs <;> exact (KeepsItem.nil.cons (by simp)).cons (by simp)
  · rw [hr]
    exact KeepsItem.nil.cons (by simp)
  · rw [hr]
    exact KeepsItem.nil.cons (by simp)

theorem registerStackItem_keepsItem (st : State) (env : Env) (item : SMemoryItem) (p : Addr)
    (t : ℕ) : KeepsItem (registerStackItem st env item p (some t)).events := by
  rcases registerStackItem_cases st env item p t with
    ⟨-, -, hs⟩ | ⟨-, -, hs⟩ | ⟨e, -, -, hs⟩ | ⟨e, -, -, hs⟩ | ⟨e, -, -, -, r, hrr, hs⟩
  · rw [hs]
    exact KeepsItem.nil
  · rw [hs]
    exact KeepsItem.nil
  · rw [hs]
    exact KeepsItem.nil
  · rw [hs]
    exact KeepsItem.nil
  · have hreport : KeepsItem r.events := by
      rw [hrr]
      exact initFailure_keepsItem _ _ _ _ _ _ (by simp) _
    rw [hs]
    split_ifs <;> exact hreport

theorem addNew_keepsItem (st : State) (env : Env) (memoryType : MemoryType) (p : Addr)
    (bt : BacktracePtr) :
    KeepsItem (addNewAllocatedMemoryAndCleanOldEntryNoLock st env memoryType p bt).events := by
  rcases addNew_cases st env memoryType p bt with ⟨-, hr⟩ | ⟨st₁, -, hr⟩
  · rw [hr]
    exact KeepsItem.nil
  · rw [hr]
    cases bt with
    | none => exact KeepsItem.nil
    | some t => exact registerStackItem_keepsItem st₁ env _ p t

/-- The events of a call that initializes the item, or does not. -/
def InitializesFor (st : State) (env : Env) (events : List Event) : Prop :=
  KeepsItem events ∨ ∃ (g : GlibcCall) (answer : Addr), events =
    [.handlerMemoryInit ((env.handlerMemory.getD .default).init g.count g.failureType g.ptr
      (st.captured env)), g.event answer]

theorem testOperatorDelete_initializes (ho : st.Outermost) {p : Addr} (hp : p ≠ 0)
    (t : MemoryType) : InitializesFor st env (testOperatorDelete st env p t).events := by
  rcases testOperatorDelete_cases env ho hp t with ⟨-, hr⟩ | ⟨item, -, -, hr⟩ |
    ⟨item, pr, -, -, -, hr⟩ | ⟨item, st₁, -, -, -, -, hr⟩ | ⟨item, st₁, -, -, -, -, hr⟩
  · rw [hr, deleteUntracked]
    split_ifs
    · exact Or.inl KeepsItem.nil
    · exact Or.inr ⟨.dealloc p, 0, rfl⟩
  · rw [hr]
    exact Or.inl (initFailure_keepsItem _ _ _ _ _ _ (by simp) _)
  · rw [hr]
    exact Or.inl KeepsItem.nil
  · rw [hr]
    exact Or.inl (initFailure_keepsItem _ _ _ _ _ _ (by simp) _)
  · rw [hr]
    exact Or.inl (KeepsItem.nil.cons (by simp))

theorem testOperatorReAlloc_initializes (ho : st.Outermost) {p : Addr} (hp : p ≠ 0) {n : ℕ}
    (hn : n ≠ 0) : InitializesFor st env (testOperatorReAlloc st env p n).events := by
  rcases testOperatorReAlloc_cases env ho hp hn with ⟨-, hr⟩ | ⟨item, -, -, hr⟩ |
    ⟨item, -, -, -, hr⟩ | ⟨item, -, -, -, -, hr⟩ | ⟨item, pr, -, -, -, -, -, hr⟩ |
    ⟨item, st₁, r, -, -, -, -, -, hrr, hr⟩
  · rw [hr, reAllocUntracked]
    cases env.initialRealloc with
    | some q => exact Or.inl KeepsItem.nil
    | none => exact Or.inr ⟨.realloc p n, env.raw, rfl⟩
  · rw [hr]
    exact Or.inl (initFailure_keepsItem _ _ _ _ _ _ (by simp) _)
  · rw [hr]
    exact Or.inl (initFailure_keepsItem _ _ _ _ _ _ (by simp) _)
  · rw [hr]
    exact Or.inl (KeepsItem.nil.cons (by simp))
  · rw [hr]
    exact Or.inl (KeepsItem.nil.cons (by simp))
  · have hadd : KeepsItem r.events := by
      rw [hrr]
      exact addNew_keepsItem _ _ _ _ _
    rw [hr]
    exact Or.inl (hadd.cons (by simp))

/-- A nested call goes to the raw allocator. -/
theorem call_nested_keepsItem (hflag : st.bIsAllocingOrDeallocing = true) (c : Call) :
    KeepsItem (call st env c).events := by
  cases c with
  | alloc count memoryType bThrow =>
    simp only [call, testOperatorAlloc, hflag, if_true]
    exact KeepsItem.nil.cons (by simp)
  | calloc nmemb size =>
    simp only [call, testOperatorCalloc, hflag, if_true]
    exact KeepsItem.nil.cons (by simp)
  | reAlloc p n =>
    simp only [call, testOperatorReAlloc, hflag, if_true]
    exact KeepsItem.nil.cons (by simp)
  | delete p t =>
    simp only [call, testOperatorDelete, hflag, if_true]
    split_ifs
    · exact KeepsItem.nil
    · exact KeepsItem.nil.cons (by simp)
  | setMaxAllowedAllocInTheSameStack n => exact KeepsItem.nil

/-- A call initializes the item for the routine of libc that it calls next, or not at all. -/
theorem call_initializes (hrun : st.process = .running) (env : Env) (c : Call) :
    InitializesFor st env (call st env c).events := by
  by_cases hflag : st.bIsAllocingOrDeallocing = true
  · exact Or.inl (call_nested_keepsItem hflag c)
  have ho : st.Outermost := ⟨hrun, by simpa using hflag⟩
  cases heff : c.effect with
  | nothing =>
    rw [(call_nothing ho heff).2]
    exact Or.inl KeepsItem.nil
  | setMax n =>
    rw [(call_setMax heff).2]
    exact Or.inl KeepsItem.nil
  | release p t =>
    rw [call_release ho heff]
    exact testOperatorDelete_initializes ho (release_ne_zero heff).1 t
  | move p n =>
    obtain ⟨-, hp, hn⟩ := move_ne_zero heff
    rw [call_move heff]
    exact testOperatorReAlloc_initializes ho hp hn
  | allocate t =>
    left
    by_cases hraw : env.raw = 0
    · intro item hmem
      have hevent := (call_allocate_null ho heff hraw).2 _ hmem
      cases hevent
    · obtain ⟨e, he, hr⟩ := call_allocate ho heff hraw
      have hadd := addNew_keepsItem ((st.mallocn env.raw).capture env) env t env.raw
        ((st.mallocn env.raw).captured env)
      rw [hr]
      refine KeepsItem.cons hadd ?_
      rintro item rfl
      cases he

/-- What the events tell of a call for an untracked address. -/
theorem untracked_spec {item : CMemoryItem} {g : GlibcCall} (hrun : st.process = .running)
    {c : Call} (h : untracked (call st env c).events = some (item, g)) :
    item = (env.handlerMemory.getD .default).init g.count g.failureType g.ptr (st.captured env) := by
  rcases call_initializes hrun env c with hkeeps | ⟨g', answer, hevents⟩
  · exfalso
    unfold untracked at h
    split at h
    · rename_i heq
      exact hkeeps _ (by rw [heq]; exact List.mem_cons_self ..)
    · rename_i heq
      exact hkeeps _ (by rw [heq]; exact List.mem_cons_self ..)
    · cases h
  · rw [hevents] at h
    cases g' <;> (cases h; rfl)

/-- A call that initializes the item is taken apart. -/
theorem untracked_isSome {item : CMemoryItem} (hrun : st.process = .running) {c : Call}
    (h : .handlerMemoryInit item ∈ (call st env c).events) :
    ∃ g, untracked (call st env c).events = some (item, g) := by
  rcases call_initializes hrun env c with hkeeps | ⟨g, answer, hevents⟩
  · exact absurd h (hkeeps item)
  · rw [hevents] at h ⊢
    cases g <;> simp_all [untracked, GlibcCall.event]

/-! ## The item of a thread -/

/-- The thread's item holds the address of the call that it was initialized for last, and a call of
libc that is due or going on is that call. -/
structure Thread.Remembers (w : Thread) : Prop where
  address : w.handlerMemory.map (fun item => item.realAddress) =
    w.initialized.head?.map GlibcCall.ptr
  due : ∀ g r, w.stage = .initialized g r ∨ w.stage = .inside g r → w.initialized.head? = some g

theorem Thread.Remembers.init : Thread.init.Remembers := by
  refine ⟨rfl, ?_⟩
  rintro g r (h | h) <;> cases h

theorem Thread.Remembers.call {w : Thread} (h : w.Remembers) (hrun : w.st.process = .running)
    (c : Call) (env : Env) : (w.call c env).Remembers := by
  unfold Thread.call
  simp only
  cases hun : untracked (Tracker.call w.st env c).events with
  | none => exact ⟨h.address, h.due⟩
  | some ig =>
    obtain ⟨item, g⟩ := ig
    have hitem := untracked_spec hrun hun
    refine ⟨?_, ?_⟩
    · show some item.realAddress = some g.ptr
      rw [hitem]
      rfl
    · rintro g' r (hstage | hstage) <;> cases hstage
      rfl

theorem Thread.Remembers.step {w : Thread} (h : w.Remembers) (a : Action) :
    (w.step a).Remembers := by
  unfold Thread.step
  split_ifs with hrun
  · cases a with
    | call c env =>
      cases hstage : w.stage with
      | outside => exact h.call hrun c env
      | initialized g r => exact h
      | inside g r => exact h
    | enter =>
      cases hstage : w.stage with
      | outside => exact h
      | initialized g r =>
        refine ⟨h.address, ?_⟩
        rintro g' r' (hdue | hdue) <;> cases hdue
        exact h.due g r (Or.inl hstage)
      | inside g r => exact h
    | leave =>
      cases hstage : w.stage with
      | outside => exact h
      | initialized g r => exact h
      | inside g r =>
        refine ⟨h.address, ?_⟩
        rintro g' r' (hdue | hdue) <;> cases hdue
  · exact h

/-- In every run, at every moment. -/
theorem Thread.remembers (as : List Action) : (Runs.final Thread.step .init as).Remembers :=
  (Runs.always_of_invariant (fun _ a h _ => h.step a) Thread.Remembers.init
    (Runs.along_of_forall (fun _ _ => trivial) _ as)).final

/-! ## The handler -/

theorem reported_initFailure (st : State) (env : Env) (item : SMemoryItem) (freeType : MemoryType)
    (addr : Addr) (count : ℕ) {failureType : FailureType} (hft : failureType ≠ .unknown)
    (trace : BacktracePtr) :
    reported (initFailureDataAndCallClbk st env item freeType addr count failureType trace).events =
      [failureData st env item freeType addr count failureType trace] := by
  obtain ⟨data, rfl, ⟨-, hr⟩ | ⟨-, hr⟩ | ⟨-, -, hr⟩⟩ :=
    initFailure_cases st env item freeType addr count failureType trace hft
  · rw [hr]
    split_ifs <;> rfl
  · rw [hr]
    rfl
  · rw [hr]
    rfl

/-- The handler reports the address of the stored item, and a deallocation of null without one. -/
theorem signalSigsegvHandler_reported (st : State) (env : Env) : ∃ data,
    reported (signalSigsegvHandler st env).events = [data] ∧
      match env.handlerMemory with
      | some item => data.failureType = .sigSegvHandler ∧ data.failureAddress = item.realAddress
      | none => data.failureType = .deallocOfNonExistingMemory ∧ data.failureAddress = 0 := by
  have hevents : ∀ r : Res, (if r.st.process = .running then r.st.ends (.exited 3) r.events
      else r).events = r.events := by
    intro r
    split_ifs <;> rfl
  unfold signalSigsegvHandler
  simp only [hevents]
  cases env.handlerMemory with
  | some item => exact ⟨_, reported_initFailure _ _ _ _ _ _ (by simp) _, rfl, rfl⟩
  | none => exact ⟨_, reported_initFailure _ _ _ _ _ _ (by simp) _, rfl, rfl⟩

/-! ## Attribution -/

/-- Of a fault in a thread that remembers, the report is right exactly when the thread is outside libc
and the last address that it passed to libc is not that of a completed deallocation. -/
theorem Thread.Remembers.attributed_iff {w : Thread} (h : w.Remembers)
    (hget : env.handlerMemory = w.handlerMemory) : ∃ data,
      reported (signalSigsegvHandler w.st env).events = [data] ∧
        (Attributed w data ↔ NamesNoDeallocation w) := by
  obtain ⟨data, hdata, htold⟩ := signalSigsegvHandler_reported w.st env
  refine ⟨data, hdata, ?_⟩
  have haddress := h.address
  rw [hget] at htold
  have houtside : (data.failureType = .sigSegvHandler ∧ data.failureAddress ∉ w.deallocated) ↔
      ∃ g ∈ w.initialized.head?, g.ptr ∉ w.deallocated := by
    cases hitem : w.handlerMemory with
    | none =>
      rw [hitem] at htold haddress
      have hhead : w.initialized.head? = none := by simpa using haddress.symm
      rw [hhead, htold.1]
      simp
    | some item =>
      rw [hitem] at htold haddress
      obtain ⟨g, hhead, hptr⟩ := Option.map_eq_some_iff.mp haddress.symm
      have hreal : item.realAddress = g.ptr := hptr.symm
      rw [hhead, htold.1, htold.2, hreal]
      simp
  unfold Attributed NamesNoDeallocation
  cases hstage : w.stage with
  | outside => exact houtside
  | initialized g r => exact houtside
  | inside g r =>
    -- the item is there, so the handler reports a fault, and not what the item says
    have hhead := h.due g r (Or.inr hstage)
    rw [hhead] at haddress
    obtain ⟨item, hitem, -⟩ := Option.map_eq_some_iff.mp haddress
    rw [hitem] at htold
    simp only [iff_false]
    rintro ⟨htype, -⟩
    rw [htold.1] at htype
    cases g <;> cases htype

/-- The exact moments of all runs at which a fault is attributed correctly. -/
theorem fault_attributed_iff (as : List Action) {env : Env}
    (hget : env.handlerMemory = (Runs.final Thread.step .init as).handlerMemory) : ∃ data,
      reported (signalSigsegvHandler (Runs.final Thread.step .init as).st env).events = [data] ∧
        (Attributed (Runs.final Thread.step .init as) data ↔
          NamesNoDeallocation (Runs.final Thread.step .init as)) :=
  (Thread.remembers as).attributed_iff hget

/-- The answers to a call for an address that nobody knows. -/
def unknownAddress : Env where
  raw := 0
  stack := some ⟨[0x401000]⟩
  memoryItem := true
  stackItem := true
  clbkFnc := fun _ => .doNotMakeActionToPreventCrash
  userData := 0
  initialDealloc := false
  initialRealloc := none
  handlerMemory := none
  inScopeCleanerRuns := 1

/-- After a realloc that libc has completed, the report says a fault at the address of the realloc. -/
theorem fault_attributed_iff_after_realloc : ∃ data,
    reported (signalSigsegvHandler (Runs.final Thread.step .init
      [.call (.reAlloc 16 8) unknownAddress, .enter, .leave]).st { unknownAddress with
        handlerMemory := (Runs.final Thread.step .init
          [.call (.reAlloc 16 8) unknownAddress, .enter, .leave]).handlerMemory }).events = [data] ∧
      Attributed (Runs.final Thread.step .init
        [.call (.reAlloc 16 8) unknownAddress, .enter, .leave]) data := by
  obtain ⟨data, hdata, hiff⟩ := @fault_attributed_iff
    [.call (.reAlloc 16 8) unknownAddress, .enter, .leave] { unknownAddress with
      handlerMemory := (Runs.final Thread.step .init
        [.call (.reAlloc 16 8) unknownAddress, .enter, .leave]).handlerMemory } rfl
  exact ⟨data, hdata, hiff.mpr ⟨.realloc 16 8, rfl, List.not_mem_nil⟩⟩

/-- The kinds and addresses that a fault at the end of a run is reported with. -/
def toldAfter (as : List Action) : List (FailureType × Addr) :=
  (reported (signalSigsegvHandler (Runs.final Thread.step .init as).st { unknownAddress with
    handlerMemory := (Runs.final Thread.step .init as).handlerMemory }).events).map
      fun data => (data.failureType, data.failureAddress)

/-- A fault inside the libc routine that a delete led to is reported like one after it, and one in a
thread that called nothing is reported as a deallocation. -/
theorem fault_in_delete_not_attributed :
    toldAfter [.call (.delete 16 .new) unknownAddress, .enter] = [(.sigSegvHandler, 16)] ∧
      toldAfter [.call (.delete 16 .new) unknownAddress, .enter, .leave] = [(.sigSegvHandler, 16)] ∧
      toldAfter [] = [(.deallocOfNonExistingMemory, 0)] ∧
      ¬ ∀ (as : List Action) (env : Env) (data : FailureData),
        env.handlerMemory = (Runs.final Thread.step .init as).handlerMemory →
          reported (signalSigsegvHandler (Runs.final Thread.step .init as).st env).events = [data] →
            Attributed (Runs.final Thread.step .init as) data := by
  refine ⟨rfl, rfl, rfl, fun h => ?_⟩
  obtain ⟨htype, -⟩ := h [.call (.delete 16 .new) unknownAddress, .enter]
    { unknownAddress with handlerMemory := (Runs.final Thread.step .init
      [.call (.delete 16 .new) unknownAddress, .enter]).handlerMemory } _ rfl rfl
  cases htype

end CrashInvestigator.Tracker
