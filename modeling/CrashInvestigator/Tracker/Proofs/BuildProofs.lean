import CrashInvestigator.Tracker.Proofs.CounterProofs

/-!
# Debug and release builds

The counter of a stack is decremented inside the expression of an assertion, so a build with `NDEBUG`
never decrements one. The two builds of a program are run side by side: they stay the same until the
first call that takes a stack out, and are told apart by the counters from that call on.
-/

namespace CrashInvestigator.Tracker

open Library

/-! ## Statements -/

/-- The leak reports among the events of a call. -/
def Res.leakReports (r : Res) : List FailureData :=
  r.events.filterMap fun
    | .clbkFnc data _ => if data.failureType = .possibilityOfMemoryLeak then some data else none
    | _ => none

/-- A running program with the leak reports it has made. -/
structure Build where
  st : State
  leakReports : List FailureData

/-- One call in a build. -/
def Build.step (b : Build) (c : Call × Env) : Build :=
  if b.st.process = .running then
    ⟨(call b.st c.2 c.1).st, b.leakReports ++ (call b.st c.2 c.1).leakReports⟩
  else b

/-- The same state in a build with `NDEBUG`. -/
def State.withNdebug (st : State) : State := { st with ndebug := true }

/-- The debug build and the release build at the start of `main`, under the threshold `n`. -/
def Builds.init (n : ℕ) : Build × Build :=
  let st : State := { State.init with unMaxNumberOfAllocFromTheSameStack := n }
  (⟨st, []⟩, ⟨st.withNdebug, []⟩)

/-- One call in both builds. -/
def buildsStep (b : Build × Build) (c : Call × Env) : Build × Build := (b.1.step c, b.2.step c)

/-- The tables have the same entries and the same leaks were reported. -/
structure SameBuilds (b : Build × Build) : Prop where
  memoryItems : b.2.st.memoryItems.Perm b.1.st.memoryItems
  stackItems : b.2.st.stackItems.Perm b.1.st.stackItems
  leakReports : b.2.leakReports = b.1.leakReports

/-- The call releases an allocated block whose stack has a counter, or moves it by realloc. -/
def TakesStackOut (st : State) (c : Call × Env) : Prop :=
  ∃ p item t e, st.findMemoryItem p = some item ∧ item.status = .allocated ∧
    item.allocTrace = some t ∧ st.findStackItem t = some e ∧
    ((∃ typeExpected, c.1.effect = .release p typeExpected) ∨
      ∃ n, c.1.effect = .move p n ∧ item.type = .malloc ∧ c.2.raw ≠ p)

/-- No stack is taken out in a process that still runs. -/
def TakesNoStackOut (b : Build × Build) (c : Call × Env) : Prop :=
  b.1.st.process = .running → ¬ TakesStackOut b.1.st c

/-! ## What does not depend on `NDEBUG` -/

/-- The same result in a build with `NDEBUG`. -/
def Res.withNdebug (r : Res) : Res := { r with st := r.st.withNdebug }

section Bodies

variable (st : State) (env : Env) (p : Addr) (bt : BacktracePtr)

theorem mallocn_withNdebug : st.withNdebug.mallocn p = (st.mallocn p).withNdebug := by
  unfold State.mallocn
  split_ifs <;> rfl

theorem reallocn_withNdebug (q : Addr) :
    st.withNdebug.reallocn p q = (st.reallocn p q).withNdebug := by
  unfold State.reallocn
  split_ifs <;> rfl

variable {st env p bt}

theorem initFailure_withNdebug {item : SMemoryItem} {freeType : MemoryType} {n : ℕ}
    {failureType : FailureType} (hft : failureType ≠ .unknown) :
    initFailureDataAndCallClbk st.withNdebug env item freeType p n failureType bt =
      (initFailureDataAndCallClbk st env item freeType p n failureType bt).withNdebug := by
  have hdata : failureData st.withNdebug env item freeType p n failureType bt =
      failureData st env item freeType p n failureType bt := rfl
  rw [initFailure_eq st env item freeType p n failureType bt hft,
    initFailure_eq st.withNdebug env item freeType p n failureType bt hft, hdata]
  simp only
  cases env.clbkFnc (failureData st env item freeType p n failureType bt) with
  | makeAction =>
    simp only
    split_ifs
    · rw [reallocn_withNdebug]
      rfl
    · rfl
  | doNotMakeActionToPreventCrash => rfl
  | unknown => rfl
  | exitApp => rfl

theorem registerMemoryItem_withNdebug {item : SMemoryItem} :
    registerMemoryItem st.withNdebug env p item =
      (registerMemoryItem st env p item).map State.withNdebug := by
  unfold registerMemoryItem
  have hf : st.withNdebug.findMemoryItem p = st.findMemoryItem p := rfl
  rw [hf]
  cases st.findMemoryItem p with
  | none => simp only; split_ifs <;> rfl
  | some old => rfl

theorem registerStackItem_withNdebug {item : SMemoryItem} :
    registerStackItem st.withNdebug env item p bt =
      (registerStackItem st env item p bt).withNdebug := by
  cases bt with
  | none => rfl
  | some t =>
    have hf : st.withNdebug.findStackItem t = st.findStackItem t := rfl
    have hmax : st.withNdebug.unMaxNumberOfAllocFromTheSameStack =
      st.unMaxNumberOfAllocFromTheSameStack := rfl
    unfold registerStackItem
    simp only [hf, hmax]
    cases st.findStackItem t with
    | none => simp only; split_ifs <;> rfl
    | some e =>
      have hset : st.withNdebug.setStackItem t (e.2 + 1) = (st.setStackItem t (e.2 + 1)).withNdebug :=
        rfl
      have hproc : ∀ r : Res, r.withNdebug.st.process = r.st.process := fun _ => rfl
      have hleak : FailureType.possibilityOfMemoryLeak ≠ .unknown := by simp
      simp only [hset, initFailure_withNdebug hleak, hproc]
      split_ifs <;> rfl

theorem addNew_withNdebug {ty : MemoryType} :
    addNewAllocatedMemoryAndCleanOldEntryNoLock st.withNdebug env ty p bt =
      (addNewAllocatedMemoryAndCleanOldEntryNoLock st env ty p bt).withNdebug := by
  unfold addNewAllocatedMemoryAndCleanOldEntryNoLock
  simp only [registerMemoryItem_withNdebug]
  cases registerMemoryItem st env p ⟨ty, .allocated, p, bt, none⟩ with
  | none => rfl
  | some st₁ => exact registerStackItem_withNdebug

theorem addNewAllocatedMemory_withNdebug {ty : MemoryType} :
    addNewAllocatedMemoryAndCleanOldEntry st.withNdebug env ty p =
      (addNewAllocatedMemoryAndCleanOldEntry st env ty p).withNdebug := by
  show addNewAllocatedMemoryAndCleanOldEntryNoLock (st.capture env).withNdebug env ty p
    (st.captured env) = _
  rw [addNew_withNdebug]
  rfl

theorem deleteUntracked_withNdebug :
    deleteUntracked st.withNdebug env p bt = (deleteUntracked st env p bt).withNdebug := by
  unfold deleteUntracked
  split_ifs <;> rfl

theorem reAllocUntracked_withNdebug {n : ℕ} :
    reAllocUntracked st.withNdebug env p n bt = (reAllocUntracked st env p n bt).withNdebug := by
  unfold reAllocUntracked
  cases env.initialRealloc with
  | some q => rfl
  | none =>
    simp only [Res.withNdebug, ← reallocn_withNdebug]
    rfl

end Bodies

/-! ## Calls that take no stack out -/

/-- Results that differ in `NDEBUG` only, or of processes that have ended with the same tables. -/
def Res.SameBuild (r r' : Res) : Prop :=
  (r'.st = r.st.withNdebug ∨ (r.st.process ≠ .running ∧ r'.st.process ≠ .running ∧
    r'.st.memoryItems = r.st.memoryItems ∧ r'.st.stackItems = r.st.stackItems)) ∧
    r'.leakReports = r.leakReports

theorem Res.sameBuild_withNdebug (r : Res) : r.SameBuild r.withNdebug := ⟨Or.inl rfl, rfl⟩

/-- The request for the block is no leak report. -/
theorem leakReports_cons {e : Event} (h : e.isAllocation = true) (r : Res) :
    ({ r with events := e :: r.events } : Res).leakReports = r.leakReports := by
  cases e with
  | mallocn n q => rfl
  | callocn m n q => rfl
  | reallocn _ _ _ | freen _ | systemSpecificGlibcRealloc _ _ _ | systemSpecificGlibcDealloc _
  | handlerMemoryInit _ | clbkFnc _ _ => cases h

theorem leakReports_of_silent {r : Res} (h : ∀ e ∈ r.events, e.isAllocation = true) :
    r.leakReports = [] := by
  refine List.filterMap_eq_nil_iff.mpr fun e he => ?_
  cases e with
  | clbkFnc d a => cases h _ he
  | _ => rfl

section Same

variable {st st' : State} {env : Env} {p : Addr} {bt : BacktracePtr}

theorem withNdebug_outermost (ho : st.Outermost) : st.withNdebug.Outermost := ho

/-- A failed removal ends the process of either build. -/
theorem removal_error (hpos : st.CountersPositive) (hd : st.ndebug = false) {pr : Process}
    (h : removeCorrespondingTrace st bt = .error pr) :
    pr ≠ .running ∧ ∃ pr', removeCorrespondingTrace st.withNdebug bt = .error pr' ∧
      pr' ≠ .running := by
  cases bt with
  | none =>
    cases h
    exact ⟨by simp, .crashed, rfl, by simp⟩
  | some t =>
    cases hf : st.findStackItem t with
    | none =>
      have hf' : st.withNdebug.findStackItem t = none := hf
      simp only [removeCorrespondingTrace, hf, hd] at h
      cases h
      have hcrash : removeCorrespondingTrace st.withNdebug (some t) = .error .crashed := by
        simp only [removeCorrespondingTrace, hf']
        rfl
      exact ⟨by simp, .crashed, hcrash, by simp⟩
    | some e =>
      obtain ⟨st₁, hok⟩ := hpos.removal_ok hd hf
      rw [h] at hok
      cases hok

/-- Under `NDEBUG` the removal of a stack with a counter does nothing. -/
theorem removal_withNdebug (hd : st.ndebug = false)
    (h : removeCorrespondingTrace st bt = .ok st') :
    removeCorrespondingTrace st.withNdebug bt = .ok st.withNdebug := by
  obtain ⟨t, e, rfl, hf, hpos⟩ := (removeCorrespondingTrace_ok_iff hd).mp ⟨st', h⟩
  have hf' : st.withNdebug.findStackItem t = some e := hf
  have hne : e.2 ≠ 0 := by omega
  simp only [removeCorrespondingTrace, hf', if_neg hne]
  rfl

theorem testOperatorDelete_sameBuild (hpos : st.CountersPositive) (hd : st.ndebug = false)
    (ho : st.Outermost) (hp : p ≠ 0) (t : MemoryType)
    (hno : ∀ item, st.findMemoryItem p = some item → item.status = .allocated →
      ∀ st₁, removeCorrespondingTrace (st.capture env) item.allocTrace ≠ .ok st₁) :
    (testOperatorDelete st env p t).SameBuild (testOperatorDelete st.withNdebug env p t) := by
  have hcapd : (st.withNdebug.captured env) = st.captured env := rfl
  have hcap : st.withNdebug.capture env = (st.capture env).withNdebug := rfl
  rw [testOperatorDelete_body env (withNdebug_outermost ho) hp, hcap, hcapd]
  rcases testOperatorDelete_cases env ho hp t with ⟨hf, hr⟩ | ⟨item, hf, hst, hr⟩ |
    ⟨item, pr, hf, hst, hrem, hr⟩ | ⟨item, st₁, hf, hst, hrem, -, -⟩ |
    ⟨item, st₁, hf, hst, hrem, -, -⟩
  · have hf' : (st.capture env).withNdebug.findMemoryItem p = none := hf
    rw [hf', hr]
    rw [deleteUntracked_withNdebug]
    exact Res.sameBuild_withNdebug _
  · have hf' : (st.capture env).withNdebug.findMemoryItem p = some item := hf
    rw [hf', hr]
    simp only [ne_eq, hst, not_false_eq_true, if_true]
    rw [initFailure_withNdebug (by simp)]
    exact Res.sameBuild_withNdebug _
  · have hf' : (st.capture env).withNdebug.findMemoryItem p = some item := hf
    have hcpos : (st.capture env).CountersPositive := hpos
    obtain ⟨hpr, pr', hrem', hpr'⟩ := removal_error hcpos hd hrem
    rw [hf', hr]
    simp only [ne_eq, hst, not_true_eq_false, if_false, hrem']
    exact ⟨Or.inr ⟨hpr, hpr', rfl, rfl⟩, rfl⟩
  · exact absurd hrem (hno item hf hst st₁)
  · exact absurd hrem (hno item hf hst st₁)

theorem testOperatorReAlloc_sameBuild (hpos : st.CountersPositive) (hd : st.ndebug = false)
    (ho : st.Outermost) (hp : p ≠ 0) {n : ℕ} (hn : n ≠ 0)
    (hno : ∀ item, st.findMemoryItem p = some item → item.type = .malloc →
      item.status = .allocated → env.raw ≠ p → ∀ st₁,
        removeCorrespondingTrace ((st.capture env).reallocn item.realAddress env.raw)
          item.allocTrace ≠ .ok st₁) :
    (testOperatorReAlloc st env p n).SameBuild (testOperatorReAlloc st.withNdebug env p n) := by
  have hcapd : (st.withNdebug.captured env) = st.captured env := rfl
  have hcap : st.withNdebug.capture env = (st.capture env).withNdebug := rfl
  rw [testOperatorReAlloc_body env (withNdebug_outermost ho) hp hn, hcap, hcapd]
  rcases testOperatorReAlloc_cases env ho hp hn with ⟨hf, hr⟩ | ⟨item, hf, hty, hr⟩ |
    ⟨item, hf, hty, hst, hr⟩ | ⟨item, hf, hty, hst, hraw, hr⟩ |
    ⟨item, pr, hf, hty, hst, hraw, hrem, hr⟩ | ⟨item, st₁, r, hf, hty, hst, hraw, hrem, -, -⟩
  · have hf' : (st.capture env).withNdebug.findMemoryItem p = none := hf
    rw [hf', hr]
    rw [reAllocUntracked_withNdebug]
    exact Res.sameBuild_withNdebug _
  · have hf' : (st.capture env).withNdebug.findMemoryItem p = some item := hf
    rw [hf', hr]
    simp only [ne_eq, hty, not_false_eq_true, if_true]
    rw [initFailure_withNdebug (by simp)]
    exact Res.sameBuild_withNdebug _
  · have hf' : (st.capture env).withNdebug.findMemoryItem p = some item := hf
    rw [hf', hr]
    simp only [ne_eq, hty, hst, not_true_eq_false, not_false_eq_true, if_false, if_true]
    rw [initFailure_withNdebug (by simp)]
    exact Res.sameBuild_withNdebug _
  · have hf' : (st.capture env).withNdebug.findMemoryItem p = some item := hf
    rw [hf', hr]
    simp only [ne_eq, hty, hst, not_true_eq_false, if_false, if_pos hraw, reallocn_withNdebug]
    exact ⟨Or.inl (by simp [State.withNdebug]), rfl⟩
  · have hf' : (st.capture env).withNdebug.findMemoryItem p = some item := hf
    have hreq : ((st.capture env).reallocn item.realAddress env.raw).CountersPositive :=
      State.CountersPositive.congr (show (st.capture env).CountersPositive from hpos) (by simp)
    obtain ⟨hpr, pr', hrem', hpr'⟩ := removal_error hreq (by simpa using hd) hrem
    rw [hf', hr]
    simp only [ne_eq, hty, hst, not_true_eq_false, if_false, if_neg hraw, reallocn_withNdebug, hrem']
    exact ⟨Or.inr ⟨hpr, hpr', rfl, rfl⟩, rfl⟩
  · exact absurd hrem (hno item hf hty hst hraw st₁)

/-- A call that takes no stack out does the same in both builds. -/
theorem call_sameBuild (hs : Sound st) (hpos : st.CountersPositive) (ho : st.Outermost) {c : Call}
    (hno : ¬ TakesStackOut st (c, env)) :
    (call st env c).SameBuild (call st.withNdebug env c) := by
  have ho' := withNdebug_outermost ho
  cases heff : c.effect with
  | nothing =>
    obtain ⟨hst, hev⟩ : (call st env c).st = st ∧ _ := call_nothing ho heff
    obtain ⟨hst', hev'⟩ : (call st.withNdebug env c).st = st.withNdebug ∧ _ :=
      call_nothing ho' heff
    refine ⟨Or.inl (by rw [hst, hst']), ?_⟩
    simp only [Res.leakReports, hev, hev']
  | allocate t =>
    by_cases hraw : env.raw = 0
    · obtain ⟨hst, hev⟩ := call_allocate_null ho heff hraw
      obtain ⟨hst', hev'⟩ := call_allocate_null ho' heff hraw
      refine ⟨Or.inl (by rw [hst, hst']), ?_⟩
      rw [leakReports_of_silent hev, leakReports_of_silent hev']
    · obtain ⟨e, he, hcall⟩ := call_allocate ho heff hraw
      obtain ⟨e', he', hcall'⟩ := call_allocate ho' heff hraw
      have hadd : addNewAllocatedMemoryAndCleanOldEntry (st.withNdebug.mallocn env.raw) env t
          env.raw = (addNewAllocatedMemoryAndCleanOldEntry (st.mallocn env.raw) env t
            env.raw).withNdebug := by
        rw [mallocn_withNdebug, addNewAllocatedMemory_withNdebug]
      rw [hcall, hcall', hadd]
      refine ⟨Or.inl rfl, ?_⟩
      rw [leakReports_cons he, leakReports_cons he']
      rfl
  | move p n =>
    obtain ⟨-, hp, hn⟩ := move_ne_zero heff
    rw [call_move heff, call_move heff]
    refine testOperatorReAlloc_sameBuild hpos hs.ndebug ho hp hn ?_
    intro item hf hty hst hraw st₁ hrem
    have hreqd : ((st.capture env).reallocn item.realAddress env.raw).traces.data =
        (st.capture env).traces.data := by simp
    obtain ⟨t, e, ht, hfe⟩ := (removal_ok_iff hs hpos hf (by simp) hreqd
      (by simpa using hs.ndebug)).mp ⟨st₁, hrem⟩
    exact hno ⟨p, item, t, e, hf, hst, ht, hfe, Or.inr ⟨n, heff, hty, hraw⟩⟩
  | release p ty =>
    rw [call_release ho heff, call_release ho' heff]
    refine testOperatorDelete_sameBuild hpos hs.ndebug ho (release_ne_zero heff).1 ty ?_
    intro item hf hst st₁ hrem
    have hcapd : (st.capture env).ndebug = false := hs.ndebug
    obtain ⟨t, e, ht, hfe⟩ := (removal_ok_iff hs hpos hf (@capture_stackItems st env) rfl
      hcapd).mp ⟨st₁, hrem⟩
    exact hno ⟨p, item, t, e, hf, hst, ht, hfe, Or.inl ⟨ty, heff⟩⟩
  | setMax n =>
    obtain ⟨hst, hev⟩ : (call st env c).st = _ ∧ _ := call_setMax heff
    obtain ⟨hst', hev'⟩ : (call st.withNdebug env c).st = _ ∧ _ := call_setMax heff
    refine ⟨Or.inl (by rw [hst, hst']; rfl), ?_⟩
    simp only [Res.leakReports, hev, hev']

end Same

/-! ## Calls that take a stack out -/

section Parted

variable {s s' st st' : State} {env : Env} {p : Addr} {bt : BacktracePtr}

/-- A stack that is unknown stays unknown when another one is taken out. -/
theorem removal_unknown (hd : st.ndebug = false)
    (h : removeCorrespondingTrace st bt = .ok st') {u : ℕ} (hu : st.findStackItem u = none) :
    st'.findStackItem u = none := by
  have hall := Entries.findEntry_none_iff.mp hu
  cases bt with
  | none => cases h
  | some t =>
    rcases removeCorrespondingTrace_cases hd t with ⟨herr, -⟩ | ⟨e, -, -, hok⟩ | ⟨e, -, -, hok⟩
    · rw [herr] at h
      cases h
    · rw [hok] at h
      cases h
      exact Entries.findEntry_none_iff.mpr fun x hx => hall x (Entries.mem_of_mem_removeFirst hx)
    · rw [hok] at h
      cases h
      refine Entries.findEntry_none_iff.mpr fun x hx => ?_
      rcases Entries.mem_setFirst hx with hx | ⟨-, -, w, hw⟩
      · exact hall x hx
      · exact hall (x.1, w) hw

/-- Under a positive threshold a block stays uncounted only when the table cannot grow. -/
theorem registerStackItem_counted (hmax : 0 < st.unMaxNumberOfAllocFromTheSameStack) (t : ℕ)
    (item : SMemoryItem) :
    (registerStackItem st env item p (some t)).st.counted = st.counted +
      if st.findStackItem t = none ∧ env.stackItem = false then 0 else 1 := by
  rcases registerStackItem_cases st env item p t with ⟨hf, hg, hr⟩ | ⟨hf, hg, hr⟩ |
    ⟨e, -, hz, -⟩ | ⟨e, hf, -, hr⟩ | ⟨e, hf, -, -, r, hrr, hr⟩
  · rw [hr, if_neg (by simp [hg])]
    exact counted_addStackItem
  · rw [hr, if_pos ⟨hf, hg⟩]
    rfl
  · omega
  · rw [hr, if_neg (by simp [hf])]
    have hset : (st.setStackItem t (e.2 + 1)).counted = st.counted + 1 := by
      have := counted_setStackItem hf (e.2 + 1)
      omega
    exact hset
  · obtain ⟨-, hstk, -⟩ := initFailure_frame (by simp) hrr
    have hrs : r.st.counted = st.counted + 1 := by
      rw [counted_congr hstk]
      have := counted_setStackItem hf (e.2 + 1)
      omega
    rw [if_neg (by simp [hf]), hr]
    split_ifs <;> exact hrs

/-- Of two states with the same records, the one that counts fewer blocks and knows no other stacks
counts fewer blocks after a registration too. -/
theorem addNew_counted_lt (hmem : s'.memoryItems = s.memoryItems)
    (hmax : 0 < s.unMaxNumberOfAllocFromTheSameStack)
    (hmax' : 0 < s'.unMaxNumberOfAllocFromTheSameStack)
    (hfewer : ∀ t, s'.findStackItem t = none → s.findStackItem t = none)
    (hlt : s.counted < s'.counted) (ty : MemoryType) :
    (addNewAllocatedMemoryAndCleanOldEntryNoLock s env ty p bt).st.counted <
      (addNewAllocatedMemoryAndCleanOldEntryNoLock s' env ty p bt).st.counted := by
  have hfind : s'.findMemoryItem p = s.findMemoryItem p := findMemoryItem_congr hmem p
  have hnone : registerMemoryItem s' env p ⟨ty, .allocated, p, bt, none⟩ = none ↔
      registerMemoryItem s env p ⟨ty, .allocated, p, bt, none⟩ = none := by
    rw [registerMemoryItem_none_iff, registerMemoryItem_none_iff, hfind]
  rcases addNew_cases s env ty p bt with ⟨hreg, hr⟩ | ⟨v, hreg, hr⟩
  · rcases addNew_cases s' env ty p bt with ⟨-, hr'⟩ | ⟨v', hreg', -⟩
    · rw [hr, hr']
      exact hlt
    · rw [hnone.mpr hreg] at hreg'
      cases hreg'
  · rcases addNew_cases s' env ty p bt with ⟨hreg', -⟩ | ⟨v', hreg', hr'⟩
    · rw [hnone.mp hreg'] at hreg
      cases hreg
    · obtain ⟨hstk, -, -, -, -, hm, -, hd⟩ := registerMemoryItem_frame hreg
      obtain ⟨hstk', -, -, -, -, hm', -, hd'⟩ := registerMemoryItem_frame hreg'
      have hc : v.counted = s.counted := counted_congr hstk
      have hc' : v'.counted = s'.counted := counted_congr hstk'
      rw [hr, hr']
      cases bt with
      | none =>
        show v.counted < v'.counted
        omega
      | some t =>
        have hf : v.findStackItem t = s.findStackItem t := findStackItem_congr hstk hd t
        have hf' : v'.findStackItem t = s'.findStackItem t := findStackItem_congr hstk' hd' t
        rw [registerStackItem_counted (by omega), registerStackItem_counted (by omega), hf, hf', hc,
          hc']
        by_cases hu : s'.findStackItem t = none
        · have hu' := hfewer t hu
          simp only [hu, hu']
          omega
        · have hknown : ¬ (s'.findStackItem t = none ∧ env.stackItem = false) := fun h => hu h.1
          rw [if_neg hknown]
          split_ifs <;> omega

theorem testOperatorDelete_parted (hd : st.ndebug = false) (ho : st.Outermost) (hp : p ≠ 0)
    (t : MemoryType) {item : SMemoryItem} (hf : st.findMemoryItem p = some item)
    (hst : item.status = .allocated)
    (hrem : removeCorrespondingTrace (st.capture env) item.allocTrace = .ok st') :
    (testOperatorDelete st env p t).st.counted <
      (testOperatorDelete st.withNdebug env p t).st.counted := by
  have hfd : (st.capture env).findMemoryItem p = some item := hf
  have hfr : (st.capture env).withNdebug.findMemoryItem p = some item := hf
  have hcapd : (st.capture env).ndebug = false := hd
  have hcap : st.withNdebug.capture env = (st.capture env).withNdebug := rfl
  have hremr := removal_withNdebug hcapd hrem
  have hless : st'.counted + 1 = (st.capture env).counted :=
    removeCorrespondingTrace_counted hcapd hrem
  have hsame : (st.capture env).withNdebug.counted = (st.capture env).counted := rfl
  rw [testOperatorDelete_body env ho hp, testOperatorDelete_body env (withNdebug_outermost ho) hp,
    hcap, hfd, hfr]
  simp only [ne_eq, hst, not_true_eq_false, if_false, hrem, hremr]
  by_cases hty : item.type = t
  · simp only [hty, not_true_eq_false, if_false]
    show st'.counted < (st.capture env).withNdebug.counted
    omega
  · simp only [hty, not_false_eq_true, if_true]
    rw [counted_congr (initFailure_frame (by simp) rfl).2.1,
      counted_congr (initFailure_frame (by simp) rfl).2.1]
    omega

theorem testOperatorReAlloc_parted (hd : st.ndebug = false) (ho : st.Outermost)
    (hmax : 0 < st.unMaxNumberOfAllocFromTheSameStack) (hp : p ≠ 0) {n : ℕ} (hn : n ≠ 0)
    {item : SMemoryItem} (hf : st.findMemoryItem p = some item) (hty : item.type = .malloc)
    (hst : item.status = .allocated) (hraw : env.raw ≠ p)
    (hrem : removeCorrespondingTrace ((st.capture env).reallocn item.realAddress env.raw)
      item.allocTrace = .ok st') :
    (testOperatorReAlloc st env p n).st.counted <
      (testOperatorReAlloc st.withNdebug env p n).st.counted := by
  set u := (st.capture env).reallocn item.realAddress env.raw with hu
  have hud : u.ndebug = false := by simpa [hu] using hd
  have hfd : (st.capture env).findMemoryItem p = some item := hf
  have hfr : (st.withNdebug.capture env).findMemoryItem p = some item := hf
  have hur : (st.withNdebug.capture env).reallocn item.realAddress env.raw = u.withNdebug :=
    reallocn_withNdebug (st.capture env) _ _
  have hremr := removal_withNdebug hud hrem
  have hless : st'.counted + 1 = u.counted := removeCorrespondingTrace_counted hud hrem
  have hframe := removeCorrespondingTrace_frame hrem
  have hty' : ¬ item.type ≠ .malloc := fun h => h hty
  have hst' : ¬ item.status ≠ .allocated := fun h => h hst
  have hcapt : st.withNdebug.captured env = st.captured env := rfl
  rw [testOperatorReAlloc_body env ho hp hn,
    testOperatorReAlloc_body env (withNdebug_outermost ho) hp hn, hfd, hfr]
  simp only [if_neg hty', if_neg hst', if_neg hraw, ← hu, hur, hrem, hremr, hcapt]
  have humax : 0 < u.unMaxNumberOfAllocFromTheSameStack := by simpa [hu] using hmax
  have hurmax : 0 < (u.withNdebug.setMemoryItem p { item with
    status := .duringReallocChanged }).unMaxNumberOfAllocFromTheSameStack := humax
  refine addNew_counted_lt ?_ ?_ hurmax ?_ ?_ .malloc
  · simp only [State.setMemoryItem]
    rw [hframe]
    rfl
  · show 0 < st'.unMaxNumberOfAllocFromTheSameStack
    rw [hframe]
    exact humax
  · intro t ht
    exact removal_unknown hud hrem ht
  · show st'.counted < u.counted
    omega

/-- A call that takes a stack out parts the builds. -/
theorem call_parted (hs : Sound st) (hpos : st.CountersPositive) (ho : st.Outermost)
    (hmax : 0 < st.unMaxNumberOfAllocFromTheSameStack) {c : Call}
    (h : TakesStackOut st (c, env)) :
    (call st env c).st.counted < (call st.withNdebug env c).st.counted := by
  obtain ⟨p, item, t, e, hf, hst, ht, hfe, ⟨ty, heff⟩ | ⟨n, heff, hty, hraw⟩⟩ := h
  · have hcapd : (st.capture env).ndebug = false := hs.ndebug
    obtain ⟨st₁, hrem⟩ := (removal_ok_iff hs hpos hf (@capture_stackItems st env) rfl hcapd).mpr
      ⟨t, e, ht, hfe⟩
    rw [call_release ho heff, call_release (withNdebug_outermost ho) heff]
    exact testOperatorDelete_parted hs.ndebug ho (release_ne_zero heff).1 ty hf hst hrem
  · obtain ⟨-, hp, hn⟩ := move_ne_zero heff
    have hreqd : ((st.capture env).reallocn item.realAddress env.raw).traces.data =
        (st.capture env).traces.data := by simp
    obtain ⟨st₁, hrem⟩ := (removal_ok_iff hs hpos hf (by simp) hreqd
      (by simpa using hs.ndebug)).mpr ⟨t, e, ht, hfe⟩
    rw [call_move heff, call_move heff]
    exact testOperatorReAlloc_parted hs.ndebug ho hmax hp hn hf hty hst hraw hrem

end Parted

/-! ## Main result -/

/-- The invariant of the two builds while no stack is taken out. -/
structure BuildsInv (b : Build × Build) : Prop where
  same : b.2.st = b.1.st.withNdebug ∨ (b.1.st.process ≠ .running ∧ b.2.st.process ≠ .running ∧
    b.2.st.memoryItems = b.1.st.memoryItems ∧ b.2.st.stackItems = b.1.st.stackItems)
  leakReports : b.2.leakReports = b.1.leakReports
  sound : Sound b.1.st
  counters : b.1.st.CountersPositive
  threshold : 0 < b.1.st.unMaxNumberOfAllocFromTheSameStack

/-- Every threshold that is set is positive. -/
def ThresholdsPositive (_ : Build × Build) (c : Call × Env) : Prop := SetsPositiveMax c.1

theorem BuildsInv.init {n : ℕ} (hn : 0 < n) : BuildsInv (Builds.init n) := by
  refine ⟨Or.inl rfl, rfl, Sound.init.congr rfl rfl (Nat.le_refl _) rfl rfl Sound.init.null, ?_, hn⟩
  intro e he
  simp [Builds.init, State.init] at he

theorem BuildsInv.sameBuilds {b : Build × Build} (h : BuildsInv b) : SameBuilds b := by
  rcases h.same with hst | ⟨-, -, hmem, hstk⟩
  · exact ⟨by rw [hst]; rfl, by rw [hst]; rfl, h.leakReports⟩
  · exact ⟨by rw [hmem], by rw [hstk], h.leakReports⟩

/-- The builds after a call, as long as they are the same and running. -/
theorem buildsStep_running {b : Build × Build} (hrun : b.1.st.process = .running)
    (hst : b.2.st = b.1.st.withNdebug) (c : Call × Env) :
    buildsStep b c = (⟨(call b.1.st c.2 c.1).st, b.1.leakReports ++ (call b.1.st c.2 c.1).leakReports⟩,
      ⟨(call b.1.st.withNdebug c.2 c.1).st,
        b.2.leakReports ++ (call b.1.st.withNdebug c.2 c.1).leakReports⟩) := by
  have hrun' : b.2.st.process = .running := by
    rw [hst]
    exact hrun
  simp only [buildsStep, Build.step, if_pos hrun, if_pos hrun']
  rw [hst]

theorem buildsStep_ended {b : Build × Build} (h1 : b.1.st.process ≠ .running)
    (h2 : b.2.st.process ≠ .running) (c : Call × Env) : buildsStep b c = b := by
  simp only [buildsStep, Build.step, if_neg h1, if_neg h2]

theorem BuildsInv.ended {b : Build × Build} (h : BuildsInv b) (hrun : b.1.st.process ≠ .running)
    (c : Call × Env) : buildsStep b c = b := by
  refine buildsStep_ended hrun ?_ c
  rcases h.same with hst | ⟨-, h2, -, -⟩
  · rw [hst]
    exact hrun
  · exact h2

theorem BuildsInv.step {b : Build × Build} (h : BuildsInv b) {c : Call × Env}
    (hmax : SetsPositiveMax c.1) (hno : TakesNoStackOut b c) : BuildsInv (buildsStep b c) := by
  by_cases hrun : b.1.st.process = .running
  · have hst : b.2.st = b.1.st.withNdebug := by
      rcases h.same with hst | ⟨h1, -⟩
      · exact hst
      · exact absurd hrun h1
    have ho : b.1.st.Outermost := ⟨hrun, h.sound.flag⟩
    obtain ⟨hsame, hleak⟩ := call_sameBuild h.sound h.counters ho (hno hrun)
    rw [buildsStep_running hrun hst]
    refine ⟨hsame, by rw [hleak, h.leakReports], h.sound.call ho c.1,
      h.counters.call h.sound.ndebug ho c.1, ?_⟩
    by_cases hset : ∃ n, c.1.effect = .setMax n
    · obtain ⟨n, hn⟩ := hset
      rw [(call_setMax hn).1]
      exact hmax n hn
    · rw [call_threshold ho fun n hn => hset ⟨n, hn⟩]
      exact h.threshold
  · rw [h.ended hrun c]
    exact h

theorem BuildsInv.parted {b : Build × Build} (h : BuildsInv b) {c : Call × Env}
    (htake : ¬ TakesNoStackOut b c) : ¬ SameBuilds (buildsStep b c) := by
  unfold TakesNoStackOut at htake
  push Not at htake
  obtain ⟨hrun, htake⟩ := htake
  have hst : b.2.st = b.1.st.withNdebug := by
    rcases h.same with hst | ⟨h1, -⟩
    · exact hst
    · exact absurd hrun h1
  have hlt := call_parted h.sound h.counters ⟨hrun, h.sound.flag⟩ h.threshold htake
  intro hsame
  have hperm := hsame.stackItems
  rw [buildsStep_running hrun hst] at hperm
  have hsum : (call b.1.st.withNdebug c.2 c.1).st.counted = (call b.1.st c.2 c.1).st.counted :=
    (hperm.map Prod.snd).sum_eq
  omega

/-- The two builds of a program agree after every call exactly when no call takes a stack out. -/
theorem builds_agree_iff {n : ℕ} (hn : 0 < n) {cs : List (Call × Env)}
    (hcs : Runs.Along buildsStep ThresholdsPositive (Builds.init n) cs) :
    Runs.Always buildsStep SameBuilds (Builds.init n) cs ↔
      Runs.Along buildsStep TakesNoStackOut (Builds.init n) cs :=
  Runs.always_iff_along (fun _ hI => hI.sameBuilds) (fun _ _ hI hV hC => hI.step hV hC)
    (fun _ _ hI _ hC => hI.parted hC) (BuildsInv.init hn) hcs

/-- Two blocks of one stack, one of which is resized in place. -/
theorem builds_agree_iff_resized :
    let block : ℕ → Env := fun raw => .giving raw [7] .doNotMakeActionToPreventCrash
    let cs : List (Call × Env) := [(.alloc 8 .malloc false, block 16),
      (.alloc 8 .new true, block 32), (.reAlloc 16 24, block 16)]
    Runs.Always buildsStep SameBuilds (Builds.init 1) cs := by
  intro block cs
  have hcs : Runs.Along buildsStep ThresholdsPositive (Builds.init 1) cs := by
    refine ⟨?_, ?_, ?_, trivial⟩
    · intro n h
      cases h
    · intro n h
      cases h
    · intro n h
      cases h
  refine (builds_agree_iff Nat.one_pos hcs).mpr ⟨?_, ?_, ?_, trivial⟩
  · rintro - ⟨p, item, t, e, -, -, -, -, ⟨ty, h⟩ | ⟨n, h, -⟩⟩ <;> cases h
  · rintro - ⟨p, item, t, e, -, -, -, -, ⟨ty, h⟩ | ⟨n, h, -⟩⟩ <;> cases h
  · rintro - ⟨p, item, t, e, -, -, -, -, ⟨ty, h⟩ | ⟨n, h, -, hraw⟩⟩
    · cases h
    · cases h
      exact hraw rfl

/-- A block is released and its address is issued again to the same stack: under the threshold `1` the
release build counts two blocks and reports a leak, the debug build does not. -/
theorem release_build_reports_leak :
    let block : Env := .giving 16 [7] .doNotMakeActionToPreventCrash
    let cs : List (Call × Env) := [(.alloc 8 .malloc false, block), (.delete 16 .malloc, block),
      (.alloc 8 .malloc false, block)]
    ¬ Runs.Always buildsStep SameBuilds (Builds.init 1) cs ∧
      (Runs.final buildsStep (Builds.init 1) cs).1.leakReports = [] ∧
      (Runs.final buildsStep (Builds.init 1) cs).2.leakReports ≠ [] := by
  intro block cs
  have hdebug : (Runs.final buildsStep (Builds.init 1) cs).1.leakReports = [] := by decide
  have hrelease : (Runs.final buildsStep (Builds.init 1) cs).2.leakReports ≠ [] := by decide
  refine ⟨fun h => ?_, hdebug, hrelease⟩
  have hsame := h.final.leakReports
  rw [hdebug] at hsame
  exact hrelease hsame

end CrashInvestigator.Tracker
