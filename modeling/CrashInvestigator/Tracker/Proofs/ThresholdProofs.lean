import CrashInvestigator.Tracker.Proofs.AgreementProofs

/-!
# The leak threshold

Two runs of the same calls whose thresholds are changed at different moments keep the same tables, as
long as no block of a known stack is registered under a zero threshold in one run and a positive one
in the other: the counter is incremented inside the test of the threshold.
-/

namespace CrashInvestigator.Tracker

open Library

/-! ## Statements -/

/-- Leak callbacks leave the state alone. -/
def RefusesLeakActions (env : Env) : Prop :=
  ∀ d, d.failureType = .possibilityOfMemoryLeak → env.clbkFnc d = .doNotMakeActionToPreventCrash

/-- A running process makes a call of an otherwise correct program. -/
def TrackedWhileRunning (st : State) (c : Call × Env) : Prop := st.process = .running → Tracked st c

/-- No block of a known stack is registered under a zero threshold. -/
def CountsEveryBlock (st : State) (c : Call × Env) : Prop :=
  st.process = .running → CountsKnownStack st c → 0 < st.unMaxNumberOfAllocFromTheSameStack

/-! ## Two states that differ in the threshold and in the released traces -/

structure Alike (s s' : State) : Prop where
  memoryItems : s'.memoryItems = s.memoryItems
  stackItems : s'.stackItems = s.stackItems
  flag : s'.bIsAllocingOrDeallocing = s.bIsAllocingOrDeallocing
  next : s'.traces.next = s.traces.next
  data : s'.traces.data = s.traces.data
  live : s'.live = s.live
  ndebug : s'.ndebug = s.ndebug
  process : s'.process = s.process

section Bodies

variable {s s' : State} {env : Env}

theorem Alike.refl (s : State) : Alike s s := ⟨rfl, rfl, rfl, rfl, rfl, rfl, rfl, rfl⟩

theorem Alike.findMemoryItem (h : Alike s s') (p : Addr) :
    s'.findMemoryItem p = s.findMemoryItem p := findMemoryItem_congr h.memoryItems p

theorem Alike.sameStackAs (h : Alike s s') (t : ℕ) :
    s'.traces.sameStackAs t = s.traces.sameStackAs t := by
  unfold TraceHeap.sameStackAs
  rw [h.data]

theorem Alike.findStackItem (h : Alike s s') (t : ℕ) : s'.findStackItem t = s.findStackItem t :=
  findStackItem_congr h.stackItems h.data t

theorem Alike.outermost (h : Alike s s') (ho : s.Outermost) : s'.Outermost :=
  ⟨h.process.trans ho.1, h.flag.trans ho.2⟩

theorem Alike.captured (h : Alike s s') (env : Env) : s'.captured env = s.captured env := by
  unfold State.captured initBacktraceDataForCurrentStack
  cases env.stack with
  | none => rfl
  | some b => simp only [h.next]

theorem Alike.capture (h : Alike s s') (env : Env) : Alike (s.capture env) (s'.capture env) := by
  refine ⟨h.memoryItems, h.stackItems, h.flag, ?_, ?_, h.live, h.ndebug, h.process⟩
  · unfold State.capture initBacktraceDataForCurrentStack
    cases env.stack with
    | none => exact h.next
    | some b => simp only [h.next]
  · unfold State.capture initBacktraceDataForCurrentStack
    cases env.stack with
    | none => exact h.data
    | some b => simp only [h.next, h.data]

theorem Alike.freen (h : Alike s s') (p : Addr) : Alike (s.freen p) (s'.freen p) :=
  ⟨h.memoryItems, h.stackItems, h.flag, h.next, h.data, by simp [State.freen, h.live], h.ndebug,
    h.process⟩

theorem Alike.mallocn (h : Alike s s') (q : Addr) : Alike (s.mallocn q) (s'.mallocn q) := by
  by_cases hq : q = 0
  · simpa [State.mallocn, hq] using h
  · refine ⟨by simp [h.memoryItems], by simp [h.stackItems], by simp [h.flag], by simp [h.next],
      by simp [h.data], ?_, by simp [h.ndebug], by simp [h.process]⟩
    rw [mallocn_live s q hq, mallocn_live s' q hq, h.live]

theorem Alike.reallocn (h : Alike s s') (p q : Addr) :
    Alike (s.reallocn p q) (s'.reallocn p q) := by
  by_cases hq : q = 0
  · simpa [State.reallocn, hq] using h
  · refine ⟨by simp [h.memoryItems], by simp [h.stackItems], by simp [h.flag], by simp [h.next],
      by simp [h.data], ?_, by simp [h.ndebug], by simp [h.process]⟩
    rw [reallocn_live s p q hq, reallocn_live s' p q hq, h.live]

/-- Releases of traces do not show. -/
theorem Alike.traces (h : Alike s s') {g g' : TraceHeap} (hn : g.next = s.traces.next)
    (hd : g.data = s.traces.data) (hn' : g'.next = s'.traces.next) (hd' : g'.data = s'.traces.data) :
    Alike { s with traces := g } { s' with traces := g' } :=
  ⟨h.memoryItems, h.stackItems, h.flag, by rw [hn, hn', h.next], by rw [hd, hd', h.data], h.live,
    h.ndebug, h.process⟩

theorem Alike.leaveScope (h : Alike s s') (env : Env) (bt : BacktracePtr) :
    Alike (s.leaveScope env bt) (s'.leaveScope env bt) :=
  h.traces (by simp) (by simp) (by simp) (by simp)

theorem Alike.ends (h : Alike s s') (pr : Process) (ev ev' : List Event) :
    Alike (s.ends pr ev).st (s'.ends pr ev').st :=
  ⟨h.memoryItems, h.stackItems, h.flag, h.next, h.data, h.live, h.ndebug, rfl⟩

theorem Alike.setMemoryItem (h : Alike s s') (p : Addr) (item : SMemoryItem) :
    Alike (s.setMemoryItem p item) (s'.setMemoryItem p item) :=
  ⟨by simp [State.setMemoryItem, h.memoryItems], h.stackItems, h.flag, h.next, h.data, h.live,
    h.ndebug, h.process⟩

theorem Alike.setStackItem (h : Alike s s') (t n : ℕ) :
    Alike (s.setStackItem t n) (s'.setStackItem t n) := by
  refine ⟨h.memoryItems, ?_, h.flag, h.next, h.data, h.live, h.ndebug, h.process⟩
  simp only [State.setStackItem, h.stackItems, h.sameStackAs]

theorem Alike.removeStackItem (h : Alike s s') (t : ℕ) :
    Alike (s.removeStackItem t) (s'.removeStackItem t) := by
  refine ⟨h.memoryItems, ?_, h.flag, h.next, h.data, h.live, h.ndebug, h.process⟩
  simp only [State.removeStackItem, h.stackItems, h.sameStackAs]

theorem Alike.initFailure (h : Alike s s') {item : SMemoryItem} {freeType : MemoryType} {p : Addr}
    {n : ℕ} {failureType : FailureType} (hft : failureType ≠ .unknown) {bt : BacktracePtr} :
    Alike (initFailureDataAndCallClbk s env item freeType p n failureType bt).st
      (initFailureDataAndCallClbk s' env item freeType p n failureType bt).st := by
  have hdata := failureData_congr h.data env item freeType p n failureType bt
  rw [initFailure_eq s env item freeType p n failureType bt hft,
    initFailure_eq s' env item freeType p n failureType bt hft, hdata]
  simp only
  cases env.clbkFnc (failureData s env item freeType p n failureType bt) with
  | makeAction =>
    simp only
    split_ifs
    · exact (h.reallocn p env.raw).leaveScope env bt
    · exact (h.freen p).leaveScope env bt
  | doNotMakeActionToPreventCrash => exact h.leaveScope env bt
  | unknown => exact h.ends _ _ _
  | exitApp => exact h.ends _ _ _

/-- The removal of a stack fails in both states or in none. -/
theorem Alike.removeCorrespondingTrace (h : Alike s s') (bt : BacktracePtr) :
    (∃ pr, removeCorrespondingTrace s bt = .error pr ∧
        removeCorrespondingTrace s' bt = .error pr) ∨
      ∃ u u', removeCorrespondingTrace s bt = .ok u ∧ removeCorrespondingTrace s' bt = .ok u' ∧
        Alike u u' := by
  unfold Tracker.removeCorrespondingTrace
  cases bt with
  | none => exact Or.inl ⟨_, rfl, rfl⟩
  | some t =>
    simp only [h.findStackItem, h.ndebug]
    cases s.findStackItem t with
    | none => exact Or.inl ⟨_, rfl, rfl⟩
    | some e =>
      simp only
      split_ifs
      · exact Or.inr ⟨_, _, rfl, rfl, h.removeStackItem t⟩
      · exact Or.inr ⟨_, _, rfl, rfl, h⟩
      · exact Or.inl ⟨_, rfl, rfl⟩
      · exact Or.inr ⟨_, _, rfl, rfl, h.removeStackItem t⟩
      · exact Or.inr ⟨_, _, rfl, rfl, h.setStackItem t _⟩

/-- The record of a block can be registered in both states or in none. -/
theorem Alike.registerMemoryItem (h : Alike s s') (env : Env) (p : Addr) (item : SMemoryItem) :
    (registerMemoryItem s env p item = none ∧ registerMemoryItem s' env p item = none) ∨
      ∃ u u', registerMemoryItem s env p item = some u ∧ registerMemoryItem s' env p item = some u' ∧
        Alike u u' := by
  unfold Tracker.registerMemoryItem
  rw [h.findMemoryItem]
  cases s.findMemoryItem p with
  | none =>
    simp only
    split_ifs
    · refine Or.inr ⟨_, _, rfl, rfl, ?_⟩
      exact ⟨by simp only [h.memoryItems], h.stackItems, h.flag, h.next, h.data, h.live, h.ndebug,
        h.process⟩
    · exact Or.inl ⟨rfl, rfl⟩
  | some old =>
    refine Or.inr ⟨_, _, rfl, rfl, ?_⟩
    exact (h.traces (by simp) (by simp) (by simp) (by simp)).setMemoryItem p item

/-- The counting of a block of a known stack under a positive threshold, with or without a report. -/
theorem registerStackItem_counts {t : ℕ} {e : ℕ × ℕ} (hleak : RefusesLeakActions env)
    (hf : s.findStackItem t = some e) (hmax : 0 < s.unMaxNumberOfAllocFromTheSameStack)
    (item : SMemoryItem) (p : Addr) :
    Alike (s.setStackItem t (e.2 + 1)) (registerStackItem s env item p (some t)).st := by
  rcases registerStackItem_cases s env item p t with ⟨hf', -⟩ | ⟨hf', -⟩ | ⟨e', -, hm, -⟩ |
    ⟨e', hf', -, hr⟩ | ⟨e', hf', -, -, r, hrr, hr⟩
  · rw [hf] at hf'
    cases hf'
  · rw [hf] at hf'
    cases hf'
  · omega
  · rw [hf] at hf'
    cases hf'
    rw [hr]
    exact Alike.refl _
  · rw [hf] at hf'
    cases hf'
    have hst : (registerStackItem s env item p (some t)).st =
        (s.setStackItem t (e.2 + 1)).leaveScope env (some t) := by
      have hno := initFailure_doNot (s.setStackItem t (e.2 + 1)) env item item.type p 0
        .possibilityOfMemoryLeak (some t) (by simp) (hleak _ rfl)
      rw [hr, hrr, hno]
      split_ifs <;> rfl
    rw [hst]
    have hnext : ((s.setStackItem t (e.2 + 1)).leaveScope env (some t)).traces.next =
        (s.setStackItem t (e.2 + 1)).traces.next := by simp [State.leaveScope]
    have hdata : ((s.setStackItem t (e.2 + 1)).leaveScope env (some t)).traces.data =
        (s.setStackItem t (e.2 + 1)).traces.data := by simp [State.leaveScope]
    exact ⟨rfl, rfl, rfl, hnext, hdata, rfl, rfl, rfl⟩

/-- A block of a known stack is not counted under a zero threshold. -/
theorem registerStackItem_skips {t : ℕ} {e : ℕ × ℕ} (hf : s.findStackItem t = some e)
    (hmax : s.unMaxNumberOfAllocFromTheSameStack = 0) (item : SMemoryItem) (p : Addr) :
    (registerStackItem s env item p (some t)).st = s := by
  rcases registerStackItem_cases s env item p t with ⟨hf', -⟩ | ⟨hf', -⟩ | ⟨e', -, -, hr⟩ |
    ⟨e', -, hlt, -⟩ | ⟨e', -, hpos, -⟩
  · rw [hf] at hf'
    cases hf'
  · rw [hf] at hf'
    cases hf'
  · rw [hr]
  · omega
  · omega

theorem Alike.trans {s'' : State} (h : Alike s s') (h' : Alike s' s'') : Alike s s'' :=
  ⟨h'.memoryItems.trans h.memoryItems, h'.stackItems.trans h.stackItems, h'.flag.trans h.flag,
    h'.next.trans h.next, h'.data.trans h.data, h'.live.trans h.live, h'.ndebug.trans h.ndebug,
    h'.process.trans h.process⟩

theorem Alike.symm (h : Alike s s') : Alike s' s :=
  ⟨h.memoryItems.symm, h.stackItems.symm, h.flag.symm, h.next.symm, h.data.symm, h.live.symm,
    h.ndebug.symm, h.process.symm⟩

/-- The two thresholds are both zero or both positive. -/
def SameLimit (s s' : State) : Prop :=
  s.unMaxNumberOfAllocFromTheSameStack = 0 ↔ s'.unMaxNumberOfAllocFromTheSameStack = 0

theorem Alike.registerStackItem (h : Alike s s') (hleak : RefusesLeakActions env)
    {bt : BacktracePtr} (hlimit : ∀ t e, bt = some t → s.findStackItem t = some e → SameLimit s s')
    (item : SMemoryItem) (p : Addr) :
    Alike (registerStackItem s env item p bt).st (registerStackItem s' env item p bt).st := by
  cases bt with
  | none => exact h.ends .crashed [] []
  | some t =>
    cases hf : s.findStackItem t with
    | none =>
      have hf' : s'.findStackItem t = none := by rw [h.findStackItem, hf]
      simp only [Tracker.registerStackItem, hf, hf']
      split_ifs
      · exact ⟨h.memoryItems, by simp only [h.stackItems], h.flag, h.next, h.data, h.live, h.ndebug,
          h.process⟩
      · exact h
    | some e =>
      have hf' : s'.findStackItem t = some e := by rw [h.findStackItem, hf]
      have hsame := hlimit t e rfl hf
      by_cases hmax : s.unMaxNumberOfAllocFromTheSameStack = 0
      · have hskip : (Tracker.registerStackItem s env item p (some t)).st = s :=
          registerStackItem_skips hf hmax item p
        have hskip' : (Tracker.registerStackItem s' env item p (some t)).st = s' :=
          registerStackItem_skips hf' (hsame.mp hmax) item p
        rw [hskip, hskip']
        exact h
      · have hmax' : s'.unMaxNumberOfAllocFromTheSameStack ≠ 0 := fun h0 => hmax (hsame.mpr h0)
        have hc := registerStackItem_counts hleak hf (by omega) item p
        have hc' := registerStackItem_counts hleak hf' (by omega) item p
        exact (hc.symm.trans (h.setStackItem t _)).trans hc'

/-- Counting under a zero threshold in one state and a positive one in the other parts the tables. -/
theorem Alike.registerStackItem_ne (h : Alike s s') (hleak : RefusesLeakActions env) {t : ℕ}
    {e : ℕ × ℕ} (hf : s.findStackItem t = some e) (hlimit : ¬ SameLimit s s') (item : SMemoryItem)
    (p : Addr) : (Tracker.registerStackItem s' env item p (some t)).st.stackItems ≠
      (Tracker.registerStackItem s env item p (some t)).st.stackItems := by
  -- one of the two leaves the counter alone, the other one increments it
  have hone : ∀ {u u' : State}, Alike u u' → u.findStackItem t = some e →
      u.unMaxNumberOfAllocFromTheSameStack = 0 → u'.unMaxNumberOfAllocFromTheSameStack ≠ 0 →
      (Tracker.registerStackItem u' env item p (some t)).st.stackItems ≠
        (Tracker.registerStackItem u env item p (some t)).st.stackItems := by
    intro u u' hu hfu hzero hpos
    have hfu' : u'.findStackItem t = some e := by rw [hu.findStackItem, hfu]
    have hskip : (Tracker.registerStackItem u env item p (some t)).st = u :=
      registerStackItem_skips hfu hzero item p
    have hcount := registerStackItem_counts hleak hfu' (by omega) item p
    rw [hskip, hcount.stackItems, ← hu.stackItems]
    exact Entries.setFirst_ne hfu' (by omega)
  by_cases hmax : s.unMaxNumberOfAllocFromTheSameStack = 0
  · have hpos : s'.unMaxNumberOfAllocFromTheSameStack ≠ 0 := fun h0 =>
      hlimit ⟨fun _ => h0, fun _ => hmax⟩
    exact hone h hf hmax hpos
  · have hzero : s'.unMaxNumberOfAllocFromTheSameStack = 0 := by
      by_contra h0
      exact hlimit ⟨fun hz => absurd hz hmax, fun hz => absurd hz h0⟩
    have hf' : s'.findStackItem t = some e := by rw [h.findStackItem, hf]
    exact (hone h.symm hf' hzero hmax).symm

/-! ## Calls in two states -/

theorem Alike.addNew (h : Alike s s') (hleak : RefusesLeakActions env) {ty : MemoryType} {p : Addr}
    {bt : BacktracePtr}
    (hlimit : ∀ u t e, Tracker.registerMemoryItem s env p ⟨ty, .allocated, p, bt, none⟩ = some u →
      bt = some t → u.findStackItem t = some e → SameLimit s s') :
    Alike (addNewAllocatedMemoryAndCleanOldEntryNoLock s env ty p bt).st
      (addNewAllocatedMemoryAndCleanOldEntryNoLock s' env ty p bt).st := by
  rcases h.registerMemoryItem env p ⟨ty, .allocated, p, bt, none⟩ with ⟨hn, hn'⟩ |
    ⟨u, u', hu, hu', halike⟩
  · simp only [addNewAllocatedMemoryAndCleanOldEntryNoLock, hn, hn']
    exact h
  · simp only [addNewAllocatedMemoryAndCleanOldEntryNoLock, hu, hu']
    refine halike.registerStackItem hleak ?_ _ p
    intro t e hbt hf
    obtain ⟨-, -, -, -, -, hmax, -⟩ := registerMemoryItem_frame hu
    obtain ⟨-, -, -, -, -, hmax', -⟩ := registerMemoryItem_frame hu'
    unfold SameLimit
    rw [hmax, hmax']
    exact hlimit u t e hu hbt hf

theorem Alike.testOperatorDelete (h : Alike s s') (ho : s.Outermost) {p : Addr} (hp : p ≠ 0)
    (t : MemoryType) :
    Alike (Tracker.testOperatorDelete s env p t).st (Tracker.testOperatorDelete s' env p t).st := by
  have hcap := h.capture env
  rw [testOperatorDelete_body env ho hp, testOperatorDelete_body env (h.outermost ho) hp,
    hcap.findMemoryItem, h.captured]
  cases (s.capture env).findMemoryItem p with
  | none =>
    simp only [deleteUntracked]
    split_ifs
    · exact hcap
    · exact (hcap.traces (by simp) (by simp) (by simp) (by simp)).freen p
  | some item =>
    simp only
    by_cases hst : item.status = .allocated
    · rw [if_neg (by simp [hst]), if_neg (by simp [hst])]
      rcases hcap.removeCorrespondingTrace item.allocTrace with ⟨pr, hr, hr'⟩ |
        ⟨u, u', hr, hr', hu⟩
      · simp only [hr, hr']
        exact hcap.ends pr [] []
      · simp only [hr, hr']
        by_cases hty : item.type = t
        · rw [if_neg (by simp [hty]), if_neg (by simp [hty])]
          exact (hu.setMemoryItem p _).freen _
        · rw [if_pos hty, if_pos hty]
          exact hu.initFailure (by simp)
    · rw [if_pos hst, if_pos hst]
      exact hcap.initFailure (by simp)

theorem Alike.testOperatorReAlloc (h : Alike s s') (ho : s.Outermost) (hleak : RefusesLeakActions env)
    {p : Addr} {n : ℕ} (hp : p ≠ 0) (hn : n ≠ 0)
    (hlimit : ∀ item u v t e, s.findMemoryItem p = some item → item.type = .malloc →
      item.status = .allocated → env.raw ≠ p →
      Tracker.removeCorrespondingTrace ((s.capture env).reallocn item.realAddress env.raw)
        item.allocTrace = Except.ok u →
      Tracker.registerMemoryItem (u.setMemoryItem p { item with status := .duringReallocChanged }) env
        env.raw ⟨.malloc, .allocated, env.raw, s.captured env, none⟩ = some v →
      s.captured env = some t → v.findStackItem t = some e → SameLimit s s') :
    Alike (Tracker.testOperatorReAlloc s env p n).st (Tracker.testOperatorReAlloc s' env p n).st := by
  have hcap := h.capture env
  rw [testOperatorReAlloc_body env ho hp hn, testOperatorReAlloc_body env (h.outermost ho) hp hn,
    hcap.findMemoryItem, h.captured]
  cases hf : (s.capture env).findMemoryItem p with
  | none =>
    simp only [reAllocUntracked]
    cases env.initialRealloc with
    | some q => exact hcap
    | none => exact (hcap.traces (by simp) (by simp) (by simp) (by simp)).reallocn p env.raw
  | some item =>
    simp only
    by_cases hty : item.type = .malloc
    · have hty' : ¬ item.type ≠ .malloc := fun hne => hne hty
      rw [if_neg hty', if_neg hty']
      by_cases hst : item.status = .allocated
      · have hst' : ¬ item.status ≠ .allocated := fun hne => hne hst
        rw [if_neg hst', if_neg hst']
        have hmoved := hcap.reallocn item.realAddress env.raw
        by_cases hraw : env.raw = p
        · rw [if_pos hraw, if_pos hraw]
          exact hmoved.traces (by simp) (by simp) (by simp) (by simp)
        · rw [if_neg hraw, if_neg hraw]
          rcases hmoved.removeCorrespondingTrace item.allocTrace with ⟨pr, hr, hr'⟩ |
            ⟨u, u', hr, hr', hu⟩
          · simp only [hr, hr']
            exact hmoved.ends pr _ _
          · simp only [hr, hr']
            refine (hu.setMemoryItem p _).addNew hleak ?_
            intro v t e hv ht hfe
            have hsame := hlimit item u v t e hf hty hst hraw hr hv ht hfe
            have hframe := removeCorrespondingTrace_frame hr
            have hframe' := removeCorrespondingTrace_frame hr'
            unfold SameLimit
            show u.unMaxNumberOfAllocFromTheSameStack = 0 ↔
              u'.unMaxNumberOfAllocFromTheSameStack = 0
            rw [hframe, hframe']
            simp only [reallocn_threshold, capture_threshold]
            exact hsame
      · rw [if_pos hst, if_pos hst]
        exact hcap.initFailure (by simp)
    · rw [if_pos hty, if_pos hty]
      exact hcap.initFailure (by simp)

/-- The two ways a call gets to the counting of a block. -/
theorem countingEntry_cases {c : Call} {u : State} {bt : BacktracePtr} :
    s.countingEntry (c, env) = some (u, bt) ↔ bt = s.captured env ∧
      ((∃ t, c.effect = .allocate t ∧ env.raw ≠ 0 ∧
          registerMemoryItem ((s.mallocn env.raw).capture env) env env.raw
            ⟨t, .allocated, env.raw, s.captured env, none⟩ = some u) ∨
        ∃ p n item v, c.effect = .move p n ∧ s.findMemoryItem p = some item ∧
          item.type = .malloc ∧ item.status = .allocated ∧ env.raw ≠ p ∧
          removeCorrespondingTrace ((s.capture env).reallocn item.realAddress env.raw)
            item.allocTrace = .ok v ∧
          registerMemoryItem (v.setMemoryItem p { item with status := .duringReallocChanged }) env
            env.raw ⟨.malloc, .allocated, env.raw, s.captured env, none⟩ = some u) := by
  constructor
  · intro h
    unfold State.countingEntry at h
    cases heff : c.effect with
    | nothing => simp [heff] at h
    | setMax n => simp [heff] at h
    | release p t => simp [heff] at h
    | allocate t =>
      by_cases hraw : env.raw = 0
      · simp [heff, hraw] at h
      · simp only [heff, hraw, if_false, Option.map_eq_some_iff] at h
        obtain ⟨v, hreg, hv⟩ := h
        cases hv
        exact ⟨rfl, Or.inl ⟨t, rfl, hraw, hreg⟩⟩
    | move p n =>
      simp only [heff] at h
      cases hf : s.findMemoryItem p with
      | none => simp [hf] at h
      | some item =>
        simp only [hf] at h
        split_ifs at h with hitem
        obtain ⟨hty, hst, hraw⟩ := hitem
        cases hrem : removeCorrespondingTrace ((s.capture env).reallocn item.realAddress env.raw)
            item.allocTrace with
        | error pr => simp [hrem] at h
        | ok v =>
          simp only [hrem, Option.map_eq_some_iff] at h
          obtain ⟨w, hreg, hw⟩ := h
          cases hw
          exact ⟨rfl, Or.inr ⟨p, n, item, v, rfl, hf, hty, hst, hraw, hrem, hreg⟩⟩
  · rintro ⟨rfl, ⟨t, heff, hraw, hreg⟩ | ⟨p, n, item, v, heff, hf, hty, hst, hraw, hrem, hreg⟩⟩
    · simp only [State.countingEntry, heff, hraw, if_false, hreg, Option.map_some]
    · have hitem : item.type = .malloc ∧ item.status = .allocated ∧ env.raw ≠ p := ⟨hty, hst, hraw⟩
      simp only [State.countingEntry, heff, hf, if_pos hitem, hrem, hreg, Option.map_some]

/-- The type a call registers its block with. -/
def Effect.registeredType : Effect → MemoryType
  | .allocate t => t
  | _ => .malloc

/-- A call that gets to the counting of its block ends with it. -/
theorem countingEntry_spec (ho : s.Outermost) {c : Call} {u : State} {bt : BacktracePtr}
    (h : s.countingEntry (c, env) = some (u, bt)) :
    (call s env c).st = (registerStackItem u env
        ⟨c.effect.registeredType, .allocated, env.raw, bt, none⟩ env.raw bt).st ∧
      u.unMaxNumberOfAllocFromTheSameStack = s.unMaxNumberOfAllocFromTheSameStack := by
  obtain ⟨rfl, ⟨t, heff, hraw, hreg⟩ | ⟨p, n, item, v, heff, hf, hty, hst, hraw, hrem, hreg⟩⟩ :=
    countingEntry_cases.mp h
  · obtain ⟨-, -, -, -, -, hmax, -⟩ := registerMemoryItem_frame hreg
    refine ⟨?_, by simpa using hmax⟩
    rw [call_allocate_st ho heff hraw, heff]
    simp only [addNewAllocatedMemoryAndCleanOldEntryNoLock, hreg, Effect.registeredType]
  · obtain ⟨-, -, -, -, -, hmax, -⟩ := registerMemoryItem_frame hreg
    have hframe := removeCorrespondingTrace_frame hrem
    have hv : v.unMaxNumberOfAllocFromTheSameStack = s.unMaxNumberOfAllocFromTheSameStack := by
      rw [hframe]
      simp
    refine ⟨?_, hmax.trans hv⟩
    obtain ⟨-, hp, hn⟩ := move_ne_zero heff
    have hty' : ¬ item.type ≠ .malloc := fun hne => hne hty
    have hst' : ¬ item.status ≠ .allocated := fun hne => hne hst
    have hf' : (s.capture env).findMemoryItem p = some item := hf
    rw [call_move heff, testOperatorReAlloc_body env ho hp hn, hf', heff]
    simp only [if_neg hty', if_neg hst', if_neg hraw, hrem,
      addNewAllocatedMemoryAndCleanOldEntryNoLock, hreg, Effect.registeredType]

/-- Two like states get to the counting of a block together. -/
theorem Alike.countingEntry (h : Alike s s') {c : Call} {u : State} {bt : BacktracePtr}
    (hu : s.countingEntry (c, env) = some (u, bt)) :
    ∃ u', s'.countingEntry (c, env) = some (u', bt) ∧ Alike u u' := by
  obtain ⟨rfl, ⟨t, heff, hraw, hreg⟩ | ⟨p, n, item, v, heff, hf, hty, hst, hraw, hrem, hreg⟩⟩ :=
    countingEntry_cases.mp hu
  · rcases ((h.mallocn env.raw).capture env).registerMemoryItem env env.raw
      ⟨t, .allocated, env.raw, s.captured env, none⟩ with ⟨hn, -⟩ | ⟨w, w', hw, hw', hww⟩
    · rw [hreg] at hn
      cases hn
    · rw [hreg] at hw
      cases hw
      rw [← h.captured] at hw'
      exact ⟨w', countingEntry_cases.mpr ⟨(h.captured env).symm, Or.inl ⟨t, heff, hraw, hw'⟩⟩, hww⟩
  · rcases ((h.capture env).reallocn item.realAddress env.raw).removeCorrespondingTrace
      item.allocTrace with ⟨pr, hr, -⟩ | ⟨x, x', hx, hx', hxx⟩
    · rw [hrem] at hr
      cases hr
    · rw [hrem] at hx
      cases hx
      rcases (hxx.setMemoryItem p { item with status := .duringReallocChanged }).registerMemoryItem
        env env.raw ⟨.malloc, .allocated, env.raw, s.captured env, none⟩ with ⟨hn, -⟩ |
        ⟨w, w', hw, hw', hww⟩
      · rw [hreg] at hn
        cases hn
      · rw [hreg] at hw
        cases hw
        rw [← h.captured] at hw'
        refine ⟨w', countingEntry_cases.mpr ⟨(h.captured env).symm, Or.inr ?_⟩, hww⟩
        exact ⟨p, n, item, x', heff, by rw [h.findMemoryItem, hf], hty, hst, hraw, hx', hw'⟩

/-- Like states stay alike when the thresholds do not matter to the call. -/
theorem Alike.call (h : Alike s s') (ho : s.Outermost) (hleak : RefusesLeakActions env) {c : Call}
    (hlimit : CountsKnownStack s (c, env) → SameLimit s s') :
    Alike (call s env c).st (call s' env c).st := by
  have ho' := h.outermost ho
  cases heff : c.effect with
  | nothing =>
    rw [(call_nothing ho heff).1, (call_nothing ho' heff).1]
    exact h
  | setMax n =>
    rw [(call_setMax heff).1, (call_setMax heff).1]
    exact ⟨h.memoryItems, h.stackItems, h.flag, h.next, h.data, h.live, h.ndebug, h.process⟩
  | release p t =>
    rw [call_release ho heff, call_release ho' heff]
    exact h.testOperatorDelete ho (release_ne_zero heff).1 t
  | allocate t =>
    by_cases hraw : env.raw = 0
    · rw [(call_allocate_null ho heff hraw).1, (call_allocate_null ho' heff hraw).1]
      exact h
    · rw [call_allocate_st ho heff hraw, call_allocate_st ho' heff hraw, h.captured]
      refine ((h.mallocn env.raw).capture env).addNew hleak ?_
      intro u t' e hreg ht hf
      have hsame := hlimit ⟨u, t', e, countingEntry_cases.mpr
        ⟨ht.symm, Or.inl ⟨t, heff, hraw, hreg⟩⟩, hf⟩
      unfold SameLimit
      simp only [capture_threshold, mallocn_threshold]
      exact hsame
  | move p n =>
    obtain ⟨-, hp, hn⟩ := move_ne_zero heff
    rw [call_move heff, call_move heff]
    refine h.testOperatorReAlloc ho hleak hp hn ?_
    intro item u v t e hf hty hst hraw hrem hreg ht hfe
    exact hlimit ⟨v, t, e, countingEntry_cases.mpr
      ⟨ht.symm, Or.inr ⟨p, n, item, u, heff, hf, hty, hst, hraw, hrem, hreg⟩⟩, hfe⟩

/-- A call that counts a block of a known stack parts the tables when the thresholds disagree. -/
theorem Alike.call_ne (h : Alike s s') (ho : s.Outermost) (hleak : RefusesLeakActions env)
    {c : Call} (hknown : CountsKnownStack s (c, env)) (hlimit : ¬ SameLimit s s') :
    (Tracker.call s' env c).st.stackItems ≠ (Tracker.call s env c).st.stackItems := by
  obtain ⟨u, t, e, hentry, hf⟩ := hknown
  obtain ⟨u', hentry', huu⟩ := h.countingEntry hentry
  obtain ⟨hcall, hmax⟩ := countingEntry_spec ho hentry
  obtain ⟨hcall', hmax'⟩ := countingEntry_spec (h.outermost ho) hentry'
  rw [hcall, hcall']
  refine huu.registerStackItem_ne hleak hf ?_ _ _
  unfold SameLimit
  rw [hmax, hmax']
  exact hlimit

/-- What was released of the traces does not show. -/
theorem Alike.of_traces {g g' : TraceHeap} (hnext : g'.next = g.next) (hdata : g'.data = g.data) :
    Alike { s with traces := g } { s with traces := g' } :=
  ⟨rfl, rfl, rfl, hnext, hdata, rfl, rfl, rfl⟩

theorem alike_deleteUntracked (st : State) (env : Env) (p : Addr) (bt : BacktracePtr)
    (m : Option CMemoryItem) :
    Alike (deleteUntracked st env p bt).st
      (deleteUntracked st { env with handlerMemory := m } p bt).st := by
  unfold deleteUntracked
  simp only
  split_ifs
  · exact Alike.refl st
  · exact (Alike.of_traces (by simp) (by simp)).freen p

theorem alike_reAllocUntracked (st : State) (env : Env) (p : Addr) (n : ℕ) (bt : BacktracePtr)
    (m : Option CMemoryItem) :
    Alike (reAllocUntracked st env p n bt).st
      (reAllocUntracked st { env with handlerMemory := m } p n bt).st := by
  unfold reAllocUntracked
  cases env.initialRealloc with
  | some q => exact Alike.refl st
  | none => exact (Alike.of_traces (by simp) (by simp)).reallocn p env.raw

/-- The item of the thread shows in the releases of traces only. -/
theorem alike_handlerMemory (ho : s.Outermost) (c : Call) (m : Option CMemoryItem) :
    Alike (Tracker.call s env c).st (Tracker.call s { env with handlerMemory := m } c).st := by
  cases heff : c.effect with
  | nothing =>
    rw [(call_nothing ho heff).1, (call_nothing ho heff).1]
    exact Alike.refl s
  | setMax n =>
    rw [(call_setMax heff).1, (call_setMax heff).1]
    exact Alike.refl _
  | allocate ty =>
    by_cases hraw : env.raw = 0
    · rw [(call_allocate_null ho heff hraw).1, (call_allocate_null ho heff (by exact hraw)).1]
      exact Alike.refl s
    · rw [call_allocate_st ho heff hraw, call_allocate_st ho heff (by exact hraw)]
      exact Alike.refl _
  | release p t =>
    rw [call_release ho heff, call_release ho heff]
    have hp := (release_ne_zero heff).1
    rw [testOperatorDelete_body env ho hp, testOperatorDelete_body _ ho hp]
    cases hf : (s.capture env).findMemoryItem p with
    | none =>
      have hf' : (s.capture { env with handlerMemory := m }).findMemoryItem p = none := hf
      rw [hf']
      exact alike_deleteUntracked (s.capture env) env p (s.captured env) m
    | some item =>
      have hf' : (s.capture { env with handlerMemory := m }).findMemoryItem p = some item := hf
      rw [hf']
      exact Alike.refl _
  | move p n =>
    obtain ⟨-, hp, hn⟩ := move_ne_zero heff
    rw [call_move heff, call_move heff]
    rw [testOperatorReAlloc_body env ho hp hn, testOperatorReAlloc_body _ ho hp hn]
    cases hf : (s.capture env).findMemoryItem p with
    | none =>
      have hf' : (s.capture { env with handlerMemory := m }).findMemoryItem p = none := hf
      rw [hf']
      exact alike_reAllocUntracked (s.capture env) env p n (s.captured env) m
    | some item =>
      have hf' : (s.capture { env with handlerMemory := m }).findMemoryItem p = some item := hf
      rw [hf']
      exact Alike.refl _

end Bodies

/-! ## The assertions under changing thresholds -/

theorem le_gapAfter (st : State) (c : Call × Env) (gap : Backtrace → ℕ) (s : Backtrace) :
    gap s ≤ gapAfter st c gap s := by
  unfold gapAfter
  split_ifs
  · by_cases hs : s = c.2.stack.getD ⟨[]⟩
    · rw [hs, bump_self]
      omega
    · rw [bump_of_ne gap hs]
  · exact Nat.le_refl _

/-- The gap grows at a call exactly when it registers a block without counting it. -/
theorem gapAfter_eq_iff {st : State} (hrun : st.process = .running) (c : Call × Env)
    (gap : Backtrace → ℕ) : gapAfter st c gap = gap ↔ CountsEveryBlock st c := by
  unfold gapAfter CountsEveryBlock
  split_ifs with h
  · constructor
    · intro heq
      have hs := congrFun heq (c.2.stack.getD ⟨[]⟩)
      rw [bump_self] at hs
      omega
    · intro hpos
      have := hpos hrun h.2
      omega
  · refine ⟨fun _ _ hknown => ?_, fun _ => rfl⟩
    by_contra hzero
    exact h ⟨by omega, hknown⟩

/-- A run that goes on ends with a gap that has grown at every block left uncounted. -/
theorem LeakInv.run {st : State} {gap : Backtrace → ℕ} (h : LeakInv st gap)
    {cs : List (Call × Env)} (hcs : Runs.Along Tracker.step TrackedWhileRunning st cs)
    (hrun : Runs.Always Tracker.step (fun s => s.process = .running) st cs) :
    ∃ gap', LeakInv (Runs.final Tracker.step st cs) gap' ∧ (∀ s, gap s ≤ gap' s) ∧
      (gap' = gap → Runs.Along Tracker.step CountsEveryBlock st cs) := by
  induction cs generalizing st gap with
  | nil => exact ⟨gap, h, fun s => Nat.le_refl _, fun _ => trivial⟩
  | cons c cs ih =>
    obtain ⟨c, env⟩ := c
    obtain ⟨hc, hcs⟩ := hcs
    rcases h.step (hc h.outermost.1) with hstep | ⟨habort, -⟩
    · obtain ⟨gap', hinv, hle, heq⟩ := ih hstep hcs hrun.2
      have hmono := le_gapAfter st (c, env) gap
      refine ⟨gap', hinv, fun s => (hmono s).trans (hle s), fun hgap => ?_⟩
      have hmid : gapAfter st (c, env) gap = gap := by
        funext s
        have h1 := hmono s
        have h2 := hle s
        rw [hgap] at h2
        omega
      exact ⟨(gapAfter_eq_iff h.outermost.1 (c, env) gap).mp hmid, heq (hgap.trans hmid.symm)⟩
    · have hhead := hrun.2.head
      rw [habort] at hhead
      cases hhead

/-- A program that releases all its blocks trips no assertion exactly when every block it registered
was counted. -/
theorem no_assertion_iff {cs : List (Call × Env)}
    (hcs : Runs.Along step TrackedWhileRunning .init cs)
    (hfree : (Runs.final step .init cs).process = .running →
      ∀ s, (Runs.final step .init cs).allocatedCount s = 0) :
    Runs.Always step (fun st => st.process = .running) .init cs ↔
      Runs.Along step CountsEveryBlock .init cs := by
  constructor
  · intro hrun
    obtain ⟨gap', hinv, -, heq⟩ := LeakInv.init.run hcs hrun
    have hzero := hfree hinv.outermost.1
    refine heq ?_
    funext s
    have hbal := hinv.accounted.balance s
    have := hzero s
    omega
  · intro hcount
    clear hfree
    have hall : ∀ {st : State}, LeakInv st (fun _ => 0) → Runs.Along step TrackedWhileRunning st cs →
        Runs.Along step CountsEveryBlock st cs →
        Runs.Always step (fun st => st.process = .running) st cs := by
      clear hcs hcount
      induction cs with
      | nil =>
        intro st hinv _ _
        exact hinv.outermost.1
      | cons c cs ih =>
        intro st hinv hcs hcount
        refine ⟨hinv.outermost.1, ?_⟩
        rcases hinv.step (hcs.1 hinv.outermost.1) with hstep | ⟨-, s, hs⟩
        · rw [(gapAfter_eq_iff hinv.outermost.1 c _).mpr hcount.1] at hstep
          exact ih hstep hcs.2 hcount.2
        · omega
    exact hall LeakInv.init hcs hcount

end CrashInvestigator.Tracker
