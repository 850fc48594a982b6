import CrashInvestigator.Tracker.Accounting

/-!
# The accounting invariant

Each elementary change of the tables shifts the balance by one: registering a record and taking a
stack out both leave one block uncounted, counting it and releasing its record settle it again.
-/

namespace CrashInvestigator.Tracker

open Library

variable {st : State} {gap : Backtrace → ℕ}

@[simp] theorem bump_self (gap : Backtrace → ℕ) (s : Backtrace) : bump gap s s = gap s + 1 := by
  simp [bump]

theorem bump_of_ne (gap : Backtrace → ℕ) {s u : Backtrace} (h : u ≠ s) : bump gap s u = gap u := by
  simp [bump, h]

/-- For a trace with frames, `IsTheSameStack` is equality of contents. -/
theorem sameStackAs_eq {h : TraceHeap} {t : ℕ} (ht : (h.data t).ppBuffer ≠ []) :
    h.sameStackAs t = fun k => decide (h.data k = h.data t) := by
  funext k
  rw [Bool.eq_iff_iff, TraceHeap.sameStackAs, isTheSameStack_iff, decide_eq_true_eq]
  constructor
  · exact fun hk => hk.2
  · exact fun hk => ⟨by rw [hk]; exact ht, hk⟩

theorem findStackItem_none_iff {t : ℕ} (ht : (st.traces.data t).ppBuffer ≠ []) :
    st.findStackItem t = none ↔ st.stackCount (st.traces.data t) = none := by
  simp [State.findStackItem, State.stackCount, Entries.lookup, sameStackAs_eq ht]

theorem findStackItem_some {t : ℕ} (ht : (st.traces.data t).ppBuffer ≠ []) {e : ℕ × ℕ}
    (h : st.findStackItem t = some e) : st.stackCount (st.traces.data t) = some e.2 := by
  rw [State.findStackItem, sameStackAs_eq ht] at h
  simp [State.stackCount, Entries.lookup, h]

/-! ## Moving to a state with the same tables -/

/-- The counts depend on the tables and on the frames of the traces in use only. -/
theorem Accounted.congr (h : Accounted st gap) {st' : State}
    (hmem : st'.memoryItems = st.memoryItems) (hstk : st'.stackItems = st.stackItems)
    (hnext : st.traces.next ≤ st'.traces.next)
    (hdata : ∀ t, t < st.traces.next → st'.traces.data t = st.traces.data t) :
    Accounted st' gap := by
  have hkeys : ∀ s, ∀ e ∈ st.stackItems,
      decide (st'.traces.data e.1 = s) = decide (st.traces.data e.1 = s) := by
    intro s e he
    rw [hdata _ (h.keys e he).1]
  have hstack : ∀ s, st'.stackCount s = st.stackCount s := by
    intro s
    have hfind : Entries.findEntry (fun k => decide (st'.traces.data k = s)) st.stackItems =
        Entries.findEntry (fun k => decide (st.traces.data k = s)) st.stackItems :=
      Entries.findEntry_congr (hkeys s)
    simp only [State.stackCount, Entries.lookup, hstk, hfind]
  have halloc : ∀ s, st'.allocatedCount s = st.allocatedCount s := by
    intro s
    simp only [State.allocatedCount, hmem]
    refine List.countP_congr fun e he => ?_
    obtain ⟨t, ht, hlt, -⟩ := h.records e he
    simp [ht, TraceHeap.holds, hdata t hlt]
  refine ⟨?_, ?_, ?_, ?_⟩
  · intro e he
    rw [hmem] at he
    obtain ⟨t, ht, hlt, hne⟩ := h.records e he
    exact ⟨t, ht, by omega, by rw [hdata t hlt]; exact hne⟩
  · intro e he
    rw [hstk] at he
    obtain ⟨hlt, hne, hpos⟩ := h.keys e he
    exact ⟨by omega, by rw [hdata _ hlt]; exact hne, hpos⟩
  · intro s
    rw [hstk]
    exact (h.unique s).congr (hkeys s)
  · intro s
    rw [hstack, halloc]
    exact h.balance s

theorem Accounted.init : Accounted .init fun _ => 0 := by
  refine ⟨?_, ?_, ?_, ?_⟩
  · intro e he
    simp [State.init] at he
  · intro e he
    simp [State.init] at he
  · intro s
    simp [Entries.AtMostOne, State.init]
  · intro s
    simp [State.stackCount, State.allocatedCount, State.init]

/-- The capture of a stack at the start of a call. -/
theorem Accounted.capture (h : Accounted st gap) (c : Option Backtrace) :
    Accounted { st with traces := (initBacktraceDataForCurrentStack st.traces c).1 } gap :=
  h.congr rfl rfl (initBacktrace_next_le _ _) fun _ ht => initBacktrace_data_of_lt _ _ ht

/-! ## Changes of one counter -/

section Counters

variable {t : ℕ}

/-- Keys whose content is another stack do not meet the test of this one. -/
theorem sameStackAs_disjoint (hne : (st.traces.data t).ppBuffer ≠ []) {u : Backtrace}
    (hu : u ≠ st.traces.data t) :
    ∀ k, decide (st.traces.data k = u) = true → st.traces.sameStackAs t k = false := by
  intro k hk
  simp only [decide_eq_true_eq] at hk
  rw [sameStackAs_eq hne]
  simp [hk, hu]

theorem stackCount_setStackItem (hne : (st.traces.data t).ppBuffer ≠ []) {e : ℕ × ℕ}
    (hf : st.findStackItem t = some e) (n : ℕ) (u : Backtrace) :
    (st.setStackItem t n).stackCount u =
      if u = st.traces.data t then some n else st.stackCount u := by
  split_ifs with hu
  · subst hu
    have hsome : (st.stackCount (st.traces.data t)).isSome := by simp [findStackItem_some hne hf]
    simp only [State.stackCount, State.setStackItem, sameStackAs_eq hne] at hsome ⊢
    exact Entries.lookup_setFirst_self hsome
  · exact Entries.lookup_setFirst_of_disjoint (sameStackAs_disjoint hne hu)

theorem stackCount_removeStackItem (h : Accounted st gap)
    (hne : (st.traces.data t).ppBuffer ≠ []) (u : Backtrace) :
    (st.removeStackItem t).stackCount u =
      if u = st.traces.data t then none else st.stackCount u := by
  split_ifs with hu
  · subst hu
    simp only [State.stackCount, State.removeStackItem, sameStackAs_eq hne]
    exact (h.unique _).lookup_removeFirst_self
  · exact Entries.lookup_removeFirst_of_disjoint (sameStackAs_disjoint hne hu)

/-- Overwriting a counter moves its difference into the gap of its stack. -/
theorem Accounted.setStackItem (h : Accounted st gap) (hne : (st.traces.data t).ppBuffer ≠ [])
    {e : ℕ × ℕ} (hf : st.findStackItem t = some e) {n : ℕ} (hn : 0 < n) {gap' : Backtrace → ℕ}
    (hself : n + gap' (st.traces.data t) = e.2 + gap (st.traces.data t))
    (hother : ∀ u, u ≠ st.traces.data t → gap' u = gap u) :
    Accounted (st.setStackItem t n) gap' := by
  refine ⟨h.records, ?_, fun u => (h.unique u).setFirst, fun u => ?_⟩
  · intro x hx
    rcases Entries.mem_setFirst hx with hx | ⟨hv, -, w, hw⟩
    · exact h.keys x hx
    · obtain ⟨k1, k2, -⟩ := h.keys _ hw
      exact ⟨k1, k2, by omega⟩
  · have hbal := h.balance u
    rw [stackCount_setStackItem hne hf]
    show _ = st.allocatedCount u
    split_ifs with hu
    · rw [hu, findStackItem_some hne hf] at hbal
      simp only [Option.getD_some] at hbal ⊢
      rw [hu]
      omega
    · rw [hother u hu]
      exact hbal

/-- Removing a counter that stands at one leaves a block uncounted. -/
theorem Accounted.removeStackItem (h : Accounted st gap) (hne : (st.traces.data t).ppBuffer ≠ [])
    {e : ℕ × ℕ} (hf : st.findStackItem t = some e) (he : e.2 = 1) :
    Accounted (st.removeStackItem t) (bump gap (st.traces.data t)) := by
  refine ⟨h.records, fun x hx => h.keys x (Entries.mem_of_mem_removeFirst hx),
    fun u => (h.unique u).removeFirst, fun u => ?_⟩
  have hbal := h.balance u
  rw [stackCount_removeStackItem h hne]
  show _ = st.allocatedCount u
  split_ifs with hu
  · rw [hu, findStackItem_some hne hf, he] at hbal
    rw [hu, bump_self]
    simp only [Option.getD_some, Option.getD_none] at hbal ⊢
    omega
  · rw [bump_of_ne gap hu]
    exact hbal

/-- A new counter counts one uncounted block. -/
theorem Accounted.addStackItem (h : Accounted st (bump gap (st.traces.data t)))
    (hlt : t < st.traces.next) (hne : (st.traces.data t).ppBuffer ≠ [])
    (hf : st.findStackItem t = none) :
    Accounted { st with stackItems := (t, 1) :: st.stackItems } gap := by
  have hnone := (findStackItem_none_iff hne).mp hf
  refine ⟨h.records, ?_, fun u => (h.unique u).cons fun hu => ?_, fun u => ?_⟩
  · intro x hx
    rcases List.mem_cons.mp hx with rfl | hx
    · exact ⟨hlt, hne, Nat.one_pos⟩
    · exact h.keys x hx
  · rw [decide_eq_true_eq] at hu
    rw [← hu]
    exact hnone
  · have hbal := h.balance u
    have hnew : State.stackCount { st with stackItems := (t, 1) :: st.stackItems } u =
        if st.traces.data t = u then some 1 else st.stackCount u := by
      show Entries.lookup _ ((t, 1) :: st.stackItems) = _
      rw [Entries.lookup_cons]
      simp only [decide_eq_true_eq]
      rfl
    rw [hnew]
    show _ = st.allocatedCount u
    split_ifs with hu
    · rw [← hu, hnone, bump_self] at hbal
      rw [← hu]
      simp only [Option.getD_some, Option.getD_none] at hbal ⊢
      omega
    · rw [bump_of_ne gap fun e => hu e.symm] at hbal
      exact hbal

end Counters

/-! ## The two halves of a release -/

/-- Without `NDEBUG` the removal of a stack is one of three things. -/
theorem removeCorrespondingTrace_cases (hd : st.ndebug = false) (t : ℕ) :
    (removeCorrespondingTrace st (some t) = .error .aborted ∧
        ∀ e, st.findStackItem t = some e → e.2 = 0) ∨
      (∃ e, st.findStackItem t = some e ∧ e.2 = 1 ∧
        removeCorrespondingTrace st (some t) = .ok (st.removeStackItem t)) ∨
      (∃ e, st.findStackItem t = some e ∧ 1 < e.2 ∧
        removeCorrespondingTrace st (some t) = .ok (st.setStackItem t (e.2 - 1))) := by
  cases hf : st.findStackItem t with
  | none => exact Or.inl ⟨by simp [removeCorrespondingTrace, hf, hd], by simp⟩
  | some e =>
    rcases Nat.lt_trichotomy e.2 1 with h | h | h
    · have h0 : e.2 = 0 := by omega
      refine Or.inl ⟨by simp [removeCorrespondingTrace, hf, hd, h0], fun e' he' => ?_⟩
      cases he'
      exact h0
    · exact Or.inr (Or.inl ⟨e, rfl, h, by simp [removeCorrespondingTrace, hf, hd, h]⟩)
    · refine Or.inr (Or.inr ⟨e, rfl, h, ?_⟩)
      have h0 : e.2 ≠ 0 := by omega
      have h1 : e.2 - 1 ≠ 0 := by omega
      simp [removeCorrespondingTrace, hf, hd, h0, h1]

/-- Only the stack table changes when a stack is taken out. -/
theorem removeCorrespondingTrace_frame {p : BacktracePtr} {st' : State}
    (h : removeCorrespondingTrace st p = .ok st') :
    st' = { st with stackItems := st'.stackItems } := by
  unfold removeCorrespondingTrace at h
  split at h
  · cases h
  · split at h
    · cases h
    · split_ifs at h <;> cases h <;> rfl

theorem removeCorrespondingTrace_find {p : BacktracePtr} {st' : State}
    (h : removeCorrespondingTrace st p = .ok st') (q : Addr) :
    st'.findMemoryItem q = st.findMemoryItem q :=
  findMemoryItem_congr (by rw [removeCorrespondingTrace_frame h]) q

/-- Taking a stack out leaves one of its blocks uncounted. -/
theorem Accounted.removeCorrespondingTrace (h : Accounted st gap) (hd : st.ndebug = false) {t : ℕ}
    (hne : (st.traces.data t).ppBuffer ≠ []) {st' : State}
    (hr : removeCorrespondingTrace st (some t) = .ok st') :
    Accounted st' (bump gap (st.traces.data t)) := by
  rcases removeCorrespondingTrace_cases hd t with ⟨herr, -⟩ | ⟨e, he, h1, hok⟩ | ⟨e, he, h1, hok⟩
  · rw [herr] at hr
    cases hr
  · rw [hok] at hr
    cases hr
    exact h.removeStackItem hne he h1
  · rw [hok] at hr
    cases hr
    refine h.setStackItem hne he (by omega) ?_ fun u hu => bump_of_ne gap hu
    rw [bump_self]
    omega

/-- The assertion holds as soon as a counted block of the stack is left. -/
theorem Accounted.removeCorrespondingTrace_ok (h : Accounted st gap) (hd : st.ndebug = false)
    {t : ℕ} (hne : (st.traces.data t).ppBuffer ≠ [])
    (hpos : gap (st.traces.data t) < st.allocatedCount (st.traces.data t)) :
    ∃ st', Tracker.removeCorrespondingTrace st (some t) = .ok st' := by
  rcases removeCorrespondingTrace_cases hd t with ⟨-, hzero⟩ | ⟨e, -, -, hok⟩ | ⟨e, -, -, hok⟩
  · exfalso
    have hbal := h.balance (st.traces.data t)
    cases hf : st.findStackItem t with
    | none =>
      rw [(findStackItem_none_iff hne).mp hf] at hbal
      simp only [Option.getD_none] at hbal
      omega
    | some e =>
      have hpos' := (h.keys e (Entries.findEntry_mem hf)).2.2
      have := hzero e hf
      omega
  · exact ⟨_, hok⟩
  · exact ⟨_, hok⟩

/-- The entry behind a record that was found. -/
theorem findMemoryItem_some {p : Addr} {item : SMemoryItem} (h : st.findMemoryItem p = some item) :
    Entries.findEntry (fun k => decide (k = p)) st.memoryItems = some (p, item) ∧
      (p, item) ∈ st.memoryItems := by
  obtain ⟨k, hk⟩ := Entries.lookup_eq_some_iff.mp h
  have hkp : k = p := by simpa using Entries.findEntry_test hk
  rw [hkp] at hk
  exact ⟨hk, Entries.findEntry_mem hk⟩

/-- Giving an allocated, uncounted record another status settles its stack. -/
theorem Accounted.setReleased {s : Backtrace} (h : Accounted st (bump gap s)) {p : Addr}
    {item item' : SMemoryItem} (hf : st.findMemoryItem p = some item)
    (hst : item.status = .allocated) (hs : st.traces.holds s item.allocTrace = true)
    (hst' : item'.status ≠ .allocated) (htr : item'.allocTrace = item.allocTrace) :
    Accounted (st.setMemoryItem p item') gap := by
  obtain ⟨hfe, hmem⟩ := findMemoryItem_some hf
  refine ⟨?_, h.keys, h.unique, fun u => ?_⟩
  · intro e he
    rcases Entries.mem_setFirst he with he | ⟨hv, -, -⟩
    · exact h.records e he
    · rw [hv, htr]
      exact h.records _ hmem
  · have hcount := Entries.countP_setFirst (v := item')
      (fun e => decide (e.2.status = .allocated) && st.traces.holds u e.2.allocTrace) hfe
    simp only [hst, hst', decide_true, decide_false, Bool.true_and, Bool.false_and,
      Bool.false_eq_true, if_false, Nat.add_zero] at hcount
    have hbal : (st.stackCount u).getD 0 + bump gap s u = st.allocatedCount u := h.balance u
    have hnew : (st.setMemoryItem p item').allocatedCount u +
        (if st.traces.holds u item.allocTrace then 1 else 0) = st.allocatedCount u := hcount
    show (st.stackCount u).getD 0 + gap u = (st.setMemoryItem p item').allocatedCount u
    by_cases hu : u = s
    · subst hu
      rw [if_pos hs] at hnew
      rw [bump_self] at hbal
      omega
    · have hns : ¬ st.traces.holds u item.allocTrace = true := by
        intro hh
        cases ht : item.allocTrace with
        | none => simp [ht, TraceHeap.holds] at hs
        | some t =>
          simp only [ht, TraceHeap.holds, decide_eq_true_eq] at hs hh
          exact hu (hh.symm.trans hs)
      rw [if_neg hns] at hnew
      rw [bump_of_ne gap hu] at hbal
      omega

/-! ## The two halves of a registration -/

/-- The record of a registered address is the new one; of the traces, only releases of those of a
replaced record are noted. -/
theorem registerMemoryItem_cases {env : Env} {p : Addr} {item : SMemoryItem} {st' : State}
    (h : registerMemoryItem st env p item = some st') :
    (st.findMemoryItem p = none ∧ env.memoryItem = true ∧
        st' = { st with memoryItems := (p, item) :: st.memoryItems }) ∨
      ∃ old, st.findMemoryItem p = some old ∧
        st' = { st with
                memoryItems := Entries.setFirst (fun k => decide (k = p)) item st.memoryItems
                traces := freeBacktraceData (freeBacktraceData st.traces old.deallocTrace)
                  old.allocTrace } := by
  unfold registerMemoryItem at h
  split at h
  · rename_i hnone
    split_ifs at h with hgrow
    cases h
    exact Or.inl ⟨hnone, hgrow, rfl⟩
  · rename_i old hold
    cases h
    exact Or.inr ⟨old, hold, rfl⟩

/-- A record that does not replace an allocated one is one more uncounted block. -/
theorem Accounted.registerMemoryItem (h : Accounted st gap) {env : Env} {p : Addr}
    {item : SMemoryItem} {t : ℕ} (hst : item.status = .allocated) (ht : item.allocTrace = some t)
    (hlt : t < st.traces.next) (hne : (st.traces.data t).ppBuffer ≠ [])
    (hold : ∀ old, st.findMemoryItem p = some old → old.status ≠ .allocated) {st' : State}
    (hr : registerMemoryItem st env p item = some st') :
    Accounted st' (bump gap (st.traces.data t)) := by
  have hitem : ∃ u, item.allocTrace = some u ∧ u < st.traces.next ∧
      (st.traces.data u).ppBuffer ≠ [] := ⟨t, ht, hlt, hne⟩
  rcases registerMemoryItem_cases hr with ⟨-, -, rfl⟩ | ⟨old, hf, rfl⟩
  · refine ⟨?_, h.keys, h.unique, fun u => ?_⟩
    · intro e he
      rcases List.mem_cons.mp he with rfl | he
      · exact hitem
      · exact h.records e he
    · have hbal := h.balance u
      show (st.stackCount u).getD 0 + bump gap (st.traces.data t) u =
        ((p, item) :: st.memoryItems).countP _
      rw [List.countP_cons]
      simp only [hst, ht, TraceHeap.holds, decide_true, Bool.true_and, decide_eq_true_eq]
      by_cases hu : u = st.traces.data t
      · rw [if_pos hu.symm, hu, bump_self, ← Nat.add_assoc, ← hu, hbal]
        rfl
      · rw [if_neg fun e => hu e.symm, bump_of_ne gap hu, hbal]
        rfl
  · obtain ⟨hfe, -⟩ := findMemoryItem_some hf
    have hacc : Accounted { st with
        memoryItems := Entries.setFirst (fun k => decide (k = p)) item st.memoryItems }
        (bump gap (st.traces.data t)) := by
      refine ⟨?_, h.keys, h.unique, fun u => ?_⟩
      · intro e he
        rcases Entries.mem_setFirst he with he | ⟨hv, -, -⟩
        · exact h.records e he
        · rw [hv]
          exact hitem
      · have hcount := Entries.countP_setFirst (v := item)
          (fun e => decide (e.2.status = .allocated) && st.traces.holds u e.2.allocTrace) hfe
        simp only [hst, hold old hf, ht, TraceHeap.holds, decide_true, decide_false, Bool.true_and,
          Bool.false_and, Bool.false_eq_true, if_false, Nat.add_zero, decide_eq_true_eq] at hcount
        have hbal := h.balance u
        show (st.stackCount u).getD 0 + bump gap (st.traces.data t) u =
          (Entries.setFirst _ item st.memoryItems).countP _
        refine Eq.trans ?_ hcount.symm
        by_cases hu : u = st.traces.data t
        · rw [if_pos hu.symm, hu, bump_self, ← Nat.add_assoc, ← hu, hbal]
          rfl
        · rw [if_neg fun e => hu e.symm, bump_of_ne gap hu, hbal]
          rfl
    exact hacc.congr rfl rfl (by simp) (by simp)

/-- The ways the counting of a block ends, for a non-null backtrace. -/
theorem registerStackItem_cases (st : State) (env : Env) (item : SMemoryItem) (p : Addr) (t : ℕ) :
    (st.findStackItem t = none ∧ env.stackItem = true ∧ registerStackItem st env item p (some t) =
        ⟨{ st with stackItems := (t, 1) :: st.stackItems }, .returns p, []⟩) ∨
      (st.findStackItem t = none ∧ env.stackItem = false ∧
        registerStackItem st env item p (some t) = ⟨st, .throwsBadAlloc, []⟩) ∨
      (∃ e, st.findStackItem t = some e ∧ st.unMaxNumberOfAllocFromTheSameStack = 0 ∧
        registerStackItem st env item p (some t) = ⟨st, .returns p, []⟩) ∨
      (∃ e, st.findStackItem t = some e ∧ e.2 < st.unMaxNumberOfAllocFromTheSameStack ∧
        registerStackItem st env item p (some t) =
          ⟨st.setStackItem t (e.2 + 1), .returns p, []⟩) ∨
      (∃ e, st.findStackItem t = some e ∧ 0 < st.unMaxNumberOfAllocFromTheSameStack ∧
        st.unMaxNumberOfAllocFromTheSameStack ≤ e.2 ∧ ∃ r, r = initFailureDataAndCallClbk
          (st.setStackItem t (e.2 + 1)) env item item.type p 0 .possibilityOfMemoryLeak (some t) ∧
        registerStackItem st env item p (some t) =
          if r.st.process = .running then ⟨r.st, .returns p, r.events⟩ else r) := by
  cases hf : st.findStackItem t with
  | none =>
    cases hg : env.stackItem with
    | true => exact Or.inl ⟨rfl, rfl, by simp [registerStackItem, hf, hg]⟩
    | false => exact Or.inr (Or.inl ⟨rfl, rfl, by simp [registerStackItem, hf, hg]⟩)
  | some e =>
    by_cases hm : st.unMaxNumberOfAllocFromTheSameStack = 0
    · exact Or.inr (Or.inr (Or.inl ⟨e, rfl, hm, by simp [registerStackItem, hf, hm]⟩))
    · have hpos : 0 < st.unMaxNumberOfAllocFromTheSameStack := by omega
      by_cases hlt : st.unMaxNumberOfAllocFromTheSameStack < e.2 + 1
      · refine Or.inr (Or.inr (Or.inr (Or.inr ⟨e, rfl, hpos, by omega, _, rfl, ?_⟩)))
        simp [registerStackItem, hf, hpos, hlt]
      · refine Or.inr (Or.inr (Or.inr (Or.inl ⟨e, rfl, by omega, ?_⟩)))
        simp [registerStackItem, hf, hpos, hlt]

/-- Counting a block settles its stack, unless the threshold is zero and the stack is known. -/
theorem Accounted.registerStackItem {env : Env} (item : SMemoryItem) (p : Addr) {t : ℕ}
    (h : Accounted st (bump gap (st.traces.data t))) (hlt : t < st.traces.next)
    (hne : (st.traces.data t).ppBuffer ≠ []) (hgrow : env.stackItem = true) :
    (0 < st.unMaxNumberOfAllocFromTheSameStack ∨ st.findStackItem t = none →
        Accounted (registerStackItem st env item p (some t)).st gap) ∧
      (st.unMaxNumberOfAllocFromTheSameStack = 0 → (∃ e, st.findStackItem t = some e) →
        (registerStackItem st env item p (some t)).st = st) := by
  have hcount : ∀ e, st.findStackItem t = some e → Accounted (st.setStackItem t (e.2 + 1)) gap := by
    intro e he
    refine h.setStackItem hne he (by omega) ?_ fun u hu => (bump_of_ne gap hu).symm
    rw [bump_self]
    omega
  rcases registerStackItem_cases st env item p t with ⟨hf, -, hr⟩ | ⟨-, hg, -⟩ |
    ⟨e, hf, hm, hr⟩ | ⟨e, hf, hm, hr⟩ | ⟨e, hf, hpos, -, r, hrr, hr⟩
  · rw [hr]
    exact ⟨fun _ => h.addStackItem hlt hne hf, fun _ ⟨e, he⟩ => by rw [hf] at he; cases he⟩
  · rw [hg] at hgrow
    cases hgrow
  · rw [hr]
    refine ⟨?_, fun _ _ => rfl⟩
    rintro (hpos | hnone)
    · omega
    · rw [hf] at hnone
      cases hnone
  · rw [hr]
    exact ⟨fun _ => hcount e hf, fun h0 => absurd hm (by omega)⟩
  · obtain ⟨hmem, hstk, -, -, -, hnext, hdata⟩ := initFailure_frame (by simp) hrr
    have hacc : Accounted r.st gap :=
      (hcount e hf).congr hmem hstk (by rw [hnext]) fun u _ => by rw [hdata]
    rw [hr]
    refine ⟨fun _ => ?_, fun h0 => absurd hpos (by omega)⟩
    split_ifs <;> exact hacc

end CrashInvestigator.Tracker
