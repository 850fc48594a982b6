import CrashInvestigator.Tracker.Proofs.ThresholdProofs

/-!
# Ownership of captured stacks

Each record owns the traces it points to, and `m_stackItems` borrows the trace of the record that was
counted first under a stack. Nothing is freed while it is borrowed, as long as no record whose trace
is a key is replaced.
-/

namespace CrashInvestigator.Tracker

open Library

/-! ## Statements -/

/-- The keys of `m_stackItems`. -/
def State.stackKeys (st : State) : List ℕ := st.stackItems.map Prod.fst

/-- No key and no `allocTrace` of a record was freed, and no trace was freed twice. -/
def State.NothingDangles (st : State) : Prop :=
  (∀ t ∈ st.stackKeys, st.traces.frees t = 0) ∧
    (∀ e ∈ st.memoryItems, ∀ t, e.2.allocTrace = some t → st.traces.frees t = 0) ∧
    ∀ t, st.traces.frees t ≤ 1

/-- A call of a correct program: the blocks it passes are those of the tracker, and nothing is
reported. -/
structure CorrectCall (st : State) (c : Call × Env) : Prop where
  issued : PassesIssued st c.1
  silent : ∀ d a, Event.clbkFnc d a ∉ (call st c.2 c.1).events

/-- No record is replaced whose `allocTrace` is a key of `m_stackItems` when its successor is
registered. -/
structure SparesKeys (st : State) (c : Call × Env) : Prop where
  allocate : ∀ ty old t, st.process = .running → c.1.effect = .allocate ty → c.2.raw ≠ 0 →
    st.findMemoryItem c.2.raw = some old → old.allocTrace = some t → t ∉ st.stackKeys
  move : ∀ p n item st₁ old t, st.process = .running → c.1.effect = .move p n →
    st.findMemoryItem p = some item → item.type = .malloc → item.status = .allocated →
    c.2.raw ≠ p →
    removeCorrespondingTrace ((st.capture c.2).reallocn item.realAddress c.2.raw)
      item.allocTrace = .ok st₁ →
    st.findMemoryItem c.2.raw = some old → old.allocTrace = some t → t ∉ st₁.stackKeys

/-! ## The traces of the records -/

/-- The traces a record owns. -/
def SMemoryItem.traces (item : SMemoryItem) : List ℕ :=
  item.allocTrace.toList ++ item.deallocTrace.toList

/-- The traces of all records. -/
def State.recordTraces (st : State) : List ℕ := st.memoryItems.flatMap fun e => e.2.traces

/-- The records own different traces, none of which was freed; keys are borrowed from records. -/
structure Owned (st : State) : Prop where
  below : ∀ t ∈ st.recordTraces, t < st.traces.next
  fresh : ∀ t, st.traces.next ≤ t → st.traces.frees t = 0
  alive : ∀ t ∈ st.recordTraces, st.traces.frees t = 0
  nodup : st.recordTraces.Nodup
  once : ∀ t, st.traces.frees t ≤ 1
  keys : ∀ t ∈ st.stackKeys, ∃ e ∈ st.memoryItems, e.2.allocTrace = some t

section

variable {st st' : State} {env : Env} {p : Addr} {item item' : SMemoryItem}

theorem mem_recordTraces {t : ℕ} :
    t ∈ st.recordTraces ↔ ∃ e ∈ st.memoryItems, e.2.allocTrace = some t ∨ e.2.deallocTrace = some t := by
  simp [State.recordTraces, SMemoryItem.traces]

theorem Owned.nothingDangles (h : Owned st) : st.NothingDangles := by
  have halloc : ∀ e ∈ st.memoryItems, ∀ t, e.2.allocTrace = some t → st.traces.frees t = 0 :=
    fun e he t ht => h.alive t (mem_recordTraces.mpr ⟨e, he, Or.inl ht⟩)
  refine ⟨fun t ht => ?_, halloc, h.once⟩
  obtain ⟨e, he, hal⟩ := h.keys t ht
  exact halloc e he t hal

theorem Owned.init : Owned .init := by
  refine ⟨?_, fun _ _ => rfl, ?_, ?_, fun _ => Nat.zero_le _, ?_⟩
  · intro t ht
    simp [State.recordTraces, State.init] at ht
  · intro t ht
    simp [State.recordTraces, State.init] at ht
  · simp [State.recordTraces, State.init]
  · intro t ht
    simp [State.stackKeys, State.init] at ht

/-- Ownership reads the tables and the traces. -/
theorem Owned.congr (h : Owned st) (hmem : st'.memoryItems = st.memoryItems)
    (hkeys : ∀ t ∈ st'.stackKeys, t ∈ st.stackKeys) (hnext : st.traces.next ≤ st'.traces.next)
    (hfrees : st'.traces.frees = st.traces.frees) : Owned st' := by
  have hrec : st'.recordTraces = st.recordTraces := by
    unfold State.recordTraces
    rw [hmem]
  refine ⟨?_, ?_, ?_, ?_, ?_, ?_⟩
  · intro t ht
    rw [hrec] at ht
    have := h.below t ht
    omega
  · intro t ht
    rw [hfrees]
    exact h.fresh t (by omega)
  · intro t ht
    rw [hrec] at ht
    rw [hfrees]
    exact h.alive t ht
  · rw [hrec]
    exact h.nodup
  · rw [hfrees]
    exact h.once
  · intro t ht
    rw [hmem]
    exact h.keys t (hkeys t ht)

theorem Owned.capture (h : Owned st) (env : Env) : Owned (st.capture env) :=
  h.congr rfl (fun _ ht => ht) (initBacktrace_next_le _ _) (by simp [State.capture])

/-- A captured trace belongs to nobody yet. -/
theorem captured_unowned (h : Owned st) {t : ℕ} (ht : st.captured env = some t) :
    t < (st.capture env).traces.next ∧ (st.capture env).traces.frees t = 0 ∧
      t ∉ st.recordTraces := by
  cases hs : env.stack with
  | none => simp [State.captured, initBacktraceDataForCurrentStack, hs] at ht
  | some b =>
    obtain ⟨hcap, hnext, -⟩ := captured_spec st hs
    rw [hcap] at ht
    cases ht
    refine ⟨by omega, ?_, fun hmem => ?_⟩
    · have hfree := h.fresh st.traces.next (Nat.le_refl _)
      simpa [State.capture] using hfree
    · have := h.below _ hmem
      omega

@[simp] theorem stackKeys_setStackItem (t n : ℕ) :
    (st.setStackItem t n).stackKeys = st.stackKeys := Entries.map_fst_setFirst

theorem stackKeys_removeStackItem {t u : ℕ} (h : u ∈ (st.removeStackItem t).stackKeys) :
    u ∈ st.stackKeys := by
  obtain ⟨e, he, rfl⟩ := List.mem_map.mp h
  exact List.mem_map.mpr ⟨e, Entries.mem_of_mem_removeFirst he, rfl⟩

theorem removeCorrespondingTrace_keys {bt : BacktracePtr}
    (hr : removeCorrespondingTrace st bt = .ok st') : ∀ t ∈ st'.stackKeys, t ∈ st.stackKeys := by
  intro t ht
  unfold removeCorrespondingTrace at hr
  split at hr
  · cases hr
  · split at hr
    · cases hr
    · split_ifs at hr
      · cases hr
        exact stackKeys_removeStackItem ht
      · cases hr
        exact ht
      · cases hr
        exact stackKeys_removeStackItem ht
      · cases hr
        rw [stackKeys_setStackItem] at ht
        exact ht

/-- Where a record stands among the others. -/
theorem recordTraces_split (hf : st.findMemoryItem p = some item) (item' : SMemoryItem) :
    ∃ l₁ l₂, st.memoryItems = l₁ ++ (p, item) :: l₂ ∧
      (st.setMemoryItem p item').memoryItems = l₁ ++ (p, item') :: l₂ := by
  obtain ⟨hfe, -⟩ := findMemoryItem_some hf
  obtain ⟨l₁, l₂, hl, h₁, htest⟩ := Entries.findEntry_split hfe
  refine ⟨l₁, l₂, hl, ?_⟩
  show Entries.setFirst _ item' st.memoryItems = _
  rw [hl]
  exact Entries.setFirst_split h₁ htest

/-- A record that is overwritten gives up its traces and gets new ones. -/
theorem mem_recordTraces_set {t : ℕ} (ht : t ∈ (st.setMemoryItem p item).recordTraces) :
    t ∈ st.recordTraces ∨ t ∈ item.traces := by
  obtain ⟨⟨q, v⟩, hx, htx⟩ := List.mem_flatMap.mp ht
  rcases Entries.mem_setFirst hx with hx | ⟨hv, -⟩
  · exact Or.inl (List.mem_flatMap.mpr ⟨(q, v), hx, htx⟩)
  · have hvi : v = item := hv
    right
    rw [← hvi]
    exact htx

/-- A record gives up its traces for others that nobody owns, or keeps some of them. -/
theorem Owned.replace (h : Owned st) (hf : st.findMemoryItem p = some item)
    (hnodup : item'.traces.Nodup)
    (hnew : ∀ t ∈ item'.traces, t ∈ item.traces ∨
      (t < st.traces.next ∧ st.traces.frees t = 0 ∧ t ∉ st.recordTraces))
    (hkey : ∀ t, item.allocTrace = some t → item'.allocTrace = some t ∨ t ∉ st.stackKeys) :
    Owned (st.setMemoryItem p item') := by
  obtain ⟨l₁, l₂, hl, hl'⟩ := recordTraces_split hf item'
  have hrec : st.recordTraces =
      l₁.flatMap (fun e => e.2.traces) ++ (item.traces ++ l₂.flatMap fun e => e.2.traces) := by
    simp [State.recordTraces, hl]
  have hrec' : (st.setMemoryItem p item').recordTraces =
      l₁.flatMap (fun e => e.2.traces) ++ (item'.traces ++ l₂.flatMap fun e => e.2.traces) := by
    simp [State.recordTraces, hl']
  set A := l₁.flatMap fun e => e.2.traces
  set B := l₂.flatMap fun e => e.2.traces
  have hn := h.nodup
  rw [hrec] at hn
  -- a trace of the new records is one of the old records or free to be owned
  have hcases : ∀ t ∈ (st.setMemoryItem p item').recordTraces, t ∈ st.recordTraces ∨
      (t < st.traces.next ∧ st.traces.frees t = 0 ∧ t ∉ st.recordTraces) := by
    intro t ht
    rw [hrec'] at ht
    rw [hrec]
    rcases List.mem_append.mp ht with ht | ht
    · exact Or.inl (List.mem_append_left _ ht)
    · rcases List.mem_append.mp ht with ht | ht
      · rcases hnew t ht with ht | ht
        · exact Or.inl (List.mem_append_right _ (List.mem_append_left _ ht))
        · rw [hrec] at ht
          exact Or.inr ht
      · exact Or.inl (List.mem_append_right _ (List.mem_append_right _ ht))
  refine ⟨?_, h.fresh, ?_, ?_, h.once, ?_⟩
  · intro t ht
    rcases hcases t ht with ht | ⟨ht, -⟩
    · exact h.below t ht
    · exact ht
  · intro t ht
    rcases hcases t ht with ht | ⟨-, ht, -⟩
    · exact h.alive t ht
    · exact ht
  · rw [hrec']
    rw [List.nodup_append] at hn ⊢
    obtain ⟨hA, hB, hAB⟩ := hn
    rw [List.nodup_append] at hB ⊢
    obtain ⟨-, hB, hIB⟩ := hB
    have hout : ∀ t ∈ item'.traces, t ∉ A ∧ t ∉ B := by
      intro t ht
      rcases hnew t ht with ht | ⟨-, -, ht⟩
      · refine ⟨fun hta => ?_, fun htb => ?_⟩
        · exact hAB t hta t (List.mem_append_left _ ht) rfl
        · exact hIB t ht t htb rfl
      · rw [hrec] at ht
        simp only [List.mem_append, not_or] at ht
        exact ⟨ht.1, ht.2.2⟩
    refine ⟨hA, ⟨hnodup, hB, ?_⟩, ?_⟩
    · rintro t ht u hu rfl
      exact (hout t ht).2 hu
    · rintro t ht u hu rfl
      rcases List.mem_append.mp hu with hu | hu
      · exact (hout t hu).1 ht
      · exact hAB t ht t (List.mem_append_right _ hu) rfl
  · intro t ht
    obtain ⟨e, he, hal⟩ := h.keys t ht
    rw [hl']
    rw [hl] at he
    rcases List.mem_append.mp he with he | he
    · exact ⟨e, List.mem_append_left _ he, hal⟩
    · rcases List.mem_cons.mp he with rfl | he
      · rcases hkey t hal with hal' | hno
        · exact ⟨(p, item'), List.mem_append_right _ (List.mem_cons_self ..), hal'⟩
        · exact absurd ht hno
      · exact ⟨e, List.mem_append_right _ (List.mem_cons_of_mem _ he), hal⟩

/-- The traces of a record are among those of all records, each of them once. -/
theorem Owned.ofRecord (h : Owned st) (hf : st.findMemoryItem p = some item) :
    item.traces.Nodup ∧ ∀ t ∈ item.traces, t ∈ st.recordTraces := by
  obtain ⟨-, hmem⟩ := findMemoryItem_some hf
  refine ⟨?_, fun t ht => List.mem_flatMap.mpr ⟨(p, item), hmem, ht⟩⟩
  obtain ⟨l₁, l₂, hl, -⟩ := recordTraces_split hf item
  have hn := h.nodup
  simp only [State.recordTraces, hl, List.flatMap_append, List.flatMap_cons] at hn
  exact (List.nodup_append.mp (List.nodup_append.mp hn).2.1).1

theorem Owned.distinct (h : Owned st) (hf : st.findMemoryItem p = some item) {t : ℕ}
    (hal : item.allocTrace = some t) : item.deallocTrace ≠ some t := by
  intro hde
  have hn := (h.ofRecord hf).1
  simp [SMemoryItem.traces, hal, hde] at hn

/-- A replaced record does not leave its traces behind. -/
theorem not_owned_of_replaced (h : Owned st) (hf : st.findMemoryItem p = some item) {t : ℕ}
    (ht : t ∈ item.traces) (hnot : t ∉ item'.traces) :
    t ∉ (st.setMemoryItem p item').recordTraces := by
  obtain ⟨l₁, l₂, hl, hl'⟩ := recordTraces_split hf item'
  have hn := h.nodup
  simp only [State.recordTraces, hl, List.flatMap_append, List.flatMap_cons] at hn
  simp only [State.recordTraces, hl', List.flatMap_append, List.flatMap_cons, List.mem_append,
    not_or]
  rw [List.nodup_append] at hn
  obtain ⟨-, hn, hA⟩ := hn
  rw [List.nodup_append] at hn
  obtain ⟨-, -, hB⟩ := hn
  refine ⟨fun hta => ?_, hnot, fun htb => ?_⟩
  · exact hA t hta t (List.mem_append_left _ ht) rfl
  · exact hB t ht t htb rfl

theorem Owned.removal (h : Owned st) {bt : BacktracePtr}
    (hr : removeCorrespondingTrace st bt = .ok st') : Owned st' := by
  have hframe := removeCorrespondingTrace_frame hr
  refine h.congr ?_ (removeCorrespondingTrace_keys hr) ?_ ?_
  · rw [hframe]
  · rw [hframe]
  · rw [hframe]

/-- A released record owns the trace of its release, which belongs to nobody else. -/
theorem Owned.released (h : Owned st) {bt : BacktracePtr} (hf : st.findMemoryItem p = some item)
    (hbt : ∀ t, bt = some t →
      t < st.traces.next ∧ st.traces.frees t = 0 ∧ t ∉ st.recordTraces) :
    Owned (st.setMemoryItem p { item with status := .deallocated, deallocTrace := bt }) := by
  set released : SMemoryItem := { item with
    status := .deallocated, deallocTrace := bt } with hreleased
  have halloc : ∀ u, item.allocTrace = some u → u ∈ st.recordTraces := by
    intro u hu
    obtain ⟨-, hin⟩ := findMemoryItem_some hf
    exact mem_recordTraces.mpr ⟨_, hin, Or.inl hu⟩
  refine h.replace hf ?_ ?_ fun u hu => Or.inl hu
  · simp only [SMemoryItem.traces, hreleased]
    rw [List.nodup_append]
    refine ⟨?_, ?_, ?_⟩
    · cases item.allocTrace <;> simp
    · cases bt <;> simp
    · rintro u hu v hv rfl
      have hu' : item.allocTrace = some u := by simpa using hu
      have hv' : bt = some u := by simpa using hv
      exact (hbt u hv').2.2 (halloc u hu')
  · intro u hu
    simp only [SMemoryItem.traces, hreleased, List.mem_append] at hu
    rcases hu with hu | hu
    · left
      simp only [SMemoryItem.traces, List.mem_append]
      exact Or.inl hu
    · exact Or.inr (hbt u (by simpa using hu))

/-- A trace that no record owns may be freed once. -/
theorem Owned.free (h : Owned st) {bt : BacktracePtr} (hbt : ∀ t, bt = some t →
    t < st.traces.next ∧ st.traces.frees t = 0 ∧ t ∉ st.recordTraces) :
    Owned { st with traces := freeBacktraceData st.traces bt } := by
  cases bt with
  | none => exact h
  | some t =>
    obtain ⟨hlt, hzero, hout⟩ := hbt t rfl
    have hfrees : ∀ u, (freeBacktraceData st.traces (some t)).frees u =
        if u = t then 1 else st.traces.frees u := by
      intro u
      rw [freeBacktraceData_frees_some, hzero]
    refine ⟨h.below, ?_, ?_, h.nodup, ?_, h.keys⟩
    · intro u hu
      have hu' : st.traces.next ≤ u := hu
      show (freeBacktraceData st.traces (some t)).frees u = 0
      rw [hfrees, if_neg (by omega)]
      exact h.fresh u hu'
    · intro u hu
      show (freeBacktraceData st.traces (some t)).frees u = 0
      have hne : u ≠ t := by
        rintro rfl
        exact hout hu
      rw [hfrees, if_neg hne]
      exact h.alive u hu
    · intro u
      show (freeBacktraceData st.traces (some t)).frees u ≤ 1
      rw [hfrees]
      split_ifs
      · exact Nat.le_refl _
      · exact h.once u

/-! ## Registration -/

/-- A registration does nothing to a trace that no record owned before. -/
theorem registerMemoryItem_outsider (hr : registerMemoryItem st env p item = some st') {t : ℕ}
    (hout : t ∉ st.recordTraces) : st'.traces.frees t = st.traces.frees t ∧
      (t ∈ st'.recordTraces → t ∈ item.traces) := by
  rcases registerMemoryItem_cases hr with ⟨-, -, rfl⟩ | ⟨old, hf, rfl⟩
  · refine ⟨rfl, fun ht => ?_⟩
    rcases List.mem_append.mp (ht : t ∈ item.traces ++ st.recordTraces) with ht | ht
    · exact ht
    · exact absurd ht hout
  · obtain ⟨-, hmem⟩ := findMemoryItem_some hf
    have hold : ∀ bt : BacktracePtr, bt = old.allocTrace ∨ bt = old.deallocTrace → bt ≠ some t := by
      rintro bt hbt rfl
      refine hout (mem_recordTraces.mpr ⟨(p, old), hmem, ?_⟩)
      rcases hbt with hbt | hbt
      · exact Or.inl hbt.symm
      · exact Or.inr hbt.symm
    refine ⟨?_, fun ht => ?_⟩
    · show (freeBacktraceData (freeBacktraceData st.traces old.deallocTrace) old.allocTrace).frees t
        = _
      rw [freeBacktraceData_frees_of_ne _ _ (hold _ (Or.inl rfl)),
        freeBacktraceData_frees_of_ne _ _ (hold _ (Or.inr rfl))]
    · have ht' : t ∈ (st.setMemoryItem p item).recordTraces := ht
      rcases mem_recordTraces_set ht' with ht' | ht'
      · exact absurd ht' hout
      · exact ht'

/-- A registration frees the traces of the record it replaces, and owns the new one. -/
theorem Owned.registerMemoryItem (h : Owned st) {ty : MemoryType} {bt : BacktracePtr}
    (hbt : ∀ t, bt = some t →
      t < st.traces.next ∧ st.traces.frees t = 0 ∧ t ∉ st.recordTraces)
    (hspare : ∀ old t, st.findMemoryItem p = some old → old.allocTrace = some t →
      t ∉ st.stackKeys)
    (hr : Tracker.registerMemoryItem st env p ⟨ty, .allocated, p, bt, none⟩ = some st') :
    Owned st' ∧ ∃ e ∈ st'.memoryItems, e.2.allocTrace = bt := by
  set item : SMemoryItem := ⟨ty, .allocated, p, bt, none⟩ with hitem
  have htraces : item.traces = bt.toList := by simp [hitem, SMemoryItem.traces]
  have hnew : ∀ t ∈ item.traces,
      t < st.traces.next ∧ st.traces.frees t = 0 ∧ t ∉ st.recordTraces := by
    intro t ht
    rw [htraces] at ht
    exact hbt t (by simpa using ht)
  have hnodup : item.traces.Nodup := by
    rw [htraces]
    cases bt <;> simp
  rcases registerMemoryItem_cases hr with ⟨-, -, rfl⟩ | ⟨old, hf, rfl⟩
  · have hrec : State.recordTraces { st with memoryItems := (p, item) :: st.memoryItems } =
        item.traces ++ st.recordTraces := rfl
    refine ⟨⟨?_, h.fresh, ?_, ?_, h.once, ?_⟩, ⟨(p, item), List.mem_cons_self .., rfl⟩⟩
    · intro t ht
      rw [hrec] at ht
      rcases List.mem_append.mp ht with ht | ht
      · exact (hnew t ht).1
      · exact h.below t ht
    · intro t ht
      rw [hrec] at ht
      rcases List.mem_append.mp ht with ht | ht
      · exact (hnew t ht).2.1
      · exact h.alive t ht
    · rw [hrec, List.nodup_append]
      refine ⟨hnodup, h.nodup, ?_⟩
      rintro t ht u hu rfl
      exact (hnew t ht).2.2 hu
    · intro t ht
      obtain ⟨e, he, hal⟩ := h.keys t ht
      exact ⟨e, List.mem_cons_of_mem _ he, hal⟩
  · -- the old record gives its traces up before they are freed
    have hrep : Owned (st.setMemoryItem p item) :=
      h.replace hf hnodup (fun t ht => Or.inr (hnew t ht)) fun t ht => Or.inr (hspare old t hf ht)
    have hold : ∀ t ∈ old.traces, t < st.traces.next ∧ st.traces.frees t = 0 ∧
        t ∉ (st.setMemoryItem p item).recordTraces := by
      intro t ht
      have hmem : t ∈ st.recordTraces := (h.ofRecord hf).2 t ht
      refine ⟨h.below t hmem, h.alive t hmem, not_owned_of_replaced h hf ht ?_⟩
      exact fun hin => (hnew t hin).2.2 hmem
    have hde : Owned { st.setMemoryItem p item with
        traces := freeBacktraceData st.traces old.deallocTrace } := by
      refine hrep.free fun t ht => hold t ?_
      simp [SMemoryItem.traces, ht]
    refine ⟨hde.free fun t ht => ?_, ?_⟩
    · obtain ⟨hlt, hzero, hout⟩ := hold t (by simp [SMemoryItem.traces, ht])
      refine ⟨by simpa [State.setMemoryItem] using hlt, ?_, hout⟩
      show (freeBacktraceData st.traces old.deallocTrace).frees t = 0
      rw [freeBacktraceData_frees_of_ne _ _ (h.distinct hf ht)]
      exact hzero
    · obtain ⟨l₁, l₂, -, hl'⟩ := recordTraces_split hf item
      refine ⟨(p, item), ?_, rfl⟩
      show (p, item) ∈ (st.setMemoryItem p item).memoryItems
      rw [hl']
      exact List.mem_append_right _ (List.mem_cons_self ..)

/-- Counting without a report touches no trace, and the only key it may add is that of the block. -/
theorem registerStackItem_silent {bt : BacktracePtr}
    (h : ∀ d a, Event.clbkFnc d a ∉ (registerStackItem st env item p bt).events) :
    (registerStackItem st env item p bt).st.traces = st.traces ∧
      (∀ t ∈ st.stackKeys, t ∈ (registerStackItem st env item p bt).st.stackKeys) ∧
      ∀ t ∈ (registerStackItem st env item p bt).st.stackKeys, t ∈ st.stackKeys ∨ bt = some t := by
  cases bt with
  | none => exact ⟨rfl, fun _ ht => ht, fun _ ht => Or.inl ht⟩
  | some t =>
    rcases registerStackItem_cases st env item p t with ⟨-, -, hr⟩ | ⟨-, -, hr⟩ |
      ⟨e, -, -, hr⟩ | ⟨e, -, -, hr⟩ | ⟨e, -, -, -, r, hrr, hr⟩
    · rw [hr]
      refine ⟨rfl, fun u hu => List.mem_cons_of_mem _ hu, fun u hu => ?_⟩
      rcases List.mem_cons.mp hu with hu | hu
      · exact Or.inr (by rw [hu])
      · exact Or.inl hu
    · rw [hr]
      exact ⟨rfl, fun _ hu => hu, fun _ hu => Or.inl hu⟩
    · rw [hr]
      exact ⟨rfl, fun _ hu => hu, fun _ hu => Or.inl hu⟩
    · rw [hr]
      refine ⟨rfl, fun u hu => ?_, fun u hu => ?_⟩
      · rw [stackKeys_setStackItem]
        exact hu
      · rw [stackKeys_setStackItem] at hu
        exact Or.inl hu
    · exfalso
      obtain ⟨d, a, -, hmem⟩ := initFailure_reported (st.setStackItem t (e.2 + 1)) env item
        item.type p 0 (by simp : FailureType.possibilityOfMemoryLeak ≠ .unknown) (some t)
      refine h d a ?_
      rw [hr, hrr]
      split_ifs <;> exact hmem

theorem Owned.addNew (h : Owned st) {ty : MemoryType} {bt : BacktracePtr}
    (hbt : ∀ t, bt = some t →
      t < st.traces.next ∧ st.traces.frees t = 0 ∧ t ∉ st.recordTraces)
    (hspare : ∀ old t, st.findMemoryItem p = some old → old.allocTrace = some t →
      t ∉ st.stackKeys)
    (hsilent : ∀ d a, Event.clbkFnc d a ∉
      (addNewAllocatedMemoryAndCleanOldEntryNoLock st env ty p bt).events) :
    Owned (addNewAllocatedMemoryAndCleanOldEntryNoLock st env ty p bt).st := by
  rcases addNew_cases st env ty p bt with ⟨-, hr⟩ | ⟨st₁, hreg, hr⟩
  · rw [hr]
    exact h
  · rw [hr] at hsilent ⊢
    obtain ⟨hown, e, he, hal⟩ := h.registerMemoryItem hbt hspare hreg
    obtain ⟨htr, -, hkeys⟩ := registerStackItem_silent hsilent
    have hmem : (registerStackItem st₁ env ⟨ty, .allocated, p, bt, none⟩ p bt).st.memoryItems =
        st₁.memoryItems := registerStackItem_memoryItems _
    set r := registerStackItem st₁ env ⟨ty, .allocated, p, bt, none⟩ p bt
    have hrec : r.st.recordTraces = st₁.recordTraces := by
      unfold State.recordTraces
      rw [hmem]
    refine ⟨?_, ?_, ?_, ?_, ?_, ?_⟩
    · rw [hrec, htr]
      exact hown.below
    · rw [htr]
      exact hown.fresh
    · rw [hrec, htr]
      exact hown.alive
    · rw [hrec]
      exact hown.nodup
    · rw [htr]
      exact hown.once
    · intro t ht
      rw [hmem]
      rcases hkeys t ht with ht | ht
      · exact hown.keys t ht
      · exact ⟨e, he, by rw [hal, ht]⟩

/-- Replacing a record whose trace is a key leaves the key dangling. -/
theorem addNew_dangles {ty : MemoryType} {bt : BacktracePtr} {old : SMemoryItem} {t : ℕ}
    (hf : st.findMemoryItem p = some old) (hal : old.allocTrace = some t) (hkey : t ∈ st.stackKeys)
    (hsilent : ∀ d a, Event.clbkFnc d a ∉
      (addNewAllocatedMemoryAndCleanOldEntryNoLock st env ty p bt).events) :
    ¬ (addNewAllocatedMemoryAndCleanOldEntryNoLock st env ty p bt).st.NothingDangles := by
  rcases addNew_cases st env ty p bt with ⟨hnone, -⟩ | ⟨st₁, hreg, hr⟩
  · exfalso
    unfold registerMemoryItem at hnone
    rw [hf] at hnone
    cases hnone
  · rw [hr] at hsilent ⊢
    obtain ⟨htr, hkept, -⟩ := registerStackItem_silent hsilent
    rcases registerMemoryItem_cases hreg with ⟨hnone, -, -⟩ | ⟨old', hf', rfl⟩
    · rw [hf] at hnone
      cases hnone
    · rw [hf] at hf'
      cases hf'
      rintro ⟨hkeys, -, -⟩
      have hzero := hkeys t (hkept t hkey)
      rw [htr] at hzero
      simp [hal] at hzero

/-! ## One call -/

/-- A silent call made no report. -/
theorem not_silent_of_report {s : State} {freeType : MemoryType} {n : ℕ} {failureType : FailureType}
    {bt : BacktracePtr} {r : Res} (hft : failureType ≠ .unknown)
    (hr : r = initFailureDataAndCallClbk s env item freeType p n failureType bt)
    (hsilent : ∀ d a, Event.clbkFnc d a ∉ r.events) : False := by
  obtain ⟨d, a, -, hmem⟩ := initFailure_reported s env item freeType p n hft bt
  exact hsilent d a (by rw [hr]; exact hmem)

/-- The release of an issued block that reports nothing keeps the traces owned. -/
theorem Owned.release (h : Owned st) (ho : st.Outermost) {t : MemoryType} (hp : p ≠ 0)
    (hissued : (st.findMemoryItem p).isSome)
    (hsilent : ∀ d a, Event.clbkFnc d a ∉ (testOperatorDelete st env p t).events) :
    Owned (testOperatorDelete st env p t).st := by
  have hcap := h.capture env
  rcases testOperatorDelete_cases env ho hp t with ⟨hf, -⟩ | ⟨item, -, -, hr⟩ |
    ⟨item, pr, -, -, -, hr⟩ | ⟨item, st₁, -, -, -, -, hr⟩ | ⟨item, st₁, hf, -, hrem, -, hr⟩
  · rw [hf] at hissued
    cases hissued
  · exact (not_silent_of_report (by simp) hr hsilent).elim
  · rw [hr]
    exact hcap.congr rfl (fun _ ht => ht) (Nat.le_refl _) rfl
  · exact (not_silent_of_report (by simp) hr hsilent).elim
  · have hframe := removeCorrespondingTrace_frame hrem
    have htr : st₁.traces = (st.capture env).traces := by rw [hframe]
    have hmem : st₁.memoryItems = st.memoryItems := by
      rw [hframe]
      rfl
    have hf₁ : st₁.findMemoryItem p = some item := (findMemoryItem_congr hmem p).trans hf
    have hrec : st₁.recordTraces = st.recordTraces := by
      unfold State.recordTraces
      rw [hmem]
    have hrep : Owned (st₁.setMemoryItem p { item with
        status := .deallocated, deallocTrace := st.captured env }) := by
      refine (hcap.removal hrem).released hf₁ fun u hu => ?_
      rw [htr, hrec]
      exact captured_unowned h hu
    rw [hr]
    exact hrep.congr rfl (fun _ ht => ht) (Nat.le_refl _) rfl

/-- The state in which a moving realloc registers its new address. -/
theorem Owned.moved (h : Owned st) {st₁ : State} (hf : st.findMemoryItem p = some item) {q : Addr}
    (hrem : removeCorrespondingTrace ((st.capture env).reallocn item.realAddress q)
      item.allocTrace = .ok st₁) :
    Owned (st₁.setMemoryItem p { item with status := .duringReallocChanged }) ∧
      ∀ t, st.captured env = some t →
        t < (st₁.setMemoryItem p { item with status := .duringReallocChanged }).traces.next ∧
        (st₁.setMemoryItem p { item with status := .duringReallocChanged }).traces.frees t = 0 ∧
        t ∉ (st₁.setMemoryItem p { item with status := .duringReallocChanged }).recordTraces := by
  set moved : SMemoryItem := { item with status := .duringReallocChanged } with hmoved
  have hframe := removeCorrespondingTrace_frame hrem
  have htr : st₁.traces = (st.capture env).traces := by
    rw [hframe]
    simp
  have hmem : st₁.memoryItems = st.memoryItems := by
    rw [hframe]
    simp
  have hkeys : ∀ t ∈ st₁.stackKeys, t ∈ (st.capture env).stackKeys := by
    intro t ht
    have hin := removeCorrespondingTrace_keys hrem t ht
    unfold State.stackKeys at hin ⊢
    simpa using hin
  have hown : Owned st₁ := (h.capture env).congr hmem hkeys (by rw [htr]) (by rw [htr])
  have hf₁ : st₁.findMemoryItem p = some item := (findMemoryItem_congr hmem p).trans hf
  have hrep : Owned (st₁.setMemoryItem p moved) := by
    exact hown.replace hf₁ (hown.ofRecord hf₁).1 (fun t ht => Or.inl ht) fun t ht => Or.inl ht
  have hrec : (st₁.setMemoryItem p moved).recordTraces = st.recordTraces := by
    obtain ⟨l₁, l₂, hl, hl'⟩ := recordTraces_split hf₁ moved
    have hl₀ : st.memoryItems = l₁ ++ (p, item) :: l₂ := by rw [← hmem, hl]
    simp only [State.recordTraces, hl', hl₀, List.flatMap_append, List.flatMap_cons]
    rfl
  refine ⟨hrep, fun t ht => ?_⟩
  show t < st₁.traces.next ∧ st₁.traces.frees t = 0 ∧ _
  rw [htr, hrec]
  exact captured_unowned h ht

/-- Until the realloc is over, the records other than the moved one are untouched. -/
theorem findMemoryItem_moved {st₁ : State} {q a : Addr} (ha : a ≠ p)
    (hrem : removeCorrespondingTrace ((st.capture env).reallocn item.realAddress q)
      item.allocTrace = .ok st₁) (moved : SMemoryItem) :
    (st₁.setMemoryItem p moved).findMemoryItem a = st.findMemoryItem a := by
  rw [findMemoryItem_setMemoryItem_of_ne _ _ _ _ ha, removeCorrespondingTrace_frame hrem, reallocn_eq]
  rfl

/-- The realloc of an issued block that reports nothing keeps the traces owned, if it spares the
keys. -/
theorem Owned.realloc (h : Owned st) (ho : st.Outermost) {n : ℕ} (hp : p ≠ 0) (hn : n ≠ 0)
    (hissued : (st.findMemoryItem p).isSome)
    (hspare : ∀ item st₁ old t, st.findMemoryItem p = some item → item.type = .malloc →
      item.status = .allocated → env.raw ≠ p →
      removeCorrespondingTrace ((st.capture env).reallocn item.realAddress env.raw)
        item.allocTrace = .ok st₁ →
      st.findMemoryItem env.raw = some old → old.allocTrace = some t → t ∉ st₁.stackKeys)
    (hsilent : ∀ d a, Event.clbkFnc d a ∉ (testOperatorReAlloc st env p n).events) :
    Owned (testOperatorReAlloc st env p n).st := by
  have hcap := h.capture env
  rcases testOperatorReAlloc_cases env ho hp hn with ⟨hf, -⟩ | ⟨item, -, -, hr⟩ |
    ⟨item, -, -, -, hr⟩ | ⟨item, hf, -, -, -, hr⟩ | ⟨item, pr, -, -, -, -, -, hr⟩ |
    ⟨item, st₁, r, hf, hty, hst, hmv, hrem, hrr, hr⟩
  · rw [hf] at hissued
    cases hissued
  · exact (not_silent_of_report (by simp) hr hsilent).elim
  · exact (not_silent_of_report (by simp) hr hsilent).elim
  · -- the block stays in place, and the captured trace is given back
    have hmoved : Owned ((st.capture env).reallocn item.realAddress env.raw) := by
      refine hcap.congr (by simp) (fun t ht => ?_) (by simp) (by simp)
      unfold State.stackKeys at ht ⊢
      simpa using ht
    have hrec : ((st.capture env).reallocn item.realAddress env.raw).recordTraces =
        st.recordTraces := by
      unfold State.recordTraces
      simp
    have hbt : ∀ t, st.captured env = some t →
        t < ((st.capture env).reallocn item.realAddress env.raw).traces.next ∧
        ((st.capture env).reallocn item.realAddress env.raw).traces.frees t = 0 ∧
        t ∉ ((st.capture env).reallocn item.realAddress env.raw).recordTraces := by
      intro t ht
      rw [hrec]
      simpa using captured_unowned h ht
    have hfree := hmoved.free hbt
    rw [hr]
    exact hfree.congr rfl (fun _ ht => ht) (Nat.le_of_eq (by simp)) (by simp)
  · rw [hr]
    refine hcap.congr (by simp [State.ends]) (fun t ht => ?_) (by simp [State.ends])
      (by simp [State.ends])
    unfold State.stackKeys at ht ⊢
    simpa [State.ends] using ht
  · obtain ⟨hown, hbt⟩ := h.moved hf hrem
    have hsilent' : ∀ d a, Event.clbkFnc d a ∉ r.events := by
      intro d a hmem
      refine hsilent d a ?_
      rw [hr]
      exact List.mem_cons_of_mem _ hmem
    rw [hr]
    subst hrr
    refine hown.addNew hbt ?_ hsilent'
    intro old t hold hal
    rw [findMemoryItem_moved hmv hrem] at hold
    exact hspare item st₁ old t hf hty hst hmv hrem hold hal

/-- The registration of a silent allocation is silent. -/
theorem call_allocate_silent (ho : st.Outermost) {c : Call} {ty : MemoryType}
    (heff : c.effect = .allocate ty) (hraw : env.raw ≠ 0)
    (hsilent : ∀ d a, Event.clbkFnc d a ∉ (Tracker.call st env c).events) :
    ∀ d a, Event.clbkFnc d a ∉ (addNewAllocatedMemoryAndCleanOldEntryNoLock
      ((st.mallocn env.raw).capture env) env ty env.raw (st.captured env)).events := by
  intro d a hmem
  obtain ⟨e, -, hcall⟩ : ∃ e : Event, e.isAllocation = true ∧ _ := call_allocate ho heff hraw
  refine hsilent d a ?_
  rw [hcall]
  refine List.mem_cons_of_mem _ ?_
  rw [← captured_mallocn env.raw] at hmem
  exact hmem

/-- One silent call on issued blocks that spares the keys. -/
theorem Owned.call (h : Owned st) (ho : st.Outermost) {c : Call} (hc : CorrectCall st (c, env))
    (hspare : SparesKeys st (c, env)) : Owned (call st env c).st := by
  have hsilent := hc.silent
  cases heff : c.effect with
  | nothing =>
    rw [(call_nothing ho heff).1]
    exact h
  | setMax n =>
    rw [(call_setMax heff).1]
    exact h.congr rfl (fun _ ht => ht) (Nat.le_refl _) rfl
  | release p t =>
    have hcall : Tracker.call st env c = testOperatorDelete st env p t := call_release ho heff
    simp only [hcall] at hsilent ⊢
    exact h.release ho (release_ne_zero heff).1 (hc.issued.1 p t heff) hsilent
  | move p n =>
    obtain ⟨-, hp, hn⟩ := move_ne_zero heff
    have hcall : Tracker.call st env c = testOperatorReAlloc st env p n := call_move heff
    simp only [hcall] at hsilent ⊢
    refine h.realloc ho hp hn (hc.issued.2 p n heff) ?_ hsilent
    intro item st₁ old t hf hty hst hmv hrem hold hal
    exact hspare.move p n item st₁ old t ho.1 heff hf hty hst hmv hrem hold hal
  | allocate ty =>
    by_cases hraw : env.raw = 0
    · rw [(call_allocate_null ho heff hraw).1]
      exact h
    · have hmalloc : Owned (st.mallocn env.raw) := by
        refine h.congr (by simp) (fun t ht => ?_) (by simp) (by simp)
        unfold State.stackKeys at ht ⊢
        simpa using ht
      have hbt : ∀ t, st.captured env = some t →
          t < ((st.mallocn env.raw).capture env).traces.next ∧
          ((st.mallocn env.raw).capture env).traces.frees t = 0 ∧
          t ∉ ((st.mallocn env.raw).capture env).recordTraces := by
        intro t ht
        refine captured_unowned hmalloc ?_
        rw [← ht]
        simp [State.captured]
      rw [call_allocate_st ho heff hraw]
      refine (hmalloc.capture env).addNew hbt ?_ (call_allocate_silent ho heff hraw hsilent)
      intro old t hold hal
      have hfind : st.findMemoryItem env.raw = some old := by
        unfold State.findMemoryItem at hold ⊢
        simpa using hold
      have hspared := hspare.allocate ty old t ho.1 heff hraw hfind hal
      unfold State.stackKeys at hspared ⊢
      simpa using hspared

theorem Owned.step (h : Owned st) (hs : Sound st) {c : Call × Env} (hc : CorrectCall st c)
    (hspare : SparesKeys st c) : Owned (Tracker.step st c) := by
  obtain ⟨c, env⟩ := c
  by_cases hrun : st.process = .running
  · have ho : st.Outermost := ⟨hrun, hs.flag⟩
    rw [step_eq ho]
    exact h.call ho hc hspare
  · unfold Tracker.step
    rw [if_neg hrun]
    exact h

/-- A silent call that replaces a record whose trace is a key leaves the key dangling. -/
theorem dangles_of_not_spares (hs : Sound st) {c : Call × Env} (hc : CorrectCall st c)
    (hspare : ¬ SparesKeys st c) : ¬ (Tracker.step st c).NothingDangles := by
  obtain ⟨c, env⟩ := c
  have hsilent := hc.silent
  contrapose! hspare with hnd
  refine ⟨?_, ?_⟩
  · intro ty old t hrun heff hraw hf hal hkey
    have ho : st.Outermost := ⟨hrun, hs.flag⟩
    rw [step_eq ho, call_allocate_st ho heff hraw] at hnd
    refine addNew_dangles ?_ hal ?_ (call_allocate_silent ho heff hraw hsilent) hnd
    · unfold State.findMemoryItem at hf ⊢
      simpa using hf
    · unfold State.stackKeys at hkey ⊢
      simpa using hkey
  · intro p n item st₁ old t hrun heff hf hty hst hmv hrem hold hal hkey
    have ho : st.Outermost := ⟨hrun, hs.flag⟩
    obtain ⟨-, hp, hn⟩ := move_ne_zero heff
    simp only [call_move heff] at hsilent
    rw [step_eq ho, call_move heff] at hnd
    rcases testOperatorReAlloc_cases env ho hp hn with ⟨hf', -⟩ | ⟨item', hf', hty', -⟩ |
      ⟨item', hf', -, hst', -⟩ | ⟨item', -, -, -, hraw, -⟩ | ⟨item', pr, hf', -, -, -, herr, -⟩ |
      ⟨item', st₁', r, hf', -, -, -, hrem', hrr, hr⟩
    · rw [hf] at hf'
      cases hf'
    · rw [hf] at hf'
      cases hf'
      exact hty' hty
    · rw [hf] at hf'
      cases hf'
      exact hst' hst
    · exact hmv hraw
    · rw [hf] at hf'
      cases hf'
      have hrem₁ : removeCorrespondingTrace ((st.capture env).reallocn item.realAddress env.raw)
          item.allocTrace = .ok st₁ := hrem
      rw [hrem₁] at herr
      cases herr
    · rw [hf] at hf'
      cases hf'
      have hrem₁ : removeCorrespondingTrace ((st.capture env).reallocn item.realAddress env.raw)
          item.allocTrace = .ok st₁ := hrem
      rw [hrem₁] at hrem'
      cases hrem'
      rw [hr] at hnd hsilent
      subst hrr
      refine addNew_dangles ?_ hal (t := t) ?_ ?_ hnd
      · rw [findMemoryItem_moved hmv hrem₁]
        exact hold
      · exact hkey
      · intro d a hmem
        exact hsilent d a (List.mem_cons_of_mem _ hmem)

end

/-! ## Runs -/

/-- In a run of a correct program without reports, nothing dangles in any state exactly when no
record is replaced whose trace is still a key. -/
theorem nothing_dangles_iff {cs : List (Call × Env)} (h : Runs.Along step CorrectCall .init cs) :
    Runs.Always step State.NothingDangles .init cs ↔ Runs.Along step SparesKeys .init cs := by
  refine Runs.always_iff_along (I := fun st => Owned st ∧ Sound st)
    (fun st hI => hI.1.nothingDangles) ?_ ?_ ⟨Owned.init, Sound.init⟩ h
  · rintro st c ⟨hown, hs⟩ hc hspare
    exact ⟨hown.step hs hc hspare, hs.step c⟩
  · rintro st c ⟨-, hs⟩ hc hspare
    exact dangles_of_not_spares hs hc hspare

/-- A call whose events are known, none of them a report. -/
theorem CorrectCall.of_events {st : State} {c : Call × Env} (hissued : PassesIssued st c.1)
    {events : List Event} (hev : (call st c.2 c.1).events = events)
    (h : ∀ e ∈ events, e.touches.isSome ∨ e.isAllocation = true) : CorrectCall st c := by
  refine ⟨hissued, fun d a hmem => ?_⟩
  rw [hev] at hmem
  rcases h _ hmem with hc | hc
  · cases hc
  · cases hc

/-- An address is issued again after its block was released, and released a second time. -/
def reissuedRun : List (Call × Env) :=
  [(.alloc 8 .malloc false, .giving 16 [7] .doNotMakeActionToPreventCrash),
    (.delete 16 .malloc, .giving 0 [8] .doNotMakeActionToPreventCrash),
    (.alloc 8 .malloc false, .giving 16 [9] .doNotMakeActionToPreventCrash),
    (.delete 16 .malloc, .giving 0 [8] .doNotMakeActionToPreventCrash)]

theorem nothing_dangles_iff_reissuedRun :
    Runs.Always step State.NothingDangles .init reissuedRun ↔
      Runs.Along step SparesKeys .init reissuedRun :=
  nothing_dangles_iff
    ⟨.of_events (passesIssued_alloc (by decide)) rfl (by decide),
      .of_events (passesIssued_delete rfl) rfl (by decide),
      .of_events (passesIssued_alloc (by decide)) rfl (by decide),
      .of_events (passesIssued_delete rfl) rfl (by decide), trivial⟩

/-- Two blocks of one stack. The first one is released and its address issued again for a block of
another stack, while the second one is still counted under the trace that is freed then. -/
theorem key_dangles_after_reissue :
    ∃ cs, Runs.Along step CorrectCall .init cs ∧
      ¬ Runs.Always step State.NothingDangles .init cs := by
  refine ⟨[(.alloc 8 .malloc false, .giving 16 [7] .doNotMakeActionToPreventCrash),
      (.alloc 8 .malloc false, .giving 32 [7] .doNotMakeActionToPreventCrash),
      (.delete 16 .malloc, .giving 0 [8] .doNotMakeActionToPreventCrash),
      (.alloc 8 .malloc false, .giving 16 [9] .doNotMakeActionToPreventCrash),
      (.delete 32 .malloc, .giving 0 [8] .doNotMakeActionToPreventCrash),
      (.delete 16 .malloc, .giving 0 [8] .doNotMakeActionToPreventCrash)],
    ⟨.of_events (passesIssued_alloc (by decide)) rfl (by decide),
      .of_events (passesIssued_alloc (by decide)) rfl (by decide),
      .of_events (passesIssued_delete rfl) rfl (by decide),
      .of_events (passesIssued_alloc (by decide)) rfl (by decide),
      .of_events (passesIssued_delete rfl) rfl (by decide),
      .of_events (passesIssued_delete rfl) rfl (by decide), trivial⟩, ?_⟩
  rintro ⟨-, -, -, -, ⟨hkeys, -⟩, -⟩
  have hzero := hkeys 0 (by decide)
  revert hzero
  decide

end CrashInvestigator.Tracker
