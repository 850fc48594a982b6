import CrashInvestigator.Lifetime.Living
import CrashInvestigator.Lifetime.Proofs.ExportedProofs

/-!
# Clean calls go well

A call that meets no freed `Backtrace` ends without a misuse, and leaves tables on which the same holds.
The invariant is weaker than that of the life of the process: a record may have lost its traces to a leak
report, as long as no clean call comes across it.
-/

namespace CrashInvestigator.Lifetime

open Library HashItems
open Reentry (convertedStacks)
open Tracker (Addr BacktracePtr ExportedCall FailureType MemoryType Process SMemoryItem)

variable {s s₁ : State} {env : Env} {p : Addr} {bt : BacktracePtr} {item : SMemoryItem}

/-! ## The invariant -/

/-- The trace was created and not freed, and neither a record nor a key points to it. -/
def State.Apart (s : State) (bt : BacktracePtr) : Prop :=
  s.Unowned bt ∧ ∀ t, bt = some t → t ∉ s.abs.stackKeys

/-- The tables are sound, no key was freed, and only created traces are known. -/
structure Intact (s : State) : Prop where
  flag : s.bIsAllocingOrDeallocing = false
  tables : Tables s
  keys : ∀ t ∈ s.abs.stackKeys, s.traces.frees t = 0
  unused : ∀ t, s.traces.next ≤ t → s.traces.frees t = 0
  records : ∀ t ∈ s.abs.recordTraces, t < s.traces.next
  distinct : ∀ e ∈ s.abs.memoryItems, e.2.traces.Nodup
  note : s.Apart s.handlerTrace

theorem Intact.keysAlive (h : Intact s) : s.KeysAlive :=
  fun k hk => h.keys _ (mem_stackKeys.mpr ⟨k, hk, rfl⟩)

/-- A key is a trace that was created. -/
theorem Tables.stackKey_lt (h : Tables s) {t : ℕ} (ht : t ∈ s.abs.stackKeys) : t < s.traces.next := by
  obtain ⟨k, hk, rfl⟩ := mem_stackKeys.mp ht
  exact (h.keys k.key (List.mem_map.mpr ⟨(k.key, k.value), List.mem_map.mpr ⟨k, hk, rfl⟩, rfl⟩)).1

theorem mem_recordTraces_of_lookup {e : Entry Addr SMemoryItem}
    (hf : s.memoryItems.lookup p = some e) {t : ℕ} (ht : t ∈ e.value.traces) :
    t ∈ s.abs.recordTraces :=
  List.mem_flatMap.mpr ⟨(e.key, e.value), List.mem_map.mpr ⟨e, lookup_mem hf, rfl⟩, ht⟩

theorem Intact.distinctTraces (h : Intact s) {e : Entry Addr SMemoryItem}
    (hf : s.memoryItems.lookup p = some e) {t : ℕ} (hal : e.value.allocTrace = some t) :
    e.value.deallocTrace ≠ some t := by
  intro hde
  have hn := h.distinct (e.key, e.value) (List.mem_map.mpr ⟨e, lookup_mem hf, rfl⟩)
  simp [SMemoryItem.traces, hal, hde] at hn

theorem Intact.init (ndebug : Bool) : Intact (.init ndebug) where
  flag := rfl
  tables := (Tidy.init ndebug).tables
  keys := fun t ht => by cases ht
  unused := fun _ _ => rfl
  records := fun t ht => by cases ht
  distinct := fun e he => by cases he
  note := ⟨fun _ ht => (by cases ht), fun _ ht => (by cases ht)⟩

theorem Intact.capture (h : Intact s) (env : Env) : Intact (s.capture env) := by
  refine ⟨h.flag, h.tables.capture env, ?_, ?_, ?_, h.distinct, ?_⟩
  · rw [frees_capture]
    exact h.keys
  · rw [frees_capture]
    exact fun t ht => h.unused t (Nat.le_trans next_capture ht)
  · exact fun t ht => Nat.lt_of_lt_of_le (h.records t ht) next_capture
  · refine ⟨fun t ht => ?_, h.note.2⟩
    obtain ⟨hlt, hzero, hout⟩ := h.note.1 t ht
    refine ⟨Nat.lt_of_lt_of_le hlt next_capture, ?_, hout⟩
    rw [frees_capture]
    exact hzero

/-- The captured trace is new. -/
theorem Intact.captured (h : Intact s) (env : Env) : (s.capture env).Apart (s.captured env) ∧
    ∀ t, s.captured env = some t → s.handlerTrace ≠ some t := by
  refine ⟨⟨fun t ht => ?_, fun t ht hkey => ?_⟩, fun t ht hh => ?_⟩
  · refine ⟨captured_lt ht, ?_, fun hrec => ?_⟩
    · rw [frees_capture]
      exact h.unused t (Nat.le_of_eq (captured_new ht).symm)
    · have hlt := h.records t hrec
      have hnew := captured_new ht
      omega
  · have hlt := h.tables.stackKey_lt hkey
    have hnew := captured_new ht
    omega
  · obtain ⟨hlt, -, -⟩ := h.note.1 t hh
    have hnew := captured_new ht
    omega

/-- A trace is freed that is neither a key nor the one of the thread's item. -/
theorem Intact.free (h : Intact s) (hlt : ∀ t, bt = some t → t < s.traces.next)
    (hkey : ∀ t, bt = some t → t ∉ s.abs.stackKeys)
    (hne : ∀ t, bt = some t → s.handlerTrace ≠ some t) :
    Intact { s with traces := Tracker.freeBacktraceData s.traces bt } := by
  refine ⟨h.flag, h.tables.congr rfl rfl (by simp) (by simp), fun t ht => ?_, fun t ht => ?_,
    fun t ht => ?_, h.distinct, fun t ht => ?_, h.note.2⟩
  · show (Tracker.freeBacktraceData s.traces bt).frees t = 0
    rw [Tracker.freeBacktraceData_frees_of_ne _ _ fun hbt => hkey t hbt ht]
    exact h.keys t ht
  · have ht' : s.traces.next ≤ t := by simpa using ht
    show (Tracker.freeBacktraceData s.traces bt).frees t = 0
    rw [Tracker.freeBacktraceData_frees_of_ne _ _ fun hbt => Nat.not_lt.mpr ht' (hlt t hbt)]
    exact h.unused t ht'
  · simpa using h.records t ht
  · obtain ⟨hlt', hzero, hout⟩ := h.note.1 t ht
    refine ⟨by simpa using hlt', ?_, hout⟩
    show (Tracker.freeBacktraceData s.traces bt).frees t = 0
    rw [Tracker.freeBacktraceData_frees_of_ne _ _ fun hbt => hne t hbt ht]
    exact hzero

/-- The process ends, the limit is set, or the thread's item takes another trace. -/
theorem Intact.congr (h : Intact s) (hbt : s.Apart s₁.handlerTrace)
    (hs : s₁ = { s with
      handlerTrace := s₁.handlerTrace, process := s₁.process
      unMaxNumberOfAllocFromTheSameStack := s₁.unMaxNumberOfAllocFromTheSameStack }) :
    Intact s₁ := by
  rw [hs]
  exact ⟨h.flag, h.tables.congr rfl rfl (Nat.le_refl _) fun _ _ => rfl, h.keys, h.unused, h.records,
    h.distinct, hbt⟩

/-- A change of the records: each of them is an old one or has the traces of `item`. -/
theorem Intact.withMemoryItems (h : Intact s) (item : SMemoryItem)
    {m : Session Addr SMemoryItem} (hlinked : Linked m)
    (hpairs : ∀ e ∈ pairs m.entries, e ∈ s.abs.memoryItems ∨ e.2 = item)
    (hnew : ∀ t ∈ item.traces, t < s.traces.next ∧ s.handlerTrace ≠ some t)
    (hnodup : item.traces.Nodup) : Intact { s with memoryItems := m } := by
  have hrecords : ∀ t ∈ (State.abs { s with memoryItems := m }).recordTraces,
      t ∈ s.abs.recordTraces ∨ t ∈ item.traces := by
    intro t ht
    obtain ⟨e, he, hte⟩ := List.mem_flatMap.mp ht
    rcases hpairs e he with hold | hitem
    · exact Or.inl (List.mem_flatMap.mpr ⟨e, hold, hte⟩)
    · exact Or.inr (hitem ▸ hte)
  refine ⟨h.flag, ⟨hlinked, h.tables.stackItems, h.tables.keys⟩, h.keys, h.unused, fun t ht => ?_,
    fun e he => ?_, fun t ht => ?_, h.note.2⟩
  · rcases hrecords t ht with ht | ht
    · exact h.records t ht
    · exact (hnew t ht).1
  · rcases hpairs e he with hold | hitem
    · exact h.distinct e hold
    · exact hitem ▸ hnodup
  · obtain ⟨hlt, hzero, hout⟩ := h.note.1 t ht
    refine ⟨hlt, hzero, fun hin => ?_⟩
    rcases hrecords t hin with hin | hin
    · exact hout hin
    · exact (hnew t hin).2 ht

/-- A change of the stacks: each key is an old one or a living trace. -/
theorem Intact.withStackItems (h : Intact s) {m : Session StackKey ℕ}
    (htables : Tables { s with stackItems := m })
    (hkeys : ∀ t ∈ (State.abs { s with stackItems := m }).stackKeys, t ∈ s.abs.stackKeys ∨
      s.traces.frees t = 0 ∧ s.handlerTrace ≠ some t) : Intact { s with stackItems := m } := by
  refine ⟨h.flag, htables, fun t ht => ?_, h.unused, h.records, h.distinct, h.note.1,
    fun t ht hin => ?_⟩
  · rcases hkeys t ht with ht | ⟨hzero, -⟩
    · exact h.keys t ht
    · exact hzero
  · rcases hkeys t hin with hin | ⟨-, hne⟩
    · exact h.note.2 t ht hin
    · exact hne ht

/-! ## Parts of the routines -/

/-- What a report reads is alive, and it frees a trace that nothing else needs. -/
theorem Intact.report (h : Intact s) (env : Env) (item : SMemoryItem) (freeType : MemoryType)
    (p : Addr) (kind : FailureType)
    (halive : ∀ t, some t ∈ convertedStacks item bt kind → s.traces.frees t = 0)
    (hbt : ∀ t, bt = some t → t < s.traces.next ∧ s.traces.frees t = 0)
    (hkey : ∀ t, bt = some t → t ∉ s.abs.stackKeys)
    (hne : ∀ t, bt = some t → s.handlerTrace ≠ some t) :
    ∃ r, initFailureDataAndCallClbk s env item freeType p kind bt = .ok r ∧ Intact r.st := by
  have hconvert := convertBacktraces_ok halive
  have hfree := freeBacktraceData_ok fun t ht => (hbt t ht).2
  have hfreed := h.free (fun t ht => (hbt t ht).1) hkey hne
  unfold initFailureDataAndCallClbk
  simp only [hconvert, bind, Except.bind]
  cases hans : env.clbkFnc (Tracker.failureData s.abs (env.abs s.handlerTrace) item freeType p 0 kind
      bt) with
  | makeAction => exact ⟨_, by simp only [hfree]; rfl, hfreed⟩
  | doNotMakeActionToPreventCrash => exact ⟨_, by simp only [hfree]; rfl, hfreed⟩
  | unknown => exact ⟨_, rfl, h.congr h.note rfl⟩
  | exitApp => exact ⟨_, rfl, h.congr h.note rfl⟩

theorem Intact.reportBadRealloc (h : Intact s) (env : ExportedEnv) (p : Addr) (n : ℕ)
    (kind : FailureType) (halive : ∀ t, some t ∈ convertedStacks item bt kind → s.traces.frees t = 0)
    (hbt : s.Apart bt) (hne : ∀ t, bt = some t → s.handlerTrace ≠ some t) :
    ∃ r, Lifetime.reportBadRealloc s env item p n kind bt = .ok r ∧ Intact r.st := by
  have hconvert := convertBacktraces_ok halive
  have hfree := freeBacktraceData_ok fun t ht => (hbt.1 t ht).2.1
  have hfreed := h.free (fun t ht => (hbt.1 t ht).1) hbt.2 hne
  unfold Lifetime.reportBadRealloc
  simp only [hconvert, bind, Except.bind]
  cases hans : env.clbkFnc (Tracker.failureData s.abs (env.abs s.handlerTrace) item .notProvided p n
      kind bt) with
  | makeAction => exact ⟨_, by simp only [hfree]; rfl, hfreed⟩
  | doNotMakeActionToPreventCrash => exact ⟨_, by simp only [hfree]; rfl, hfreed⟩
  | unknown => exact ⟨_, rfl, h.congr h.note rfl⟩
  | exitApp => exact ⟨_, rfl, h.congr h.note rfl⟩

/-- The traces that a report of a tracked address reads are those of the record and of the call. -/
theorem mem_convertedStacks {kind : FailureType} {t : ℕ}
    (ht : some t ∈ convertedStacks item bt kind) : t ∈ item.traces ∨ bt = some t := by
  cases kind <;> simp [convertedStacks, SMemoryItem.traces] at ht ⊢ <;> tauto

/-- The first half of the registration frees what it replaces, and not the trace of the new block. -/
theorem Intact.registerMemoryItem (h : Intact s) (ty : MemoryType)
    (hold : s.RecordAlive p) (hkeys : s.RecordUncounted s.stackItems p)
    (hfree : ∀ a ∈ env.memoryItem, s.memoryItems.table.items a = none) (hbt : s.Apart bt)
    (hne : ∀ t, bt = some t → s.handlerTrace ≠ some t) :
    ∃ o, Lifetime.registerMemoryItem s env p ⟨ty, .allocated, p, bt, none⟩ = .ok o ∧
      ∀ s₁ ∈ o, Intact s₁ ∧ s₁.stackItems = s.stackItems ∧ s₁.traces.next = s.traces.next ∧
        s₁.handlerTrace = s.handlerTrace ∧ ∀ t, bt = some t → s₁.traces.frees t = 0 := by
  set item : SMemoryItem := ⟨ty, .allocated, p, bt, none⟩ with hitem
  have hnew : ∀ t ∈ item.traces, t < s.traces.next ∧ s.handlerTrace ≠ some t := by
    intro t ht
    have ht' : bt = some t := by simpa [hitem, SMemoryItem.traces] using ht
    exact ⟨(hbt.1 t ht').1, hne t ht'⟩
  have hnodup : item.traces.Nodup := by
    cases bt with
    | none => simp [hitem, SMemoryItem.traces]
    | some t => simp [hitem, SMemoryItem.traces]
  unfold Lifetime.registerMemoryItem
  rw [h.tables.findMemoryItem]
  cases hf : s.memoryItems.lookup p with
  | none =>
    cases hm : env.memoryItem with
    | none => exact ⟨none, rfl, by simp⟩
    | some a =>
      obtain ⟨m, hok, hlinked, hpairs⟩ := h.tables.insertMemoryItem hf item (hfree a hm)
      refine ⟨some { s with memoryItems := m }, by simp [bind, Except.bind, hok], ?_⟩
      rintro s₁ ⟨⟩
      refine ⟨h.withMemoryItems _ hlinked (fun e he => ?_) hnew hnodup, rfl, rfl, rfl,
        fun t ht => (hbt.1 t ht).2.1⟩
      rw [hpairs] at he
      rcases List.mem_cons.mp he with rfl | he
      · exact Or.inr rfl
      · exact Or.inl he
  | some e =>
    have hrec : ∀ t ∈ e.value.traces, t < s.traces.next ∧ t ∉ s.abs.stackKeys ∧
        s.handlerTrace ≠ some t ∧ bt ≠ some t := by
      intro t ht
      have hin := mem_recordTraces_of_lookup hf ht
      refine ⟨h.records t hin, fun hkey => ?_, fun hh => (h.note.1 t hh).2.2 hin,
        fun hb => (hbt.1 t hb).2.2 hin⟩
      obtain ⟨k, hk, hkt⟩ := mem_stackKeys.mp hkey
      exact hkeys e hf t ht k hk hkt
    have hde : ∀ t, e.value.deallocTrace = some t → t ∈ e.value.traces := by
      intro t ht
      simp [SMemoryItem.traces, ht]
    have hal : ∀ t, e.value.allocTrace = some t → t ∈ e.value.traces := by
      intro t ht
      simp [SMemoryItem.traces, ht]
    obtain ⟨m, hok, hlinked, hpairs⟩ := h.tables.writeMemoryItem hf item
    have hread := h.tables.second_memoryItem hf
    have hfirst := freeBacktraceData_ok fun t ht => hold e hf t (hde t ht)
    set freed := Tracker.freeBacktraceData s.traces e.value.deallocTrace with hfreed
    have hlast : freeBacktraceData freed e.value.allocTrace =
        .ok (Tracker.freeBacktraceData freed e.value.allocTrace) := by
      refine freeBacktraceData_ok fun t ht => ?_
      rw [hfreed, Tracker.freeBacktraceData_frees_of_ne _ _ (h.distinctTraces hf ht)]
      exact hold e hf t (hal t ht)
    refine ⟨some { s with
      memoryItems := m, traces := Tracker.freeBacktraceData freed e.value.allocTrace },
      by simp [bind, Except.bind, hread, hfirst, hlast, hok], ?_⟩
    rintro s₁ ⟨⟩
    have hwritten : Intact { s with memoryItems := m } := by
      refine h.withMemoryItems _ hlinked (fun x hx => ?_) hnew hnodup
      rw [hpairs] at hx
      rcases Entries.mem_setFirst hx with hx | ⟨hv, -⟩
      · exact Or.inl hx
      · exact Or.inr hv
    have hone : Intact { s with memoryItems := m, traces := freed } :=
      hwritten.free (fun t ht => (hrec t (hde t ht)).1) (fun t ht => (hrec t (hde t ht)).2.1)
        (fun t ht => (hrec t (hde t ht)).2.2.1)
    refine ⟨hone.free (fun t ht => ?_) (fun t ht => (hrec t (hal t ht)).2.1)
      (fun t ht => (hrec t (hal t ht)).2.2.1), rfl, by simp [hfreed], rfl, fun t ht => ?_⟩
    · simpa [hfreed] using (hrec t (hal t ht)).1
    · show (Tracker.freeBacktraceData freed e.value.allocTrace).frees t = 0
      rw [Tracker.freeBacktraceData_frees_of_ne _ _ fun ha => (hrec t (hal t ha)).2.2.2 ht, hfreed,
        Tracker.freeBacktraceData_frees_of_ne _ _ fun hd => (hrec t (hde t hd)).2.2.2 ht]
      exact (hbt.1 t ht).2.1

/-- The second half. A leak report frees the trace of the record. -/
theorem Intact.registerStackItem (h : Intact s) (hitem : item.allocTrace = bt)
    (hbt : ∀ t, bt = some t → t < s.traces.next ∧ s.traces.frees t = 0)
    (hkey : ∀ t, bt = some t → t ∉ s.abs.stackKeys)
    (hne : ∀ t, bt = some t → s.handlerTrace ≠ some t)
    (hfree : ∀ a ∈ env.stackItem, s.stackItems.table.items a = none) :
    ∃ r, Lifetime.registerStackItem s env item p bt = .ok r ∧ Intact r.st := by
  cases bt with
  | none => exact ⟨_, rfl, h.congr h.note rfl⟩
  | some t =>
    obtain ⟨hlt, hzero⟩ := hbt t rfl
    have hfind := h.tables.findStackItem h.keysAlive hzero
    unfold Lifetime.registerStackItem
    simp only [hfind, bind, Except.bind]
    cases hf : s.stackItems.lookup (s.stackKey t) with
    | none =>
      cases hm : env.stackItem with
      | none => exact ⟨_, rfl, h⟩
      | some a =>
        obtain ⟨m, hok, htables, habs⟩ := h.tables.insertStackItem hlt hf (hfree a hm)
        refine ⟨⟨{ s with stackItems := m }, .returns p, []⟩, by simp only [Option.map_none, hok], ?_⟩
        refine h.withStackItems htables fun u hu => ?_
        rw [habs] at hu
        rcases List.mem_cons.mp hu with rfl | hu
        · exact Or.inr ⟨hzero, hne u rfl⟩
        · exact Or.inl hu
    | some k =>
      by_cases hpos : 0 < s.unMaxNumberOfAllocFromTheSameStack
      · obtain ⟨m, hok, htables, habs⟩ := h.tables.writeStackItem hf (k.value + 1)
        have hread := h.tables.second_stackItem hf
        have hstack : (State.abs { s with stackItems := m }).stackKeys = s.abs.stackKeys := by
          rw [habs]
          exact Tracker.stackKeys_setStackItem t _
        have hcounted : Intact { s with stackItems := m } :=
          h.withStackItems htables fun u hu => Or.inl (hstack ▸ hu)
        by_cases hleak : s.unMaxNumberOfAllocFromTheSameStack < k.value + 1
        · obtain ⟨r, hreport, hintact⟩ := hcounted.report env item item.type p
            .possibilityOfMemoryLeak (by
              intro u hu
              have hu' : item.allocTrace = some u := by simpa [convertedStacks, eq_comm] using hu
              exact (hbt u (hitem ▸ hu')).2) hbt (by rw [hstack]; exact hkey) hne
          refine ⟨if r.st.process = .running then ⟨r.st, .returns p, r.events⟩ else r, ?_, ?_⟩
          · simp only [Option.map_some, if_pos hpos, hread, hok, if_pos hleak, hreport]
          · split_ifs
            · exact hintact
            · exact hintact
        · exact ⟨⟨{ s with stackItems := m }, .returns p, []⟩,
            by simp only [Option.map_some, if_pos hpos, hread, hok, if_neg hleak], hcounted⟩
      · exact ⟨⟨s, .returns p, []⟩, by simp only [Option.map_some, if_neg hpos], h⟩

theorem Intact.removeCorrespondingTrace (h : Intact s) (hbt : ∀ t, bt = some t → s.traces.frees t = 0)
    (hC : s.RemovesCleanly bt) :
    ∃ o, Lifetime.removeCorrespondingTrace s bt = .ok o ∧
      ∀ s₁, o = .ok s₁ → Intact s₁ ∧ s₁ = { s with stackItems := s₁.stackItems } ∧
        ∀ hand, s.Apart hand → s₁.Apart hand := by
  obtain ⟨o, hok, habs, hnext⟩ := h.tables.removeCorrespondingTrace h.keysAlive hbt hC
  refine ⟨o, hok, fun s₁ hs => ?_⟩
  obtain ⟨htables, hsame⟩ := hnext s₁ hs
  rw [hs] at habs
  have hkeys := Tracker.removeCorrespondingTrace_keys habs.symm
  refine ⟨?_, hsame, fun hand hh => ?_⟩
  · rw [hsame] at htables hkeys ⊢
    exact h.withStackItems htables fun t ht => Or.inl (hkeys t ht)
  · refine ⟨?_, fun t ht hin => hh.2 t ht (hkeys t hin)⟩
    rw [hsame]
    exact hh.1

/-- The record of a released block gets the captured trace. -/
theorem Intact.released (h : Intact s) {e : Entry Addr SMemoryItem}
    (hf : s.memoryItems.lookup p = some e) (hbt : s.Apart bt)
    (hne : ∀ t, bt = some t → s.handlerTrace ≠ some t) {m : Session Addr SMemoryItem}
    (hlinked : Linked m) (hpairs : pairs m.entries = (s.abs.setMemoryItem p
      { e.value with status := .deallocated, deallocTrace := bt }).memoryItems) :
    Intact { s with memoryItems := m } := by
  have htraces : ∀ t, e.value.allocTrace = some t → t ∈ s.abs.recordTraces :=
    fun t ht => mem_recordTraces_of_lookup hf (by simp [SMemoryItem.traces, ht])
  refine h.withMemoryItems { e.value with status := .deallocated, deallocTrace := bt } hlinked
    (fun x hx => ?_) (fun t ht => ?_) ?_
  · rw [hpairs] at hx
    rcases Entries.mem_setFirst hx with hx | ⟨hv, -⟩
    · exact Or.inl hx
    · exact Or.inr hv
  · simp only [SMemoryItem.traces, List.mem_append, Option.mem_toList] at ht
    rcases ht with ht | ht
    · exact ⟨h.records t (htraces t ht), fun hh => (h.note.1 t hh).2.2 (htraces t ht)⟩
    · exact ⟨(hbt.1 t ht).1, hne t ht⟩
  · simp only [SMemoryItem.traces]
    rw [List.nodup_append]
    refine ⟨by cases e.value.allocTrace <;> simp, by cases bt <;> simp, ?_⟩
    rintro t ht u hu rfl
    exact (hbt.1 t (by simpa using hu)).2.2 (htraces t (by simpa using ht))

/-! ## The exported routines -/

theorem Intact.deleteUntracked (h : Intact s) (env : Env) (p : Addr) (hbt : s.Apart bt)
    (hne : ∀ t, bt = some t → s.handlerTrace ≠ some t) :
    ∃ r, Lifetime.deleteUntracked s env p bt = .ok r ∧ Intact r.st := by
  refine ⟨_, deleteUntracked_ok fun t ht => (h.note.1 t ht).2.1, ?_⟩
  cases hi : env.initialDealloc with
  | true => exact h
  | false =>
    have htaken : Intact { s with handlerTrace := bt } := h.congr hbt rfl
    refine htaken.free (fun t ht => ?_) (fun t ht => ?_) fun t ht hbt' => ?_
    · split_ifs at ht
      exact (h.note.1 t ht).1
    · split_ifs at ht
      exact h.note.2 t ht
    · split_ifs at ht
      exact hne t hbt' ht

theorem Intact.reAllocUntracked (h : Intact s) (env : ExportedEnv) (p : Addr) (n : ℕ)
    (hbt : s.Apart bt) (hne : ∀ t, bt = some t → s.handlerTrace ≠ some t) :
    ∃ r, Lifetime.reAllocUntracked s env p n bt = .ok r ∧ Intact r.st := by
  unfold Lifetime.reAllocUntracked
  cases hi : env.initialRealloc with
  | some q => exact ⟨_, rfl, h⟩
  | none =>
    have hfree := freeBacktraceData_ok (h := s.traces)
      (p := if env.handlerMemory then s.handlerTrace else none) (by
        intro t ht
        split_ifs at ht
        exact (h.note.1 t ht).2.1)
    have htaken : Intact { s with handlerTrace := bt } := h.congr hbt rfl
    refine ⟨_, by simp only [hfree, bind, Except.bind]; rfl, ?_⟩
    refine htaken.free (fun t ht => ?_) (fun t ht => ?_) fun t ht hbt' => ?_
    · split_ifs at ht
      exact (h.note.1 t ht).1
    · split_ifs at ht
      exact h.note.2 t ht
    · split_ifs at ht
      exact hne t hbt' ht

/-- A new block. -/
theorem Intact.addNew (h : Intact s) (ty : MemoryType) (hold : s.RecordAlive p)
    (hkeys : s.RecordUncounted s.stackItems p)
    (hmemory : ∀ a ∈ env.memoryItem, s.memoryItems.table.items a = none)
    (hstack : ∀ a ∈ env.stackItem, s.stackItems.table.items a = none) (hbt : s.Apart bt)
    (hne : ∀ t, bt = some t → s.handlerTrace ≠ some t) :
    ∃ r, addNewAllocatedMemoryAndCleanOldEntryNoLock s env ty p bt = .ok r ∧ Intact r.st := by
  obtain ⟨o, hok, hnext⟩ := h.registerMemoryItem ty hold hkeys hmemory hbt hne
  unfold addNewAllocatedMemoryAndCleanOldEntryNoLock
  simp only [hok, bind, Except.bind]
  cases o with
  | none => exact ⟨_, rfl, h⟩
  | some s₁ =>
    obtain ⟨hintact, hitems, htraces, hhandler, hzero⟩ := hnext s₁ rfl
    have hsame : s₁.abs.stackKeys = s.abs.stackKeys := by
      unfold Tracker.State.stackKeys State.abs
      rw [hitems]
    refine hintact.registerStackItem rfl (fun t ht => ⟨?_, hzero t ht⟩) ?_ ?_ (hitems ▸ hstack)
    · rw [htraces]
      exact (hbt.1 t ht).1
    · rw [hsame]
      exact hbt.2
    · rw [hhandler]
      exact hne

/-- A new block under the stack that the call captures. -/
theorem Intact.addCaptured (h : Intact s) (ty : MemoryType) (hold : s.RecordAlive p)
    (hkeys : s.RecordUncounted s.stackItems p)
    (hmemory : ∀ a ∈ env.memoryItem, s.memoryItems.table.items a = none)
    (hstack : ∀ a ∈ env.stackItem, s.stackItems.table.items a = none) :
    ∃ r, addNewAllocatedMemoryAndCleanOldEntry s env ty p = .ok r ∧ Intact r.st := by
  obtain ⟨hbt, hne⟩ := h.captured env
  have hold' : (s.capture env).RecordAlive p := by
    unfold State.RecordAlive
    rw [frees_capture]
    exact hold
  exact (h.capture env).addNew ty hold' hkeys hmemory hstack hbt hne

theorem Intact.alloc (h : Intact s) (count : ℕ) (ty : MemoryType) (bThrow : Bool)
    (hC : count ≠ 0 → env.raw ≠ 0 →
      s.RecordAlive env.raw ∧ s.RecordUncounted s.stackItems env.raw)
    (hmemory : ∀ a ∈ env.memoryItem, s.memoryItems.table.items a = none)
    (hstack : ∀ a ∈ env.stackItem, s.stackItems.table.items a = none) :
    ∃ r, testOperatorAlloc s env count ty bThrow = .ok r ∧ Intact r.st := by
  unfold testOperatorAlloc
  rw [if_neg (by simp [h.flag])]
  by_cases hcount : count = 0
  · rw [if_pos hcount]
    exact ⟨_, rfl, h⟩
  rw [if_neg hcount]
  by_cases hraw : env.raw = 0
  · rw [if_pos hraw]
    exact ⟨_, rfl, h⟩
  rw [if_neg hraw]
  obtain ⟨hold, hkeys⟩ := hC hcount hraw
  obtain ⟨r, hok, hintact⟩ := h.addCaptured ty hold hkeys hmemory hstack
  exact ⟨{ r with events := .mallocn count env.raw :: r.events },
    by simp only [hok, bind, Except.bind], hintact⟩

theorem Intact.delete (h : Intact s) (env : Env) (p : Addr) (ty : MemoryType)
    (hold : s.RecordAlive p)
    (hC : ∀ e, s.memoryItems.lookup p = some e → p ≠ 0 → e.value.status = .allocated →
      (s.withStack env).RemovesCleanly e.value.allocTrace) :
    ∃ r, testOperatorDelete s env p ty = .ok r ∧ Intact r.st := by
  by_cases hp : p = 0
  · unfold testOperatorDelete
    rw [if_pos hp]
    exact ⟨_, rfl, h⟩
  have hc := h.capture env
  obtain ⟨hbt, hne⟩ := h.captured env
  rw [testOperatorDelete_eq h.flag hp ty]
  simp only [hc.tables.findMemoryItem, bind, Except.bind]
  have hsame : (s.capture env).memoryItems = s.memoryItems := rfl
  rw [hsame]
  cases hf : s.memoryItems.lookup p with
  | none => exact hc.deleteUntracked env p hbt hne
  | some e =>
    have halive : ∀ t ∈ e.value.traces, (s.capture env).traces.frees t = 0 := by
      rw [frees_capture]
      exact hold e hf
    simp only [Option.map_some, h.tables.second_memoryItem hf]
    by_cases hst : e.value.status = .allocated
    · rw [if_neg (not_not_intro hst)]
      obtain ⟨o, hok, hnext⟩ := hc.removeCorrespondingTrace
        (fun t ht => halive t (by simp [SMemoryItem.traces, ht])) (hC e hf hp hst)
      simp only [hok]
      cases o with
      | error pr => exact ⟨_, rfl, hc.congr hc.note rfl⟩
      | ok s₁ =>
        obtain ⟨hintact, hs₁, hapart⟩ := hnext s₁ rfl
        have hbt₁ := hapart _ hbt
        have hne₁ : ∀ t, s.captured env = some t → s₁.handlerTrace ≠ some t := by
          rw [hs₁]
          exact hne
        have hf₁ : s₁.memoryItems.lookup p = some e := by
          rw [hs₁]
          exact hf
        by_cases hty : e.value.type = ty
        · simp only [if_neg (not_not_intro hty)]
          obtain ⟨m, hperform, hlinked, hpairs⟩ := hintact.tables.writeMemoryItem hf₁
            { e.value with status := .deallocated, deallocTrace := s.captured env }
          refine ⟨⟨{ s₁ with memoryItems := m }, .returns 0, [.freen e.value.realAddress]⟩,
            by simp only [hperform], ?_⟩
          exact hintact.released hf₁ hbt₁ hne₁ hlinked hpairs
        · simp only [if_pos hty]
          refine hintact.report env _ .notProvided p .freeMissmatch (fun t ht => ?_)
            (fun t ht => ⟨(hbt₁.1 t ht).1, (hbt₁.1 t ht).2.1⟩) hbt₁.2 hne₁
          rcases mem_convertedStacks ht with ht | ht
          · rw [hs₁]
            exact halive t ht
          · exact (hbt₁.1 t ht).2.1
    · rw [if_pos hst]
      refine hc.report env _ .notProvided p .doubleFree (fun t ht => ?_)
        (fun t ht => ⟨(hbt.1 t ht).1, (hbt.1 t ht).2.1⟩) hbt.2 hne
      rcases mem_convertedStacks ht with ht | ht
      · exact halive t ht
      · exact (hbt.1 t ht).2.1

/-- The record of an address is what the tracker finds. -/
theorem recordAlive_iff : s.RecordAlive p ↔
    ∀ item ∈ s.abs.findMemoryItem p, ∀ t ∈ item.traces, s.traces.frees t = 0 := by
  rw [abs_findMemoryItem]
  simp [State.RecordAlive]

theorem recordUncounted_iff {m : Session StackKey ℕ} : s.RecordUncounted m p ↔
    ∀ item ∈ s.abs.findMemoryItem p, ∀ t ∈ item.traces, ∀ k ∈ m.entries, k.key.trace ≠ t := by
  rw [abs_findMemoryItem]
  simp [State.RecordUncounted]

theorem Intact.calloc (h : Intact s) {env : ExportedEnv} (nmemb size : ℕ)
    (hC : nmemb * size % Tracker.sizeModulus ≠ 0 → env.raw ≠ 0 →
      s.RecordAlive env.raw ∧ s.RecordUncounted s.stackItems env.raw)
    (hmemory : ∀ a ∈ env.memoryItem, s.memoryItems.table.items a = none)
    (hstack : ∀ a ∈ env.stackItem, s.stackItems.table.items a = none) :
    ∃ r, testOperatorCalloc s env nmemb size = .ok r ∧ Intact r.st := by
  unfold testOperatorCalloc
  rw [if_neg (by simp [h.flag])]
  by_cases hcount : nmemb * size % Tracker.sizeModulus = 0
  · rw [if_pos hcount]
    exact ⟨_, rfl, h⟩
  rw [if_neg hcount]
  by_cases hraw : env.raw = 0
  · rw [if_pos hraw]
    exact ⟨_, rfl, h⟩
  rw [if_neg hraw]
  obtain ⟨hold, hkeys⟩ := hC hcount hraw
  obtain ⟨r, hok, hintact⟩ := h.addCaptured .malloc hold hkeys hmemory hstack
  exact ⟨⟨r.st, r.out, .callocn nmemb size env.raw :: r.exported.events⟩,
    by simp only [hok, bind, Except.bind], hintact⟩

theorem Intact.newAligned (h : Intact s) {env : ExportedEnv} (count : ℕ) (ty : MemoryType)
    (bThrow : Bool) (align : ℕ)
    (hC : s.registers env (.newAligned count ty bThrow align) = true →
      s.RecordAlive env.raw ∧ s.RecordUncounted s.stackItems env.raw)
    (hmemory : ∀ a ∈ env.memoryItem, s.memoryItems.table.items a = none)
    (hstack : ∀ a ∈ env.stackItem, s.stackItems.table.items a = none) :
    ∃ r, testOperatorNewAligned s env count ty bThrow align = .ok r ∧ Intact r.st := by
  unfold testOperatorNewAligned
  rw [if_neg (by simp [h.flag])]
  by_cases hcount : count = 0
  · rw [if_pos hcount]
    exact ⟨_, rfl, h⟩
  rw [if_neg hcount]
  dsimp only
  by_cases hraw : env.raw = 0
  · rw [if_pos hraw]
    exact ⟨_, rfl, h⟩
  rw [if_neg hraw]
  cases hal : Tracker.stdAlign (Tracker.effectiveAlign align) count env.raw
      ((count + Tracker.effectiveAlign align + Tracker.sizeofVoidPtr) % Tracker.sizeModulus) with
  | none => exact ⟨_, rfl, h⟩
  | some q =>
    obtain ⟨hold, hkeys⟩ := hC (by simp [State.registers, hcount, hraw, hal])
    obtain ⟨r, hok, hintact⟩ := h.addCaptured ty hold hkeys hmemory hstack
    exact ⟨⟨r.st, alignedOutcome q r.out, .mallocn
      ((count + Tracker.effectiveAlign align + Tracker.sizeofVoidPtr) % Tracker.sizeModulus)
        env.raw :: r.exported.events⟩, by simp only [hok, bind, Except.bind], hintact⟩

/-- The realloc of a non-null pointer to a positive size, after the capture of its stack. -/
theorem testOperatorReAlloc_eq {env : ExportedEnv} (hflag : s.bIsAllocingOrDeallocing = false)
    (hp : p ≠ 0) {n : ℕ} (hn : n ≠ 0) :
    testOperatorReAlloc s env p n = (do
      let found ← (s.capture env.toEnv).findMemoryItem p
      match found.1 with
      | none => reAllocUntracked (s.capture env.toEnv) env p n (s.captured env.toEnv)
      | some iter => do
        let item ← second s.memoryItems iter
        if item.type ≠ .malloc then
          reportBadRealloc (s.capture env.toEnv) env item p n .badReallocCreatedByWrongAlloc
            (s.captured env.toEnv)
        else if item.status ≠ .allocated then
          reportBadRealloc (s.capture env.toEnv) env item p n .badReallocDeletedMem
            (s.captured env.toEnv)
        else
          let call := Tracker.Event.reallocn item.realAddress n env.raw
          if env.raw = p then do
            let traces ← freeBacktraceData (s.capture env.toEnv).traces (s.captured env.toEnv)
            .ok ⟨{ s.capture env.toEnv with traces := traces }, .returns env.raw, [call]⟩
          else do
            let removed ← removeCorrespondingTrace (s.capture env.toEnv) item.allocTrace
            match removed with
            | .error pr => .ok ⟨{ s.capture env.toEnv with process := pr }, .processEnds, [call]⟩
            | .ok s₁ => do
              let memoryItems ← perform s₁.memoryItems
                (.setSecond iter { item with status := .duringReallocChanged })
              let r ← addNewAllocatedMemoryAndCleanOldEntryNoLock
                { s₁ with memoryItems := memoryItems } env.toEnv .malloc env.raw
                (s.captured env.toEnv)
              .ok ⟨r.st, r.out, call :: r.exported.events⟩) := by
  unfold testOperatorReAlloc
  rw [if_neg (by simp [hflag]), if_neg hp, if_neg hn]
  rfl

/-- The record of a block that was moved is marked, and the new block is registered. -/
theorem Intact.moved (h : Intact s) {e : Entry Addr SMemoryItem}
    (hf : s.memoryItems.lookup p = some e) {q : Addr} (hq : q ≠ p) (hold : s.RecordAlive q)
    (hkeys : s.RecordUncounted s.stackItems q)
    (hmemory : ∀ a ∈ env.memoryItem, s.memoryItems.table.items a = none)
    (hstack : ∀ a ∈ env.stackItem, s.stackItems.table.items a = none) (hbt : s.Apart bt)
    (hne : ∀ t, bt = some t → s.handlerTrace ≠ some t) :
    ∃ m r, perform s.memoryItems
        (.setSecond e.iterator { e.value with status := .duringReallocChanged }) = .ok m ∧
      addNewAllocatedMemoryAndCleanOldEntryNoLock { s with memoryItems := m } env .malloc q bt =
        .ok r ∧ Intact r.st := by
  set marked : SMemoryItem := { e.value with status := .duringReallocChanged } with hmarked
  obtain ⟨m, hok, hlinked, hpairs⟩ := h.tables.writeMemoryItem hf marked
  have htraces : ∀ t ∈ marked.traces, t ∈ s.abs.recordTraces :=
    fun t ht => mem_recordTraces_of_lookup hf ht
  have hwritten : Intact { s with memoryItems := m } := by
    refine h.withMemoryItems marked hlinked (fun x hx => ?_) (fun t ht => ?_)
      (h.distinct (e.key, e.value) (List.mem_map.mpr ⟨e, lookup_mem hf, rfl⟩))
    · rw [hpairs] at hx
      rcases Entries.mem_setFirst hx with hx | ⟨hv, -⟩
      · exact Or.inl hx
      · exact Or.inr hv
    · exact ⟨h.records t (htraces t ht), fun hh => (h.note.1 t hh).2.2 (htraces t ht)⟩
  have hsame : (State.abs { s with memoryItems := m }).findMemoryItem q = s.abs.findMemoryItem q := by
    rw [abs_setMemoryItem hpairs]
    exact Tracker.findMemoryItem_setMemoryItem_of_ne _ _ _ _ hq
  have hold' : State.RecordAlive { s with memoryItems := m } q := by
    rw [recordAlive_iff, hsame]
    exact recordAlive_iff.mp hold
  have hkeys' : State.RecordUncounted { s with memoryItems := m } s.stackItems q := by
    rw [recordUncounted_iff, hsame]
    exact recordUncounted_iff.mp hkeys
  have hapart : State.Apart { s with memoryItems := m } bt := by
    refine ⟨fun t ht => ?_, hbt.2⟩
    obtain ⟨hlt, hzero, hout⟩ := hbt.1 t ht
    refine ⟨hlt, hzero, fun hin => ?_⟩
    rw [abs_setMemoryItem hpairs] at hin
    rcases Tracker.mem_recordTraces_set hin with hin | hin
    · exact hout hin
    · exact hout (htraces t hin)
  obtain ⟨r, hadd, hintact⟩ := hwritten.addNew .malloc hold' hkeys'
    (fun a ha => setSecond_items hok (hmemory a ha)) hstack hapart hne
  exact ⟨m, r, hok, hadd, hintact⟩

/-- A realloc of a block to a positive size. -/
theorem Intact.move (h : Intact s) {env : ExportedEnv} (hp : p ≠ 0) {n : ℕ} (hn : n ≠ 0)
    (hC : Clean s (.plain (.reAlloc p n), env)) :
    ∃ r, testOperatorReAlloc s env p n = .ok r ∧ Intact r.st := by
  have hc := h.capture env.toEnv
  obtain ⟨hbt, hne⟩ := h.captured env.toEnv
  rw [testOperatorReAlloc_eq h.flag hp hn]
  simp only [hc.tables.findMemoryItem, bind, Except.bind]
  have hsame : (s.capture env.toEnv).memoryItems = s.memoryItems := rfl
  rw [hsame]
  cases hf : s.memoryItems.lookup p with
  | none => exact hc.reAllocUntracked env p n hbt hne
  | some e =>
    have halive : ∀ t ∈ e.value.traces, (s.capture env.toEnv).traces.frees t = 0 := by
      rw [frees_capture]
      exact hC.record e hf
    have hconverted : ∀ kind t, some t ∈ convertedStacks e.value (s.captured env.toEnv) kind →
        (s.capture env.toEnv).traces.frees t = 0 := by
      intro kind t ht
      rcases mem_convertedStacks ht with ht | ht
      · exact halive t ht
      · exact (hbt.1 t ht).2.1
    simp only [Option.map_some, h.tables.second_memoryItem hf]
    by_cases hty : e.value.type = .malloc
    · rw [if_neg (not_not_intro hty)]
      by_cases hst : e.value.status = .allocated
      · rw [if_neg (not_not_intro hst)]
        by_cases hkept : env.raw = p
        · rw [if_pos hkept]
          have hfree := freeBacktraceData_ok fun t ht => (hbt.1 t ht).2.1
          refine ⟨_, by simp only [hfree]; rfl, ?_⟩
          exact hc.free (fun t ht => (hbt.1 t ht).1) hbt.2 hne
        · rw [if_neg hkept]
          have htakes : s.takesOut env (.plain (.reAlloc p n)) = some e.value.allocTrace :=
            takesOut_reAlloc hf hp hst (Or.inr ⟨hty, hkept⟩)
          obtain ⟨o, hok, hnext⟩ := hc.removeCorrespondingTrace
            (fun t ht => halive t (by simp [SMemoryItem.traces, ht])) (hC.removes _ htakes)
          simp only [hok]
          cases o with
          | error pr => exact ⟨_, rfl, hc.congr hc.note rfl⟩
          | ok s₁ =>
            obtain ⟨hintact, hs₁, hapart⟩ := hnext s₁ rfl
            have hitems : s.itemsAtRegistration env (.plain (.reAlloc p n)) = s₁.stackItems :=
              itemsAtRegistration_of_takesOut htakes hok
            obtain ⟨hold, hkeys⟩ := hC.replaced (by simp [State.registers, hn, hp, htakes])
            rw [hitems] at hkeys
            have hmem : s₁.memoryItems = s.memoryItems := by
              rw [hs₁]
              rfl
            have hfrees : s₁.traces.frees = s.traces.frees := by
              rw [hs₁]
              exact frees_capture
            have hold₁ : s₁.RecordAlive env.raw := by
              unfold State.RecordAlive
              rw [hmem, hfrees]
              exact hold
            have hkeys₁ : s₁.RecordUncounted s₁.stackItems env.raw := by
              unfold State.RecordUncounted
              rw [hmem]
              exact hkeys
            obtain ⟨m, r, hperform, hadd, hfinal⟩ := hintact.moved (hmem ▸ hf) hkept hold₁ hkeys₁
              (hmem ▸ hC.memoryItem) (hitems ▸ hC.stackItem) (hapart _ hbt) (by rw [hs₁]; exact hne)
            exact ⟨_, by simp only [hperform, hadd]; rfl, hfinal⟩
      · rw [if_pos hst]
        exact hc.reportBadRealloc env p n .badReallocDeletedMem (hconverted _) hbt hne
    · rw [if_pos hty]
      exact hc.reportBadRealloc env p n .badReallocCreatedByWrongAlloc (hconverted _) hbt hne

/-- A clean call ends without a misuse. -/
theorem Intact.exportedCall (h : Intact s) {c : ExportedCall × ExportedEnv} (hC : Clean s c) :
    ∃ r, Lifetime.exportedCall s c.2 c.1 = .ok r ∧ Intact r.st := by
  obtain ⟨c, env⟩ := c
  have hexported : ∀ {x : Except Misuse Res}, (∃ r, x = .ok r ∧ Intact r.st) →
      ∃ r, x.map Res.exported = .ok r ∧ Intact r.st := by
    rintro x ⟨r, rfl, hr⟩
    exact ⟨r.exported, rfl, hr⟩
  cases c with
  | newAligned count ty bThrow align =>
    have hreg := hC.replaced
    rw [itemsAtRegistration_of_none rfl] at hreg
    exact h.newAligned count ty bThrow align hreg hC.memoryItem hC.stackItem
  | plain c =>
    cases c with
    | alloc count ty bThrow =>
      have hreg := hC.replaced
      rw [itemsAtRegistration_of_none rfl] at hreg
      exact hexported (h.alloc count ty bThrow
        (fun hcount hraw => hreg (by simp [State.registers, hcount, hraw])) hC.memoryItem
        hC.stackItem)
    | calloc nmemb size =>
      have hreg := hC.replaced
      rw [itemsAtRegistration_of_none rfl] at hreg
      exact h.calloc nmemb size (fun hcount hraw => hreg (by simp [State.registers, hcount, hraw]))
        hC.memoryItem hC.stackItem
    | reAlloc p n =>
      by_cases hp : p = 0
      · subst hp
        have hreg := hC.replaced
        have hstack := hC.stackItem
        rw [itemsAtRegistration_of_none takesOut_null] at hreg hstack
        have halloc := h.alloc n .malloc false
          (fun hcount hraw => hreg (by simp [State.registers, hcount, hraw])) hC.memoryItem hstack
        show ∃ r, testOperatorReAlloc s env 0 n = .ok r ∧ _
        unfold testOperatorReAlloc
        rw [if_neg (by simp [h.flag]), if_pos rfl]
        exact hexported halloc
      by_cases hn : n = 0
      · subst hn
        have hdelete := h.delete env.toEnv p .malloc hC.record
          fun e hf hp hst => hC.removes _ (takesOut_reAlloc hf hp hst (Or.inl rfl))
        show ∃ r, testOperatorReAlloc s env p 0 = .ok r ∧ _
        unfold testOperatorReAlloc
        rw [if_neg (by simp [h.flag]), if_neg hp, if_pos rfl]
        exact hexported hdelete
      · exact h.move hp hn hC
    | delete p ty =>
      exact hexported (h.delete env.toEnv p ty hC.record
        fun e hf hp hst => hC.removes _ (takesOut_delete hf hp hst))
    | setMaxAllowedAllocInTheSameStack n => exact ⟨_, rfl, h.congr h.note rfl⟩

/-- A clean call in a running process, as the tracker has it. -/
theorem Intact.mirrors (h : Intact s) (hrun : s.process = .running)
    {c : ExportedCall × ExportedEnv} (hC : Clean s c) :
    ∃ r, Lifetime.exportedCall s c.2 c.1 = .ok r ∧ Intact r.st ∧
      Mirrors r (Tracker.exportedCall s.abs (c.2.abs s.handlerTrace) c.1) := by
  obtain ⟨r, hok, hintact⟩ := h.exportedCall hC
  have hmirrored : Mirrored s s.abs := ⟨h.tables, h.flag, rfl⟩
  exact ⟨r, hok, hintact, (hmirrored.call hrun hC.toSensible hok).2⟩

end CrashInvestigator.Lifetime
