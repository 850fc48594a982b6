import CrashInvestigator.Lifetime.Proofs.RoutineProofs

/-!
# The calls

What a call does in each state that the process can be in: with both tables in order, and after the
destruction of tables that were not empty.
-/

namespace CrashInvestigator.Lifetime

open Library HashItems
open Reentry (convertedStacks)
open Tracker (Addr BacktracePtr FailureType MemoryType Owned SMemoryItem
  initBacktraceDataForCurrentStack isTheSameStack)

variable {s : State} {env : Env} {p : Addr} {bt : BacktracePtr} {item : SMemoryItem}

/-! ## Tables in order -/

/-- A trace that was not freed and that no record owns. -/
def State.Unowned (s : State) (bt : BacktracePtr) : Prop :=
  ∀ t, bt = some t → t < s.traces.next ∧ s.traces.frees t = 0 ∧ t ∉ s.abs.recordTraces

/-- The tables are in order, each record owns its traces, and the thread's item the one it holds. -/
structure Tidy (s : State) : Prop where
  flag : s.bIsAllocingOrDeallocing = false
  tables : Tables s
  owned : Owned s.abs
  addresses : s.abs.RecordsOwnAddress
  handler : s.Unowned s.handlerTrace

/-- The addresses that have a record. -/
def State.recorded (s : State) : List Addr := s.memoryItems.entries.map Entry.key

theorem recorded_eq : s.recorded = s.abs.memoryItems.map Prod.fst := by
  simp [State.recorded, State.abs]

/-- The call does nothing to other blocks of the program than this one, and allocates none. -/
def Event.About (p : Addr) : Event → Prop
  | .mallocn _ _ => False
  | .freen ptr => ptr = p
  | .systemSpecificLibInitialDealloc ptr _ => ptr = p
  | .systemSpecificGlibcDealloc ptr => ptr = p
  | .clbkFnc data _ => data.failureAddress = p

/-- A trace that is captured is a new one, and it holds the stack. -/
theorem captured_some {t : ℕ} (ht : s.captured env = some t) :
    ∃ b, env.stack = some b ∧ t = s.traces.next := by
  unfold State.captured at ht
  cases hs : env.stack with
  | none =>
    rw [hs] at ht
    cases ht
  | some b =>
    rw [hs] at ht
    exact ⟨b, rfl, (Option.some.inj ht).symm⟩

theorem captured_new {t : ℕ} (ht : s.captured env = some t) : t = s.traces.next := by
  obtain ⟨b, -, hnew⟩ := captured_some ht
  exact hnew

theorem captured_lt {t : ℕ} (ht : s.captured env = some t) : t < (s.capture env).traces.next := by
  obtain ⟨b, hs, rfl⟩ := captured_some ht
  unfold State.capture
  rw [hs]
  exact Nat.lt_succ_self _

theorem frees_capture : (s.capture env).traces.frees = s.traces.frees :=
  Tracker.initBacktrace_frees _ _

theorem next_capture : s.traces.next ≤ (s.capture env).traces.next :=
  Tracker.initBacktrace_next_le _ _

theorem Tidy.capture (h : Tidy s) (env : Env) : Tidy (s.capture env) := by
  refine ⟨h.flag, h.tables.capture env, h.owned.capture (env.abs s.handlerTrace), h.addresses,
    fun t ht => ?_⟩
  obtain ⟨hlt, hzero, hout⟩ := h.handler t ht
  refine ⟨?_, ?_, hout⟩
  · exact Nat.lt_of_lt_of_le hlt next_capture
  · rw [frees_capture]
    exact hzero

/-- The captured trace is new. -/
theorem Tidy.captured (h : Tidy s) (env : Env) : (s.capture env).Unowned (s.captured env) ∧
    ∀ t, s.captured env = some t → s.handlerTrace ≠ some t := by
  refine ⟨fun t ht => ?_, fun t ht hh => ?_⟩
  · have ht' : s.abs.captured (env.abs s.handlerTrace) = some t := ht
    exact Tracker.captured_unowned h.owned ht'
  · obtain ⟨hlt, -, -⟩ := h.handler t hh
    have hnew := captured_new ht
    omega

/-- A trace of nobody is freed. -/
theorem Tidy.free (h : Tidy s) (hbt : s.Unowned bt) (hne : ∀ t, bt = some t → s.handlerTrace ≠ some t) :
    Tidy { s with traces := Tracker.freeBacktraceData s.traces bt } := by
  refine ⟨h.flag, h.tables.congr rfl rfl (by simp) (by simp), h.owned.free hbt, h.addresses,
    fun t ht => ?_⟩
  obtain ⟨hlt, hzero, hout⟩ := h.handler t ht
  refine ⟨by simpa using hlt, ?_, hout⟩
  show (Tracker.freeBacktraceData s.traces bt).frees t = 0
  rw [Tracker.freeBacktraceData_frees_of_ne _ _ fun hbt' => hne t hbt' ht]
  exact hzero

/-- The process ends, or the thread's item takes another trace. -/
theorem Tidy.congr (h : Tidy s) {s₁ : State} (hbt : s.Unowned s₁.handlerTrace)
    (hs : s₁ = { s with handlerTrace := s₁.handlerTrace, process := s₁.process }) : Tidy s₁ := by
  rw [hs]
  have htables : Tables { s with handlerTrace := s₁.handlerTrace, process := s₁.process } :=
    h.tables.congr rfl rfl (Nat.le_refl _) fun _ _ => rfl
  exact ⟨h.flag, htables, h.owned.congr rfl (fun _ ht => ht) (Nat.le_refl _) rfl, h.addresses, hbt⟩

/-- A report reads living traces and frees the analysis trace. -/
theorem Tidy.report (h : Tidy s) (env : Env) (item : SMemoryItem) (freeType : MemoryType) (p : Addr)
    (kind : FailureType) (hbt : s.Unowned bt) (hne : ∀ t, bt = some t → s.handlerTrace ≠ some t)
    (halive : ∀ t, some t ∈ convertedStacks item bt kind → s.traces.frees t = 0) :
    ∃ r, initFailureDataAndCallClbk s env item freeType p kind bt = .ok r ∧ Tidy r.st ∧
      (∀ e ∈ r.events, e.About p) ∧ r.st.memoryItems = s.memoryItems := by
  have hconvert := convertBacktraces_ok halive
  have hfree := freeBacktraceData_ok fun t ht => (hbt t ht).2.1
  have htidy := h.free hbt hne
  unfold initFailureDataAndCallClbk
  simp only [hconvert, bind, Except.bind]
  cases hans : env.clbkFnc (Tracker.failureData s.abs (env.abs s.handlerTrace) item freeType p 0 kind
      bt) with
  | makeAction =>
    refine ⟨_, by simp only [hfree]; rfl, htidy, ?_, rfl⟩
    intro e he
    simp only [List.mem_cons, List.not_mem_nil, or_false] at he
    rcases he with rfl | rfl <;> rfl
  | doNotMakeActionToPreventCrash =>
    refine ⟨_, by simp only [hfree]; rfl, htidy, ?_, rfl⟩
    intro e he
    simp only [List.mem_cons, List.not_mem_nil, or_false] at he
    rcases he with rfl
    rfl
  | unknown =>
    refine ⟨_, rfl, h.congr h.handler rfl, ?_, rfl⟩
    intro e he
    simp only [State.ends, List.mem_cons, List.not_mem_nil, or_false] at he
    rcases he with rfl
    rfl
  | exitApp =>
    refine ⟨_, rfl, h.congr h.handler rfl, ?_, rfl⟩
    intro e he
    simp only [State.ends, List.mem_cons, List.not_mem_nil, or_false] at he
    rcases he with rfl
    rfl

/-! ## Releases -/

/-- The item that the thread has is reused or replaced, and nothing else is asked of the tables. -/
theorem deleteUntracked_ok (hh : ∀ t, s.handlerTrace = some t → s.traces.frees t = 0) :
    deleteUntracked s env p bt =
      .ok (if env.initialDealloc then
        ⟨s, .returns 0, [.systemSpecificLibInitialDealloc p true]⟩
      else
        ⟨{ s with
            traces := Tracker.freeBacktraceData s.traces
              (if env.handlerMemory then s.handlerTrace else none)
            handlerTrace := bt }, .returns 0,
          [.systemSpecificLibInitialDealloc p false, .systemSpecificGlibcDealloc p]⟩) := by
  unfold deleteUntracked
  cases hi : env.initialDealloc with
  | true => rfl
  | false =>
    have hok := freeBacktraceData_ok (h := s.traces)
      (p := if env.handlerMemory then s.handlerTrace else none) (by
        intro t ht
        split_ifs at ht
        exact hh t ht)
    simp [hok, bind, Except.bind]

/-- What a release of an address without a record does. -/
def ReleasesUntracked (p : Addr) (events : List Event) : Prop :=
  events = [.systemSpecificLibInitialDealloc p true] ∨
    events = [.systemSpecificLibInitialDealloc p false, .systemSpecificGlibcDealloc p]

theorem ReleasesUntracked.about {events : List Event} (h : ReleasesUntracked p events) :
    ∀ e ∈ events, e.About p := by
  intro e he
  rcases h with rfl | rfl
  · simp only [List.mem_cons, List.not_mem_nil, or_false] at he
    rcases he with rfl
    rfl
  · simp only [List.mem_cons, List.not_mem_nil, or_false] at he
    rcases he with rfl | rfl <;> rfl

theorem Tidy.deleteUntracked (h : Tidy s) (hbt : s.Unowned bt)
    (hne : ∀ t, bt = some t → s.handlerTrace ≠ some t) :
    ∃ r, Lifetime.deleteUntracked s env p bt = .ok r ∧ Tidy r.st ∧
      ReleasesUntracked p r.events ∧ r.st.memoryItems = s.memoryItems := by
  refine ⟨_, deleteUntracked_ok fun t ht => (h.handler t ht).2.1, ?_⟩
  cases hi : env.initialDealloc with
  | true => exact ⟨h, Or.inl rfl, rfl⟩
  | false =>
    have htaken : Tidy { s with handlerTrace := bt } := h.congr hbt rfl
    refine ⟨?_, Or.inr rfl, rfl⟩
    refine htaken.free (fun t ht => ?_) fun t ht hbt' => ?_
    · split_ifs at ht
      exact h.handler t ht
    · split_ifs at ht
      exact hne t hbt' ht

/-- The trace of a record that is counted is removed, if this does no harm. -/
def State.RemovesStack (s : State) (item : SMemoryItem) : Prop :=
  ∀ t ∈ item.allocTrace, ∀ k ∈ s.stackItems.entries,
    isTheSameStack k.key.stack (s.traces.data t) = true → k.value ≤ 1 →
      PatchesNeighbours s.stackItems (.removeEntry (some k.iterator))

/-- The release of a non-null pointer, after the capture of its stack. -/
theorem testOperatorDelete_eq (hflag : s.bIsAllocingOrDeallocing = false) (hp : p ≠ 0)
    (ty : MemoryType) :
    testOperatorDelete s env p ty = (do
      let found ← (s.capture env).findMemoryItem p
      match found.1 with
      | none => deleteUntracked (s.capture env) env p (s.captured env)
      | some iter => do
        let item ← second s.memoryItems iter
        if item.status ≠ .allocated then
          initFailureDataAndCallClbk (s.capture env) env item .notProvided p .doubleFree
            (s.captured env)
        else
          let removed ← removeCorrespondingTrace (s.capture env) item.allocTrace
          match removed with
          | .error pr => .ok ((s.capture env).ends pr [])
          | .ok s₁ =>
            if item.type ≠ ty then
              initFailureDataAndCallClbk s₁ env item .notProvided p .freeMissmatch
                (s.captured env)
            else do
              let released : SMemoryItem :=
                { item with status := .deallocated, deallocTrace := s.captured env }
              let memoryItems ← perform s₁.memoryItems (.setSecond iter released)
              .ok ⟨{ s₁ with memoryItems := memoryItems }, .returns 0,
                [.freen item.realAddress]⟩) := by
  unfold testOperatorDelete
  rw [if_neg hp, if_neg (by simp [hflag])]
  rfl

theorem recorded_of_memoryItems {s₁ : State} (h : s₁.memoryItems = s.memoryItems) :
    s₁.recorded = s.recorded := by
  unfold State.recorded
  rw [h]

theorem mem_recorded_of_lookup {e : Entry Addr SMemoryItem}
    (hf : s.memoryItems.lookup p = some e) : p ∈ s.recorded :=
  List.mem_map.mpr ⟨e, lookup_mem hf, lookup_key hf⟩

theorem abs_lookup {e : Entry Addr SMemoryItem} (hf : s.memoryItems.lookup p = some e) :
    s.abs.findMemoryItem p = some e.value := by
  rw [abs_findMemoryItem, hf]
  rfl

theorem Tidy.removal (h : Tidy s) {s₁ : State} (htables : Tables s₁)
    (hs : s₁ = { s with stackItems := s₁.stackItems })
    (hr : Tracker.removeCorrespondingTrace s.abs bt = .ok s₁.abs) : Tidy s₁ := by
  have hflag : s₁.bIsAllocingOrDeallocing = false := by
    rw [hs]
    exact h.flag
  have hhandler : s₁.Unowned s₁.handlerTrace := by
    rw [hs]
    exact h.handler
  exact ⟨hflag, htables, h.owned.removal hr, h.addresses.removal hr, hhandler⟩

/-- The record of the released block gets the captured trace. -/
theorem Tidy.released (h : Tidy s) {e : Entry Addr SMemoryItem}
    (hf : s.memoryItems.lookup p = some e) (hbt : s.Unowned bt)
    (hne : ∀ t, bt = some t → s.handlerTrace ≠ some t) :
    ∃ m, perform s.memoryItems (.setSecond e.iterator
        { e.value with status := .deallocated, deallocTrace := bt }) = .ok m ∧
      Tidy { s with memoryItems := m } ∧ m.entries.map Entry.key = s.recorded := by
  set released : SMemoryItem :=
    { e.value with status := .deallocated, deallocTrace := bt } with hreleased
  obtain ⟨m, hok, hlinked, hpairs⟩ := h.tables.writeMemoryItem hf released
  have hf' := abs_lookup hf
  have habs : State.abs { s with memoryItems := m } = s.abs.setMemoryItem p released := by
    rw [abs_withMemoryItems, hpairs]
    rfl
  have htables : Tables { s with memoryItems := m } :=
    ⟨hlinked, h.tables.stackItems, h.tables.keys⟩
  refine ⟨m, hok, ⟨h.flag, htables, ?_, ?_, ?_⟩, ?_⟩
  · rw [habs]
    exact h.owned.released hf' hbt
  · rw [habs]
    have hreal : e.value.realAddress = p := h.addresses.find hf'
    exact h.addresses.setMemoryItem hreal
  · intro t ht
    obtain ⟨hlt, hzero, hout⟩ := h.handler t ht
    refine ⟨hlt, hzero, fun hin => ?_⟩
    rw [habs] at hin
    rcases Tracker.mem_recordTraces_set hin with hin | hin
    · exact hout hin
    · simp only [hreleased, SMemoryItem.traces, List.mem_append, Option.mem_toList]
        at hin
      rcases hin with hin | hin
      · exact hout ((h.owned.ofRecord hf').2 t (by simp [SMemoryItem.traces, hin]))
      · exact hne t hin ht
  · have hkeys : (pairs m.entries).map Prod.fst = s.abs.memoryItems.map Prod.fst := by
      rw [hpairs]
      exact Entries.map_fst_setFirst
    rw [recorded_eq, ← hkeys]
    simp [pairs]

/-- A release on tables in order. -/
theorem Tidy.delete (h : Tidy s) (env : Env) (hp : p ≠ 0) (ty : MemoryType)
    (hC : ∀ e, s.memoryItems.lookup p = some e → e.value.status = .allocated →
      s.RemovesStack e.value) :
    ∃ r, testOperatorDelete s env p ty = .ok r ∧ Tidy r.st ∧ (∀ e ∈ r.events, e.About p) ∧
      r.st.recorded = s.recorded ∧ (p ∉ s.recorded → ReleasesUntracked p r.events) := by
  have hc := h.capture env
  obtain ⟨hun, hne⟩ := h.captured env
  have hfind := hc.tables.findMemoryItem (p := p)
  have hsame : (s.capture env).memoryItems = s.memoryItems := rfl
  rw [hsame] at hfind
  rw [testOperatorDelete_eq h.flag hp ty]
  simp only [hfind, bind, Except.bind]
  cases hf : s.memoryItems.lookup p with
  | none =>
    obtain ⟨r, hok, htidy, hevents, hmem⟩ := hc.deleteUntracked (p := p) hun hne
    exact ⟨r, hok, htidy, hevents.about, recorded_of_memoryItems (hmem.trans hsame),
      fun _ => hevents⟩
  | some e =>
    have hrecorded : p ∉ s.recorded → ∀ events, ReleasesUntracked p events :=
      fun hout => absurd (mem_recorded_of_lookup hf) hout
    have hread := h.tables.second_memoryItem hf
    obtain ⟨halloc, hdealloc, -⟩ := alive_of_lookup hc.owned hf
    simp only [Option.map_some, hread]
    by_cases hst : e.value.status = .allocated
    · rw [if_neg (by simp [hst])]
      have hdata : ∀ t, e.value.allocTrace = some t →
          (s.capture env).traces.data t = s.traces.data t := by
        intro t ht
        refine Tracker.initBacktrace_data_of_lt _ _ (h.owned.below t ?_)
        exact (h.owned.ofRecord (abs_lookup hf)).2 t (by simp [SMemoryItem.traces, ht])
      obtain ⟨o, hok, habs, hnext⟩ := hc.tables.removeCorrespondingTrace
        (keysAlive_of_owned hc.owned) halloc fun t ht k hk hsame hlast => by
          rw [hdata t ht] at hsame
          exact hC e hf hst t ht k hk hsame (by rw [hlast]; split_ifs <;> omega)
      rw [hok]
      cases o with
      | error pr =>
        refine ⟨_, rfl, hc.congr hc.handler rfl, ?_, rfl, fun hout => hrecorded hout _⟩
        intro x hx
        cases hx
      | ok s₁ =>
        obtain ⟨htables, hs₁⟩ := hnext s₁ rfl
        have ht₁ : Tidy s₁ := hc.removal htables hs₁ habs.symm
        have hmem : s₁.memoryItems = s.memoryItems := by rw [hs₁]; rfl
        have hf₁ : s₁.memoryItems.lookup p = some e := by rw [hmem]; exact hf
        have hun₁ : s₁.Unowned (s.captured env) := by rw [hs₁]; exact hun
        have hne₁ : ∀ t, s.captured env = some t → s₁.handlerTrace ≠ some t := by
          rw [hs₁]
          exact hne
        by_cases hty : e.value.type = ty
        · obtain ⟨m, hwrite, htidy, hkeys⟩ := ht₁.released hf₁ hun₁ hne₁
          have hreal : e.value.realAddress = p := h.addresses.find (abs_lookup hf)
          simp only [if_neg (not_not_intro hty), hwrite]
          refine ⟨_, rfl, htidy, ?_, hkeys.trans (recorded_of_memoryItems hmem),
            fun hout => hrecorded hout _⟩
          intro x hx
          simp only [List.mem_cons, List.not_mem_nil, or_false] at hx
          rw [hx]
          exact hreal
        · obtain ⟨r, hreport, htidy, habout, hmem'⟩ := ht₁.report env e.value .notProvided p
            .freeMissmatch hun₁ hne₁ (by
              intro t ht
              simp only [convertedStacks, List.mem_cons, List.not_mem_nil, or_false] at ht
              rcases ht with ht | ht
              · rw [hs₁]
                exact halloc t ht.symm
              · exact (hun₁ t ht.symm).2.1)
          refine ⟨r, ?_, htidy, habout, recorded_of_memoryItems (hmem'.trans hmem),
            fun hout => hrecorded hout _⟩
          simp only [if_pos hty]
          exact hreport
    · obtain ⟨r, hok, htidy, habout, hmem⟩ := hc.report env e.value .notProvided p .doubleFree
        hun hne (by
          intro t ht
          simp only [convertedStacks, List.mem_cons, List.not_mem_nil, or_false] at ht
          rcases ht with ht | ht | ht
          · exact halloc t ht.symm
          · exact hdealloc t ht.symm
          · exact (hun t ht.symm).2.1)
      refine ⟨r, ?_, htidy, habout, recorded_of_memoryItems (hmem.trans hsame),
        fun hout => hrecorded hout _⟩
      rw [if_pos hst]
      exact hok

/-! ## Allocations -/

/-- What makes a registration safe. -/
structure RegistersSafely (s : State) (env : Env) (p : Addr) : Prop where
  memoryItem : ∀ a ∈ env.memoryItem, s.memoryItems.table.items a = none
  stackItem : ∀ a ∈ env.stackItem, s.stackItems.table.items a = none
  spares : ∀ e ∈ s.memoryItems.entries, e.key = p → ∀ t ∈ e.value.allocTrace,
    ∀ k ∈ s.stackItems.entries, k.key.trace ≠ t
  below : ∀ b ∈ env.stack, ∀ k ∈ s.stackItems.entries, isTheSameStack k.key.stack b = true →
    0 < s.unMaxNumberOfAllocFromTheSameStack → k.value < s.unMaxNumberOfAllocFromTheSameStack

theorem captured_data {t : ℕ} (ht : s.captured env = some t) :
    env.stack = some ((s.capture env).traces.data t) := by
  obtain ⟨b, hs, rfl⟩ := captured_some ht
  simp [State.capture, hs, initBacktraceDataForCurrentStack]

/-- The keys of the tracker model are those of the table. -/
theorem mem_stackKeys {t : ℕ} : t ∈ s.abs.stackKeys ↔ ∃ k ∈ s.stackItems.entries, k.key.trace = t := by
  simp [Tracker.State.stackKeys, State.abs]

/-- The addresses with a record after a registration. -/
theorem recorded_register {st st' : Tracker.State} {env' : Tracker.Env}
    (hr : Tracker.registerMemoryItem st env' p item = some st') :
    ∀ q ∈ st'.memoryItems.map Prod.fst, q = p ∨ q ∈ st.memoryItems.map Prod.fst := by
  intro q hq
  rcases Tracker.registerMemoryItem_cases hr with ⟨-, -, rfl⟩ | ⟨old, -, rfl⟩
  · exact List.mem_cons.mp hq
  · right
    rw [Entries.map_fst_setFirst] at hq
    exact hq

/-- The record is registered with the stack that is captured first. -/
theorem addNewAllocatedMemoryAndCleanOldEntry_eq (s : State) (env : Env) (ty : MemoryType)
    (p : Addr) :
    addNewAllocatedMemoryAndCleanOldEntry s env ty p = (do
      let registered ← registerMemoryItem (s.capture env) env p
        ⟨ty, .allocated, p, s.captured env, none⟩
      match registered with
      | none => .ok ⟨s.capture env, .throwsBadAlloc, []⟩
      | some s₁ =>
        registerStackItem s₁ env ⟨ty, .allocated, p, s.captured env, none⟩ p (s.captured env)) :=
  rfl

/-- The registration of a new block. -/
theorem Tidy.addNew (h : Tidy s) (hC : RegistersSafely s env p) (ty : MemoryType) :
    ∃ r, addNewAllocatedMemoryAndCleanOldEntry s env ty p = .ok r ∧ Tidy r.st ∧ r.events = [] ∧
      ∀ q ∈ r.st.recorded, q = p ∨ q ∈ s.recorded := by
  have hc := h.capture env
  obtain ⟨hun, hne⟩ := h.captured env
  set item : SMemoryItem := ⟨ty, .allocated, p, s.captured env, none⟩ with hitem
  obtain ⟨o, hok, habs, hnext⟩ : ∃ o, registerMemoryItem (s.capture env) env p item = .ok o ∧ _ :=
    hc.tables.registerMemoryItem (fun e hf => (alive_of_lookup hc.owned hf).2) hC.memoryItem
  rw [addNewAllocatedMemoryAndCleanOldEntry_eq, hok]
  simp only [bind, Except.bind]
  cases o with
  | none => exact ⟨_, rfl, hc, rfl, fun q hq => Or.inr hq⟩
  | some s₁ =>
    obtain ⟨htables, hhandler, hstack⟩ := hnext s₁ rfl
    have hreg : Tracker.registerMemoryItem (s.capture env).abs (env.abs s.handlerTrace) p item =
        some s₁.abs := habs.symm
    obtain ⟨-, -, -, -, hflag, hmax, hlength, hdata⟩ := Tracker.registerMemoryItem_frame hreg
    have hspare : ∀ old t, (s.capture env).abs.findMemoryItem p = some old →
        old.allocTrace = some t → t ∉ (s.capture env).abs.stackKeys := by
      intro old t hf hal hkey
      rw [abs_findMemoryItem] at hf
      obtain ⟨e, he, rfl⟩ := Option.map_eq_some_iff.mp hf
      obtain ⟨k, hk, hkt⟩ := mem_stackKeys.mp hkey
      exact hC.spares e (lookup_mem he) (lookup_key he) t hal k hk hkt
    obtain ⟨hown₁, -⟩ := hc.owned.registerMemoryItem hun hspare hreg
    have houtsider : ∀ t, t ∉ (s.capture env).abs.recordTraces →
        s₁.traces.frees t = (s.capture env).traces.frees t ∧
          (t ∈ s₁.abs.recordTraces → t ∈ item.traces) :=
      fun t ht => Tracker.registerMemoryItem_outsider hreg ht
    have hbt : ∀ t, s.captured env = some t → t < s₁.traces.next ∧ s₁.traces.frees t = 0 := by
      intro t ht
      obtain ⟨hlt, hzero, hout⟩ := hun t ht
      exact ⟨Nat.lt_of_lt_of_eq hlt hlength.symm, (houtsider t hout).1.trans hzero⟩
    have hbelow : ∀ t, s.captured env = some t → ∀ k ∈ s₁.stackItems.entries,
        isTheSameStack k.key.stack (s₁.traces.data t) = true →
          0 < s₁.unMaxNumberOfAllocFromTheSameStack →
            k.value < s₁.unMaxNumberOfAllocFromTheSameStack := by
      intro t ht k hk hsame hpos
      have hmax' : s₁.unMaxNumberOfAllocFromTheSameStack =
        s.unMaxNumberOfAllocFromTheSameStack := hmax
      have hdata' : s₁.traces.data = (s.capture env).traces.data := hdata
      rw [hmax'] at hpos ⊢
      rw [hdata'] at hsame
      rw [hstack] at hk
      exact hC.below _ (captured_data ht) k hk hsame hpos
    obtain ⟨r, hcount, hevents, htab, hframe, hst, hsilent⟩ :
        ∃ r, registerStackItem s₁ env item p (s.captured env) = .ok r ∧ _ :=
      htables.registerStackItem (keysAlive_of_owned hown₁) hbt
        (by rw [hstack]; exact hC.stackItem) hbelow
    have hwhole : Tracker.addNewAllocatedMemoryAndCleanOldEntryNoLock (s.capture env).abs
        (env.abs s.handlerTrace) ty p (s.captured env) =
          Tracker.registerStackItem s₁.abs (env.abs s₁.handlerTrace) item p (s.captured env) := by
      unfold Tracker.addNewAllocatedMemoryAndCleanOldEntryNoLock
      simp only [← hitem, hreg]
      rw [hhandler]
      rfl
    rw [← hwhole] at hst hsilent
    have hmemory : r.st.memoryItems = s₁.memoryItems := by rw [hframe]
    have htraces : r.st.traces = s₁.traces := by rw [hframe]
    have hrec : r.st.abs.recordTraces = s₁.abs.recordTraces := by
      unfold Tracker.State.recordTraces State.abs
      rw [hmemory]
    refine ⟨r, hcount, ⟨?_, htab, ?_, ?_, ?_⟩, hevents, fun q hq => ?_⟩
    · rw [hframe]
      exact hflag.trans hc.flag
    · rw [hst]
      refine hc.owned.addNew hun hspare fun d a hmem => ?_
      rw [hsilent] at hmem
      cases hmem
    · rw [hst]
      exact hc.addresses.addNew ty
    · intro t ht
      have ht' : s.handlerTrace = some t := by
        rw [hframe] at ht
        exact hhandler.symm.trans ht
      obtain ⟨hlt, hzero, hout⟩ := hc.handler t ht'
      rw [htraces, hrec]
      refine ⟨Nat.lt_of_lt_of_eq hlt hlength.symm, (houtsider t hout).1.trans hzero, fun hin => ?_⟩
      have hitem' := (houtsider t hout).2 hin
      simp only [hitem, SMemoryItem.traces, Option.toList_none, List.append_nil,
        Option.mem_toList] at hitem'
      exact hne t hitem' ht'
    · rw [recorded_of_memoryItems hmemory, recorded_eq] at hq
      rw [recorded_eq]
      exact recorded_register hreg q hq

/-- An allocation on tables in order. -/
theorem Tidy.alloc (h : Tidy s) {count : ℕ} (hcount : count ≠ 0) (hraw : env.raw ≠ 0)
    (hC : RegistersSafely s env env.raw) (ty : MemoryType) (bThrow : Bool) :
    ∃ r, testOperatorAlloc s env count ty bThrow = .ok r ∧ Tidy r.st ∧
      r.events = [.mallocn count env.raw] ∧ ∀ q ∈ r.st.recorded, q = env.raw ∨ q ∈ s.recorded := by
  obtain ⟨r, hok, htidy, hevents, hrecorded⟩ := h.addNew hC ty
  refine ⟨{ r with events := .mallocn count env.raw :: r.events }, ?_, htidy, ?_, hrecorded⟩
  · unfold testOperatorAlloc
    rw [if_neg (by simp [h.flag]), if_neg hcount, if_neg hraw, hok]
    rfl
  · rw [hevents]

end CrashInvestigator.Lifetime
