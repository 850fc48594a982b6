import CrashInvestigator.Lifetime.Proofs.LifeProofs
import CrashInvestigator.Lifetime.Proofs.ExportedPartProofs

/-!
# Runs over the real tables

Each routine mirrors the tracker's, from its parts, and so does every run of calls.
-/

namespace CrashInvestigator.Lifetime

open Library HashItems
open Library.Fallible (bind_eq_ok map_eq_ok toOption_eq_some)
open Tracker (Addr BacktracePtr MemoryType Process SMemoryItem)
open Reentry (bookkeeping)

variable {s s₁ : State} {env : Env} {p : Addr} {bt : BacktracePtr} {item : SMemoryItem}

/-! ## The exported routines -/

theorem abs_capture (env : Env) {env' : Tracker.Env} (h : env'.stack = env.stack) :
    (s.capture env).abs = s.abs.capture env' ∧ s.captured env = s.abs.captured env' := by
  unfold Tracker.State.capture Tracker.State.captured
  rw [h]
  exact ⟨rfl, rfl⟩

theorem captured_next {t : ℕ} (ht : s.captured env = some t) : t < (s.capture env).traces.next :=
  captured_lt ht

theorem abs_setMemoryItem {m : Session Addr SMemoryItem}
    (h : pairs m.entries = (s.abs.setMemoryItem p item).memoryItems) :
    State.abs { s with memoryItems := m } = s.abs.setMemoryItem p item := by
  show { s.abs with memoryItems := pairs m.entries } = _
  rw [h]
  rfl

theorem deleteUntracked_mirrors (h : Tables s) {r : Res}
    (hok : deleteUntracked s env p bt = .ok r) :
    Kept s r.st ∧ Mirrors r.exported
      (Tracker.deleteUntracked s.abs (env.abs s.handlerTrace) p bt) := by
  unfold deleteUntracked at hok
  unfold Tracker.deleteUntracked
  have hinitial : (env.abs s.handlerTrace).initialDealloc = env.initialDealloc := rfl
  rw [hinitial]
  by_cases hi : env.initialDealloc = true
  · rw [if_pos hi] at hok ⊢
    cases hok
    exact ⟨⟨h, rfl⟩, ⟨rfl, rfl, rfl⟩⟩
  · rw [if_neg hi] at hok ⊢
    obtain ⟨traces, hfree, hret⟩ := bind_eq_ok hok
    have htrace : ((env.abs s.handlerTrace).handlerMemory.getD .default).deallocTrace =
        if env.handlerMemory then s.handlerTrace else none := by
      unfold Env.abs
      split_ifs
      · rfl
      · rfl
    cases freeBacktraceData_eq hfree
    cases hret
    dsimp only
    rw [htrace]
    exact ⟨⟨h.congr rfl rfl (by simp) (by simp), rfl⟩, ⟨rfl, rfl, rfl⟩⟩

theorem testOperatorDelete_mirrors (h : Tables s) (hrun : s.process = .running)
    (hflag : s.bIsAllocingOrDeallocing = false) {ty : MemoryType} {r : Res}
    (hC : ∀ e, s.memoryItems.lookup p = some e → p ≠ 0 → e.value.status = .allocated →
      (s.withStack env).RemovesCleanly e.value.allocTrace)
    (hok : testOperatorDelete s env p ty = .ok r) :
    Kept s r.st ∧ Mirrors r.exported
      (Tracker.testOperatorDelete s.abs (env.abs s.handlerTrace) p ty) := by
  by_cases hp : p = 0
  · unfold testOperatorDelete at hok
    unfold Tracker.testOperatorDelete
    rw [if_pos hp] at hok ⊢
    cases hok
    exact ⟨⟨h, rfl⟩, ⟨rfl, rfl, rfl⟩⟩
  have ho : s.abs.Outermost := ⟨hrun, hflag⟩
  have hc := h.capture env
  obtain ⟨hcap, hcaptured⟩ := abs_capture (s := s) env
    (show (env.abs s.handlerTrace).stack = env.stack from rfl)
  rw [testOperatorDelete_eq hflag hp ty] at hok
  rw [Tracker.testOperatorDelete_body _ ho hp ty, ← hcap, ← hcaptured, abs_findMemoryItem]
  obtain ⟨found, hfound, hrest⟩ := bind_eq_ok hok
  cases hc.findMemoryItem.symm.trans hfound
  have hkeep : ∀ {s' : State}, Kept (s.capture env) s' → Kept s s' := fun hk => ⟨hk.tables, hk.flag⟩
  cases hf : (s.capture env).memoryItems.lookup p with
  | none =>
    simp only [hf, Option.map_none] at hrest ⊢
    obtain ⟨hkept, hmirrors⟩ := deleteUntracked_mirrors hc hrest
    exact ⟨hkeep hkept, hmirrors⟩
  | some e =>
    simp only [hf, Option.map_some] at hrest ⊢
    obtain ⟨item, hread, hrest⟩ := bind_eq_ok hrest
    cases (hc.second_memoryItem hf).symm.trans hread
    by_cases hst : e.value.status = .allocated
    · rw [if_neg (not_not_intro hst)] at hrest ⊢
      obtain ⟨o, hremove, hrest⟩ := bind_eq_ok hrest
      obtain ⟨habs, hnext⟩ := removeCorrespondingTrace_mirrors hc (hC e hf hp hst) hremove
      simp only [← habs]
      cases o with
      | error pr =>
        cases hrest
        exact ⟨⟨hc.congr rfl rfl (Nat.le_refl _) fun _ _ => rfl, rfl⟩, ⟨rfl, rfl, rfl⟩⟩
      | ok s₁ =>
        have hkept₁ := hnext s₁ rfl
        have hf₁ : s₁.memoryItems.lookup p = some e := hkept₁.memoryItems ▸ hf
        by_cases hty : e.value.type = ty
        · simp only [if_neg (not_not_intro hty)] at hrest
          simp only [Except.map, if_neg (not_not_intro hty)]
          obtain ⟨m', hperform, hret⟩ := bind_eq_ok hrest
          obtain ⟨m, hwrite, hlinked, hpairs⟩ := hkept₁.tables.writeMemoryItem hf₁
            { e.value with status := .deallocated, deallocTrace := s.captured env }
          cases hwrite.symm.trans hperform
          cases hret
          have htables : Tables { s₁ with memoryItems := m' } :=
            ⟨hlinked, hkept₁.tables.stackItems, hkept₁.tables.keys⟩
          refine ⟨⟨htables, hkept₁.flag⟩, ⟨?_, rfl, rfl⟩⟩
          exact congrArg bookkeeping (abs_setMemoryItem hpairs).symm
        · simp only [if_pos hty] at hrest
          simp only [Except.map, if_pos hty]
          obtain ⟨hkept, hmirrors⟩ := report_mirrors hkept₁.tables rfl (by simp) hrest
          rw [hkept₁.handlerTrace] at hmirrors
          exact ⟨⟨hkept.tables, hkept.flag.trans hkept₁.flag⟩, hmirrors⟩
    · rw [if_pos hst] at hrest ⊢
      obtain ⟨hkept, hmirrors⟩ := report_mirrors hc rfl (by simp) hrest
      exact ⟨hkeep hkept, hmirrors⟩

/-- The registration of a new block; the raw blocks are not kept. -/
theorem addNew_mirrors (h : Tables s) {ty : MemoryType} {r : Res} (a : Addr)
    (hmemory : ∀ a ∈ env.memoryItem, s.memoryItems.table.items a = none)
    (hstack : ∀ a ∈ env.stackItem, s.stackItems.table.items a = none)
    (hok : addNewAllocatedMemoryAndCleanOldEntry s env ty p = .ok r) :
    Kept s r.st ∧ Mirrors r.exported (Tracker.addNewAllocatedMemoryAndCleanOldEntry
      (s.abs.mallocn a) (env.abs s.handlerTrace) ty p) := by
  obtain ⟨hkept, hmirrors⟩ := addNewNoLock_mirrors (h.capture env)
    (fun t ht => captured_next ht) hmemory hstack hok
  refine ⟨⟨hkept.tables, hkept.flag⟩, ?_⟩
  obtain ⟨L, hL⟩ := Tracker.exists_mallocn s.abs a
  rw [hL]
  exact Mirrors.alike hmirrors Tracker.addNewAllocatedMemoryAndCleanOldEntry_withLive

/-- A call that registers nothing. -/
theorem nullOrThrow_mirrors {st : Tracker.State} (hst : bookkeeping st = s.abs) (bThrow : Bool)
    {events : List Event} {events' : List Tracker.Event}
    (hevents : events'.filter (fun e => !isNote e) = events.flatMap Event.abs) :
    Mirrors (nullOrThrow s bThrow events).exported (Tracker.nullOrThrow st bThrow events') :=
  ⟨hst, rfl, hevents⟩

theorem testOperatorAlloc_mirrors (h : Tables s) (hflag : s.bIsAllocingOrDeallocing = false)
    {count : ℕ} {ty : MemoryType} {bThrow : Bool} {r : Res}
    (hmemory : ∀ a ∈ env.memoryItem, s.memoryItems.table.items a = none)
    (hstack : ∀ a ∈ env.stackItem, s.stackItems.table.items a = none)
    (hok : testOperatorAlloc s env count ty bThrow = .ok r) :
    Kept s r.st ∧ Mirrors r.exported
      (Tracker.testOperatorAlloc s.abs (env.abs s.handlerTrace) count ty bThrow) := by
  have hnot : ¬ s.bIsAllocingOrDeallocing = true := by simp [hflag]
  unfold testOperatorAlloc at hok
  unfold Tracker.testOperatorAlloc
  rw [if_neg hnot] at hok
  rw [if_neg (show ¬ s.abs.bIsAllocingOrDeallocing = true from hnot)]
  have hraw : (env.abs s.handlerTrace).raw = env.raw := rfl
  rw [hraw]
  by_cases hcount : count = 0
  · rw [if_pos hcount] at hok ⊢
    cases hok
    exact ⟨⟨h, rfl⟩, nullOrThrow_mirrors rfl bThrow rfl⟩
  rw [if_neg hcount] at hok ⊢
  by_cases hzero : env.raw = 0
  · rw [if_pos hzero] at hok ⊢
    cases hok
    exact ⟨⟨h, rfl⟩, nullOrThrow_mirrors rfl bThrow rfl⟩
  · rw [if_neg hzero] at hok ⊢
    obtain ⟨r', hadd, hret⟩ := bind_eq_ok hok
    obtain ⟨hkept, hst, hout, hevents⟩ := addNew_mirrors h env.raw hmemory hstack hadd
    cases hret
    exact ⟨hkept, ⟨hst, hout, congrArg (_ :: ·) hevents⟩⟩

theorem testOperatorCalloc_mirrors (h : Tables s) (hflag : s.bIsAllocingOrDeallocing = false)
    {env : ExportedEnv} {nmemb size : ℕ} {r : ExportedRes}
    (hmemory : ∀ a ∈ env.memoryItem, s.memoryItems.table.items a = none)
    (hstack : ∀ a ∈ env.stackItem, s.stackItems.table.items a = none)
    (hok : testOperatorCalloc s env nmemb size = .ok r) :
    Kept s r.st ∧ Mirrors r
      (Tracker.testOperatorCalloc s.abs (env.abs s.handlerTrace) nmemb size) := by
  have hnot : ¬ s.bIsAllocingOrDeallocing = true := by simp [hflag]
  unfold testOperatorCalloc at hok
  unfold Tracker.testOperatorCalloc
  rw [if_neg hnot] at hok
  rw [if_neg (show ¬ s.abs.bIsAllocingOrDeallocing = true from hnot)]
  have hraw : (env.abs s.handlerTrace).raw = env.raw := rfl
  rw [hraw]
  by_cases hcount : nmemb * size % Tracker.sizeModulus = 0
  · rw [if_pos hcount] at hok ⊢
    cases hok
    exact ⟨⟨h, rfl⟩, nullOrThrow_mirrors rfl false rfl⟩
  rw [if_neg hcount] at hok ⊢
  by_cases hzero : env.raw = 0
  · rw [if_pos hzero] at hok ⊢
    cases hok
    exact ⟨⟨h, rfl⟩, ⟨rfl, rfl, rfl⟩⟩
  · rw [if_neg hzero] at hok ⊢
    obtain ⟨r', hadd, hret⟩ := bind_eq_ok hok
    obtain ⟨hkept, hst, hout, hevents⟩ := addNew_mirrors h env.raw hmemory hstack hadd
    cases hret
    exact ⟨hkept, ⟨hst, hout, congrArg (_ :: ·) hevents⟩⟩

theorem testOperatorNewAligned_mirrors (h : Tables s) (hflag : s.bIsAllocingOrDeallocing = false)
    {env : ExportedEnv} {count : ℕ} {ty : MemoryType} {bThrow : Bool} {align : ℕ} {r : ExportedRes}
    (hmemory : ∀ a ∈ env.memoryItem, s.memoryItems.table.items a = none)
    (hstack : ∀ a ∈ env.stackItem, s.stackItems.table.items a = none)
    (hok : testOperatorNewAligned s env count ty bThrow align = .ok r) :
    Kept s r.st ∧ Mirrors r
      (Tracker.testOperatorNewAligned s.abs (env.abs s.handlerTrace) count ty bThrow align) := by
  have hnot : ¬ s.bIsAllocingOrDeallocing = true := by simp [hflag]
  unfold testOperatorNewAligned at hok
  unfold Tracker.testOperatorNewAligned
  rw [if_neg hnot] at hok
  rw [if_neg (show ¬ s.abs.bIsAllocingOrDeallocing = true from hnot)]
  have hraw : (env.abs s.handlerTrace).raw = env.raw := rfl
  rw [hraw]
  by_cases hcount : count = 0
  · rw [if_pos hcount] at hok ⊢
    cases hok
    exact ⟨⟨h, rfl⟩, nullOrThrow_mirrors rfl bThrow rfl⟩
  rw [if_neg hcount] at hok ⊢
  dsimp only at hok ⊢
  by_cases hzero : env.raw = 0
  · rw [if_pos hzero] at hok ⊢
    cases hok
    exact ⟨⟨h, rfl⟩, nullOrThrow_mirrors rfl bThrow rfl⟩
  rw [if_neg hzero] at hok ⊢
  cases hal : Tracker.stdAlign (Tracker.effectiveAlign align) count env.raw
      ((count + Tracker.effectiveAlign align + Tracker.sizeofVoidPtr) % Tracker.sizeModulus) with
  | none =>
    simp only [hal] at hok ⊢
    cases hok
    obtain ⟨L, hL⟩ := Tracker.exists_mallocn s.abs env.raw
    rw [hL]
    exact ⟨⟨h, rfl⟩, nullOrThrow_mirrors rfl bThrow rfl⟩
  | some q =>
    simp only [hal] at hok ⊢
    obtain ⟨r', hadd, hret⟩ := bind_eq_ok hok
    obtain ⟨hkept, hst, hout, hevents⟩ := addNew_mirrors h env.raw hmemory hstack hadd
    cases hret
    refine ⟨hkept, ⟨hst, ?_, congrArg (_ :: ·) hevents⟩⟩
    have hout' : (Tracker.addNewAllocatedMemoryAndCleanOldEntry (s.abs.mallocn env.raw)
      (env.abs s.handlerTrace) ty env.raw).out = r'.out := hout
    dsimp only
    rw [hout']
    cases r'.out with
    | returns a => rfl
    | throwsBadAlloc => rfl
    | processEnds => rfl

/-! ## What a call takes out -/

theorem takesOut_delete {env : ExportedEnv} {ty : MemoryType} {e : Entry Addr SMemoryItem}
    (hf : s.memoryItems.lookup p = some e) (hp : p ≠ 0) (hst : e.value.status = .allocated) :
    s.takesOut env (.plain (.delete p ty)) = some e.value.allocTrace := by
  show (s.memoryItems.lookup p).bind _ = _
  rw [hf]
  exact if_pos ⟨hp, hst⟩

theorem takesOut_reAlloc {env : ExportedEnv} {n : ℕ} {e : Entry Addr SMemoryItem}
    (hf : s.memoryItems.lookup p = some e) (hp : p ≠ 0) (hst : e.value.status = .allocated)
    (hends : n = 0 ∨ e.value.type = .malloc ∧ env.raw ≠ p) :
    s.takesOut env (.plain (.reAlloc p n)) = some e.value.allocTrace := by
  show (s.memoryItems.lookup p).bind _ = _
  rw [hf]
  exact if_pos ⟨hp, hst, hends⟩

theorem takesOut_null {env : ExportedEnv} {n : ℕ} :
    s.takesOut env (.plain (.reAlloc 0 n)) = none := by
  simp [State.takesOut]

theorem itemsAtRegistration_of_none {env : ExportedEnv} {c : Tracker.ExportedCall}
    (htakes : s.takesOut env c = none) : s.itemsAtRegistration env c = s.stackItems := by
  unfold State.itemsAtRegistration
  rw [htakes]

theorem itemsAtRegistration_of_takesOut {env : ExportedEnv} {c : Tracker.ExportedCall}
    (htakes : s.takesOut env c = some bt)
    (hremove : removeCorrespondingTrace (s.capture env.toEnv) bt = .ok (.ok s₁)) :
    s.itemsAtRegistration env c = s₁.stackItems := by
  have hremove' : removeCorrespondingTrace (s.withStack env.toEnv) bt = .ok (.ok s₁) := hremove
  unfold State.itemsAtRegistration
  simp only [htakes, hremove']

/-! ## Reallocation -/

theorem reAllocUntracked_mirrors (h : Tables s) {env : ExportedEnv} {n : ℕ} {r : ExportedRes}
    (hok : reAllocUntracked s env p n bt = .ok r) :
    Kept s r.st ∧ Mirrors r
      (Tracker.reAllocUntracked s.abs (env.abs s.handlerTrace) p n bt) := by
  unfold reAllocUntracked at hok
  unfold Tracker.reAllocUntracked
  have hinitial : (env.abs s.handlerTrace).initialRealloc = env.initialRealloc := rfl
  rw [hinitial]
  cases hi : env.initialRealloc with
  | some q =>
    simp only [hi] at hok ⊢
    cases hok
    exact ⟨⟨h, rfl⟩, ⟨rfl, rfl, rfl⟩⟩
  | none =>
    simp only [hi] at hok ⊢
    obtain ⟨traces, hfree, hret⟩ := bind_eq_ok hok
    have htrace : ((env.abs s.handlerTrace).handlerMemory.getD .default).deallocTrace =
        if env.handlerMemory then s.handlerTrace else none := by
      unfold ExportedEnv.abs Env.abs
      dsimp only
      split_ifs
      · rfl
      · rfl
    cases freeBacktraceData_eq hfree
    cases hret
    rw [htrace]
    set freed := Tracker.freeBacktraceData s.abs.traces
      (if env.handlerMemory then s.handlerTrace else none) with hfreed
    obtain ⟨L, hL⟩ := Tracker.exists_reallocn { s.abs with traces := freed } p
      (env.abs s.handlerTrace).raw
    rw [hL]
    exact ⟨⟨h.congr rfl rfl (by simp) (by simp), rfl⟩, ⟨rfl, rfl, rfl⟩⟩

/-- A write through an iterator allocates no item. -/
theorem setSecond_items {m m' : Session Addr SMemoryItem} {a iter : ℕ}
    (hok : perform m (.setSecond iter item) = .ok m') (ha : m.table.items a = none) :
    m'.table.items a = none := by
  have hstep : m' = HashItems.step m (.setSecond iter item) := by
    unfold perform at hok
    split at hok
    · cases hok
      rfl
    · cases hok
  rw [hstep]
  unfold HashItems.step Table.assign
  cases hi : m.table.items iter with
  | none => simpa [hi] using ha
  | some i =>
    have hne : a ≠ iter := by
      rintro rfl
      cases ha.symm.trans hi
    simpa [hi, hne] using ha

/-- A record is written, and a block is registered. -/
theorem written_mirrors (h : Tables s) {ty : MemoryType} {q : Addr} {e : Entry Addr SMemoryItem}
    (hf : s.memoryItems.lookup p = some e) {m : Session Addr SMemoryItem} {r : Res}
    (hbt : ∀ t, bt = some t → t < s.traces.next)
    (hmemory : ∀ a ∈ env.memoryItem, s.memoryItems.table.items a = none)
    (hstack : ∀ a ∈ env.stackItem, s.stackItems.table.items a = none)
    (hperform : perform s.memoryItems (.setSecond e.iterator item) = .ok m)
    (hok : addNewAllocatedMemoryAndCleanOldEntryNoLock { s with memoryItems := m } env ty q bt =
      .ok r) :
    Kept s r.st ∧ Mirrors r.exported (Tracker.addNewAllocatedMemoryAndCleanOldEntryNoLock
      (s.abs.setMemoryItem p item) (env.abs s.handlerTrace) ty q bt) := by
  obtain ⟨m', hwrite, hlinked, hpairs⟩ := h.writeMemoryItem hf item
  cases hwrite.symm.trans hperform
  have htables : Tables { s with memoryItems := m } := ⟨hlinked, h.stackItems, h.keys⟩
  have hmemory' : ∀ a ∈ env.memoryItem, m.table.items a = none :=
    fun a ha => setSecond_items hperform (hmemory a ha)
  obtain ⟨hkept, hmirrors⟩ := addNewNoLock_mirrors htables hbt hmemory' hstack hok
  rw [abs_setMemoryItem hpairs] at hmirrors
  exact ⟨⟨hkept.tables, hkept.flag⟩, hmirrors⟩

/-- A realloc of a block to a positive size. -/
theorem move_mirrors (h : Tables s) (hrun : s.process = .running)
    (hflag : s.bIsAllocingOrDeallocing = false) {env : ExportedEnv} (hp : p ≠ 0) {n : ℕ}
    (hn : n ≠ 0) {r : ExportedRes} (hC : Sensible s (.plain (.reAlloc p n), env))
    (hok : testOperatorReAlloc s env p n = .ok r) :
    Kept s r.st ∧ Mirrors r
      (Tracker.testOperatorReAlloc s.abs (env.abs s.handlerTrace) p n) := by
  have ho : s.abs.Outermost := ⟨hrun, hflag⟩
  have hc := h.capture env.toEnv
  obtain ⟨hcap, hcaptured⟩ := abs_capture (s := s) env.toEnv
    (show (env.abs s.handlerTrace).stack = env.stack from rfl)
  unfold testOperatorReAlloc at hok
  rw [if_neg (by simp [hflag]), if_neg hp, if_neg hn] at hok
  rw [Tracker.testOperatorReAlloc_body _ ho hp hn, ← hcap, ← hcaptured, abs_findMemoryItem]
  have hraw : (env.abs s.handlerTrace).raw = env.raw := rfl
  rw [hraw]
  obtain ⟨found, hfound, hrest⟩ := bind_eq_ok hok
  cases hc.findMemoryItem.symm.trans hfound
  have hkeep : ∀ {s' : State}, Kept (s.capture env.toEnv) s' → Kept s s' :=
    fun hk => ⟨hk.tables, hk.flag⟩
  cases hf : (s.capture env.toEnv).memoryItems.lookup p with
  | none =>
    simp only [hf, Option.map_none] at hrest ⊢
    obtain ⟨hkept, hmirrors⟩ := reAllocUntracked_mirrors hc hrest
    exact ⟨hkeep hkept, hmirrors⟩
  | some e =>
    simp only [hf, Option.map_some] at hrest ⊢
    obtain ⟨item, hread, hrest⟩ := bind_eq_ok hrest
    cases (hc.second_memoryItem hf).symm.trans hread
    by_cases hty : e.value.type = .malloc
    · rw [if_neg (not_not_intro hty)] at hrest ⊢
      by_cases hst : e.value.status = .allocated
      · rw [if_neg (not_not_intro hst)] at hrest ⊢
        by_cases hkept : env.raw = p
        · rw [if_pos hkept] at hrest ⊢
          obtain ⟨traces, hfree, hret⟩ := bind_eq_ok hrest
          cases freeBacktraceData_eq hfree
          cases hret
          obtain ⟨L, hL⟩ := Tracker.exists_reallocn (s.capture env.toEnv).abs e.value.realAddress
            env.raw
          rw [hL]
          have hfreed : Tables { s.capture env.toEnv with
              traces := Tracker.freeBacktraceData (s.capture env.toEnv).traces
                (s.captured env.toEnv) } := hc.congr rfl rfl (by simp) (by simp)
          exact ⟨⟨hfreed, rfl⟩, ⟨rfl, rfl, rfl⟩⟩
        · rw [if_neg hkept] at hrest ⊢
          have htakes : s.takesOut env (.plain (.reAlloc p n)) = some e.value.allocTrace :=
            takesOut_reAlloc hf hp hst (Or.inr ⟨hty, hkept⟩)
          obtain ⟨L, hL⟩ := Tracker.exists_reallocn (s.capture env.toEnv).abs e.value.realAddress
            env.raw
          obtain ⟨o, hremove, hrest⟩ := bind_eq_ok hrest
          obtain ⟨habs, hnext⟩ := removeCorrespondingTrace_mirrors hc (hC.removes _ htakes) hremove
          rw [hL, Tracker.removeCorrespondingTrace_withLive, ← habs]
          cases o with
          | error pr =>
            cases hrest
            exact ⟨⟨hc.congr rfl rfl (Nat.le_refl _) fun _ _ => rfl, rfl⟩, ⟨rfl, rfl, rfl⟩⟩
          | ok s₁ =>
            obtain ⟨m', hperform, hrest⟩ := bind_eq_ok hrest
            obtain ⟨r', hadd, hret⟩ := bind_eq_ok hrest
            have hkept₁ := hnext s₁ rfl
            have hregistration : s.itemsAtRegistration env (.plain (.reAlloc p n)) =
                s₁.stackItems := itemsAtRegistration_of_takesOut htakes hremove
            have hbt : ∀ t, s.captured env.toEnv = some t → t < s₁.traces.next := by
              rw [hkept₁.traces]
              exact fun t ht => captured_next ht
            obtain ⟨hkept₂, hmirrors⟩ := written_mirrors hkept₁.tables (hkept₁.memoryItems ▸ hf)
              hbt (hkept₁.memoryItems ▸ hC.memoryItem) (hregistration ▸ hC.stackItem) hperform hadd
            rw [hkept₁.handlerTrace] at hmirrors
            obtain ⟨hst₂, hout₂, hevents₂⟩ := hmirrors.alike
              (Tracker.addNewAllocatedMemoryAndCleanOldEntryNoLock_withLive (L := L))
            cases hret
            exact ⟨⟨hkept₂.tables, hkept₂.flag.trans hkept₁.flag⟩,
              ⟨hst₂, hout₂, congrArg (_ :: ·) hevents₂⟩⟩
      · rw [if_pos hst] at hrest ⊢
        obtain ⟨hkept, hmirrors⟩ := reportBadRealloc_mirrors hc rfl hrest
        exact ⟨hkeep hkept, hmirrors⟩
    · rw [if_pos hty] at hrest ⊢
      obtain ⟨hkept, hmirrors⟩ := reportBadRealloc_mirrors hc rfl hrest
      exact ⟨hkeep hkept, hmirrors⟩

/-! ## Calls -/

theorem testOperatorReAlloc_mirrors (h : Tables s) (hrun : s.process = .running)
    (hflag : s.bIsAllocingOrDeallocing = false) {env : ExportedEnv} {n : ℕ} {r : ExportedRes}
    (hC : Sensible s (.plain (.reAlloc p n), env)) (hok : testOperatorReAlloc s env p n = .ok r) :
    Kept s r.st ∧ Mirrors r
      (Tracker.testOperatorReAlloc s.abs (env.abs s.handlerTrace) p n) := by
  have hnot : ¬ s.bIsAllocingOrDeallocing = true := by simp [hflag]
  by_cases hp : p = 0
  · subst hp
    have hstack := hC.stackItem
    rw [itemsAtRegistration_of_none takesOut_null] at hstack
    unfold testOperatorReAlloc at hok
    unfold Tracker.testOperatorReAlloc
    rw [if_neg hnot, if_pos rfl] at hok
    rw [if_neg (show ¬ s.abs.bIsAllocingOrDeallocing = true from hnot), if_pos rfl]
    obtain ⟨r', hr', rfl⟩ := map_eq_ok hok
    exact testOperatorAlloc_mirrors h hflag hC.memoryItem hstack hr'
  by_cases hn : n = 0
  · subst hn
    unfold testOperatorReAlloc at hok
    unfold Tracker.testOperatorReAlloc
    rw [if_neg hnot, if_neg hp, if_pos rfl] at hok
    rw [if_neg (show ¬ s.abs.bIsAllocingOrDeallocing = true from hnot), if_neg hp, if_pos rfl]
    obtain ⟨r', hr', rfl⟩ := map_eq_ok hok
    exact testOperatorDelete_mirrors h hrun hflag
      (fun e hf hp hst => hC.removes _ (takesOut_reAlloc hf hp hst (Or.inl rfl))) hr'
  · exact move_mirrors h hrun hflag hp hn hC hok

theorem exportedCall_mirrors (h : Tables s) (hrun : s.process = .running)
    (hflag : s.bIsAllocingOrDeallocing = false) {c : Tracker.ExportedCall} {env : ExportedEnv}
    {r : ExportedRes} (hC : Sensible s (c, env)) (hok : exportedCall s env c = .ok r) :
    Kept s r.st ∧ Mirrors r (Tracker.exportedCall s.abs (env.abs s.handlerTrace) c) := by
  cases c with
  | newAligned count ty bThrow align =>
    exact testOperatorNewAligned_mirrors h hflag hC.memoryItem hC.stackItem hok
  | plain c =>
    cases c with
    | alloc count ty bThrow =>
      obtain ⟨r', hr', rfl⟩ := map_eq_ok hok
      exact testOperatorAlloc_mirrors h hflag hC.memoryItem hC.stackItem hr'
    | calloc nmemb size =>
      exact testOperatorCalloc_mirrors h hflag hC.memoryItem hC.stackItem hok
    | reAlloc p n => exact testOperatorReAlloc_mirrors h hrun hflag hC hok
    | delete p ty =>
      obtain ⟨r', hr', rfl⟩ := map_eq_ok hok
      exact testOperatorDelete_mirrors h hrun hflag
        (fun e hf hp hst => hC.removes _ (takesOut_delete hf hp hst)) hr'
    | setMaxAllowedAllocInTheSameStack n =>
      cases hok
      exact ⟨⟨h.congr rfl rfl (Nat.le_refl _) fun _ _ => rfl, rfl⟩, ⟨rfl, rfl, rfl⟩⟩

/-! ## Runs -/

/-- A state of the tables outside all routines, and the tracker's state of it. -/
structure Mirrored (s : State) (T : Tracker.State) : Prop where
  tables : Tables s
  flag : s.bIsAllocingOrDeallocing = false
  books : bookkeeping T = s.abs

theorem Mirrored.init (ndebug : Bool) : Mirrored (.init ndebug) (trackerInit ndebug) :=
  ⟨(Tidy.init ndebug).tables, rfl, rfl⟩

variable {T : Tracker.State} {c : Tracker.ExportedCall × ExportedEnv}

theorem Mirrored.process (h : Mirrored s T) : T.process = s.process :=
  congrArg Tracker.State.process h.books

/-- The tracker's state may have other raw blocks than the tables know of. -/
theorem Mirrored.call (h : Mirrored s T) (hrun : s.process = .running) {r : ExportedRes}
    (hC : Sensible s c) (hok : exportedCall s c.2 c.1 = .ok r) :
    Mirrored r.st (Tracker.exportedCall T (c.2.abs s.handlerTrace) c.1).st ∧
      Mirrors r (Tracker.exportedCall T (c.2.abs s.handlerTrace) c.1) := by
  obtain ⟨hkept, hmirrors⟩ := exportedCall_mirrors h.tables hrun h.flag hC hok
  have hT : T = s.abs.withLive T.live := by
    rw [← h.books]
    rfl
  have hmirrors' : Mirrors r (Tracker.exportedCall T (c.2.abs s.handlerTrace) c.1) := by
    rw [hT]
    exact hmirrors.alike (Tracker.exportedCall_withLive ⟨hrun, h.flag⟩ c.1)
  exact ⟨⟨hkept.tables, hkept.flag.trans h.flag, hmirrors'.st⟩, hmirrors'⟩

theorem Mirrored.step (h : Mirrored s T) (hC : Sensible s c)
    (hok : exportedStep (.ok s) c = .ok s₁) :
    Mirrored s₁ (Tracker.exportedStep T (c.1, c.2.abs s.handlerTrace)) := by
  unfold exportedStep at hok
  unfold Tracker.exportedStep
  rw [h.process]
  by_cases hrun : s.process = .running
  · simp only [if_pos hrun] at hok ⊢
    obtain ⟨r, hr, rfl⟩ := map_eq_ok hok
    exact (h.call hrun hC hr).1
  · simp only [if_neg hrun] at hok ⊢
    cases hok
    exact h

/-- By induction on the run, which met no misuse. -/
theorem Mirrored.run (h : Mirrored s T) {cs : List (Tracker.ExportedCall × ExportedEnv)}
    (hC : Runs.Along exportedStep SensibleStep (.ok s) cs)
    (hok : Runs.final exportedStep (.ok s) cs = .ok s₁) :
    Mirrored s₁ (Runs.final Tracker.exportedStep T (mirrored (.ok s) cs)) := by
  induction cs generalizing s T with
  | nil =>
    cases hok
    exact h
  | cons c cs ih =>
    obtain ⟨hc, hcs⟩ := hC
    obtain ⟨s₂, hstep, hrest⟩ := Fallible.final_cons_eq_ok (fun _ _ => rfl) hok
    have hmirrored : mirrored (.ok s) (c :: cs) =
        (c.1, c.2.abs s.handlerTrace) :: mirrored (.ok s₂) cs := by
      rw [mirrored, hstep]
    rw [hstep] at hcs
    rw [hmirrored, Runs.final_cons]
    exact ih (h.step (hc s rfl) hstep) hcs hrest

/-- The hash tables with their buckets, links and hashed stacks do what the tracker does with its
entry lists: after every run that used nothing that was freed, a call that uses nothing that was
freed has the outcome, the raw requests, the reports and the tables of the tracker. -/
theorem tables_refine_tracker {ndebug : Bool} {cs : List (Tracker.ExportedCall × ExportedEnv)}
    {r : ExportedRes} (hC : Runs.Along exportedStep SensibleStep (.ok (.init ndebug)) cs)
    (hs : Runs.final exportedStep (.ok (.init ndebug)) cs = .ok s) (hrun : s.process = .running)
    (hc : Sensible s c) (hr : exportedCall s c.2 c.1 = .ok r) :
    Mirrors r (Tracker.exportedCall (Runs.final Tracker.exportedStep (trackerInit ndebug)
      (mirrored (.ok (.init ndebug)) cs)) (c.2.abs s.handlerTrace) c.1) :=
  (((Mirrored.init ndebug).run hC hs).call hrun hc hr).2

/-- Three blocks, one of which is moved and one released, and a realloc of the released one. -/
def movedRun : List (Tracker.ExportedCall × ExportedEnv) :=
  [(.plain (.alloc 8 .malloc false), ⟨.granting 16 [7] 1 1, none⟩),
    (.newAligned 8 .new true 64, ⟨.granting 32 [7] 2 2, none⟩),
    (.plain (.calloc 2 8), ⟨.granting 48 [9] 3 3, none⟩),
    (.plain (.reAlloc 16 64), ⟨.granting 80 [8] 4 4, none⟩),
    (.plain (.delete 48 .malloc), ⟨.granting 0 [8] 5 5, none⟩)]

theorem tables_refine_tracker_movedRun : ∃ s r,
    Runs.final exportedStep (.ok (.init false)) movedRun = .ok s ∧
    exportedCall s ⟨.granting 96 [8] 5 5, none⟩ (.plain (.reAlloc 48 16)) = .ok r ∧
    Mirrors r (Tracker.exportedCall (Runs.final Tracker.exportedStep (trackerInit false)
      (mirrored (.ok (.init false)) movedRun))
      (ExportedEnv.abs ⟨.granting 96 [8] 5 5, none⟩ s.handlerTrace) (.plain (.reAlloc 48 16))) := by
  have hC : Runs.Along exportedStep SensibleStep (.ok (.init false)) movedRun := by decide
  have hrun : ∀ s ∈ (Runs.final exportedStep (.ok (.init false)) movedRun).toOption,
      s.process = .running := by decide
  have hc : SensibleStep (Runs.final exportedStep (.ok (.init false)) movedRun)
      (.plain (.reAlloc 48 16), ⟨.granting 96 [8] 5 5, none⟩) := by decide
  have hok : ((Runs.final exportedStep (.ok (.init false)) movedRun >>= fun s =>
      exportedCall s ⟨.granting 96 [8] 5 5, none⟩ (.plain (.reAlloc 48 16))).toOption).isSome := by
    decide
  obtain ⟨r, hr⟩ := Option.isSome_iff_exists.mp hok
  obtain ⟨s, hs, hcall⟩ := bind_eq_ok (toOption_eq_some hr)
  rw [hs] at hrun hc
  exact ⟨s, r, hs, hcall, tables_refine_tracker hC hs (hrun s rfl) (hc s rfl) hcall⟩

end CrashInvestigator.Lifetime
