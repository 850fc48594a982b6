import CrashInvestigator.Library.Fallible
import CrashInvestigator.Lifetime.Exported
import CrashInvestigator.Lifetime.Proofs.CallProofs
import CrashInvestigator.Tracker.Proofs.RawBlockProofs

/-!
# What the parts of the routines do over the real tables

A part that uses nothing that was freed does what the tracker does with its entry lists. Nothing is
assumed about who owns the captured stacks: a run may free one that is still in use, and mirrors the
tracker until that is noticed.
-/

namespace CrashInvestigator.Lifetime

open Library HashItems
open Library.Fallible (bind_eq_ok)
open Tracker (Addr Backtrace BacktracePtr FailureType MemoryType Process SMemoryItem TraceHeap
  initBacktraceDataForCurrentStack isTheSameStack)
open Reentry (bookkeeping)

variable {s s₁ : State} {env : Env} {p : Addr} {t : ℕ} {bt : BacktracePtr} {item : SMemoryItem}

/-! ## What ended well -/

theorem freeBacktraceData_eq {h h' : TraceHeap} (hok : freeBacktraceData h bt = .ok h') :
    h' = Tracker.freeBacktraceData h bt := by
  cases bt with
  | none =>
    cases hok
    rfl
  | some t =>
    simp only [freeBacktraceData] at hok
    split_ifs at hok
    cases hok
    rfl

theorem readBacktrace_eq {h : TraceHeap} {k : StackKey} (hok : readBacktrace h t = .ok k) :
    k = ⟨t, h.data t⟩ := by
  unfold readBacktrace at hok
  split_ifs at hok
  cases hok
  rfl

/-- By induction on the fuel: the walk visits the items that the walk without checks visits. -/
theorem walkStackItems_ok {h : TraceHeap} {tbl : Table StackKey ℕ} {a_key : StackKey} {fuel : ℕ}
    {pItem o : Option ℕ} (hok : walkStackItems h tbl a_key fuel pItem = .ok o) :
    tbl.walk a_key fuel pItem = .ok o := by
  induction fuel generalizing pItem with
  | zero => cases hok
  | succ fuel ih =>
    cases pItem with
    | none =>
      cases hok
      rfl
    | some a =>
      unfold walkStackItems at hok
      unfold Table.walk
      cases hitem : tbl.items a with
      | none =>
        simp only [hitem] at hok
        cases hok
      | some i =>
        simp only [hitem] at hok ⊢
        obtain ⟨k, -, hrest⟩ := bind_eq_ok hok
        by_cases hkey : (i.first == a_key) = true
        · rw [if_pos hkey] at hrest
          rw [if_pos hkey]
          cases hrest
          rfl
        · rw [if_neg hkey] at hrest
          rw [if_neg hkey]
          exact ih hrest

theorem Tables.findStackItem_eq (h : Tables s) {r : Option ℕ × StackKey}
    (hok : s.findStackItem t = .ok r) :
    r = ((s.stackItems.lookup (s.stackKey t)).map Entry.iterator, s.stackKey t) := by
  obtain ⟨a_key, hread, hrest⟩ := bind_eq_ok hok
  obtain ⟨iter, hwalk, hret⟩ := bind_eq_ok hrest
  cases readBacktrace_eq hread
  have hfind := h.stackItems.refinesMap.finds (s.stackKey t) (s.stackItems.entries.length + 1)
    (Nat.lt_succ_self _)
  unfold Table.findEntry Table.findEntryRaw at hfind
  rw [walkStackItems_ok hwalk] at hfind
  cases hret
  cases hfind
  rfl

/-- What every part of a call leaves as it was. -/
structure Kept (s s₁ : State) : Prop where
  tables : Tables s₁
  flag : s₁.bIsAllocingOrDeallocing = s.bIsAllocingOrDeallocing

theorem Kept.trans {s₂ : State} (h : Kept s s₁) (h' : Kept s₁ s₂) : Kept s s₂ :=
  ⟨h'.tables, h'.flag.trans h.flag⟩

/-! ## Reports -/

theorem report_mirrors (h : Tables s) {freeType : MemoryType} {kind : FailureType} {r : Res}
    (hkind : kind.actionIsRealloc = false) (hne : kind ≠ .unknown)
    (hok : initFailureDataAndCallClbk s env item freeType p kind bt = .ok r) :
    Kept s r.st ∧ Mirrors r.exported (Tracker.initFailureDataAndCallClbk s.abs
      (env.abs s.handlerTrace) item freeType p 0 kind bt) := by
  obtain ⟨-, -, hrest⟩ := bind_eq_ok hok
  rw [Tracker.initFailure_eq _ _ _ _ _ _ _ _ hne]
  set data := Tracker.failureData s.abs (env.abs s.handlerTrace) item freeType p 0 kind bt
    with hdata
  have hclbk : (env.abs s.handlerTrace).clbkFnc = env.clbkFnc := rfl
  simp only [hclbk, hkind]
  have hfreed : Tables { s with traces := Tracker.freeBacktraceData s.traces bt } :=
    h.congr rfl rfl (by simp) (by simp)
  cases hans : env.clbkFnc data with
  | makeAction =>
    simp only [hans] at hrest
    obtain ⟨traces, hfree, hret⟩ := bind_eq_ok hrest
    cases freeBacktraceData_eq hfree
    cases hret
    exact ⟨⟨hfreed, rfl⟩, ⟨rfl, rfl, rfl⟩⟩
  | doNotMakeActionToPreventCrash =>
    simp only [hans] at hrest
    obtain ⟨traces, hfree, hret⟩ := bind_eq_ok hrest
    cases freeBacktraceData_eq hfree
    cases hret
    exact ⟨⟨hfreed, rfl⟩, ⟨rfl, rfl, rfl⟩⟩
  | unknown =>
    simp only [hans] at hrest
    cases hrest
    exact ⟨⟨h.congr rfl rfl (Nat.le_refl _) fun _ _ => rfl, rfl⟩, ⟨rfl, rfl, rfl⟩⟩
  | exitApp =>
    simp only [hans] at hrest
    cases hrest
    exact ⟨⟨h.congr rfl rfl (Nat.le_refl _) fun _ _ => rfl, rfl⟩, ⟨rfl, rfl, rfl⟩⟩

theorem reportBadRealloc_mirrors (h : Tables s) {env : ExportedEnv} {n : ℕ} {kind : FailureType}
    {r : ExportedRes} (hkind : kind.actionIsRealloc = true)
    (hok : reportBadRealloc s env item p n kind bt = .ok r) :
    Kept s r.st ∧ Mirrors r (Tracker.initFailureDataAndCallClbk s.abs (env.abs s.handlerTrace)
      item .notProvided p n kind bt) := by
  have hne : kind ≠ .unknown := by
    rintro rfl
    cases hkind
  obtain ⟨-, -, hrest⟩ := bind_eq_ok hok
  rw [Tracker.initFailure_eq _ _ _ _ _ _ _ _ hne]
  set data := Tracker.failureData s.abs (env.abs s.handlerTrace) item .notProvided p n kind bt
    with hdata
  have hclbk : (env.abs s.handlerTrace).clbkFnc = env.clbkFnc := rfl
  simp only [hclbk, hkind]
  have hfreed : Tables { s with traces := Tracker.freeBacktraceData s.traces bt } :=
    h.congr rfl rfl (by simp) (by simp)
  cases hans : env.clbkFnc data with
  | makeAction =>
    simp only [hans] at hrest
    obtain ⟨traces, hfree, hret⟩ := bind_eq_ok hrest
    cases freeBacktraceData_eq hfree
    cases hret
    obtain ⟨L, hL⟩ := Tracker.exists_reallocn s.abs p (env.abs s.handlerTrace).raw
    refine ⟨⟨hfreed, rfl⟩, ⟨?_, rfl, rfl⟩⟩
    rw [hL]
    rfl
  | doNotMakeActionToPreventCrash =>
    simp only [hans] at hrest
    obtain ⟨traces, hfree, hret⟩ := bind_eq_ok hrest
    cases freeBacktraceData_eq hfree
    cases hret
    exact ⟨⟨hfreed, rfl⟩, ⟨rfl, rfl, rfl⟩⟩
  | unknown =>
    simp only [hans] at hrest
    cases hrest
    exact ⟨⟨h.congr rfl rfl (Nat.le_refl _) fun _ _ => rfl, rfl⟩, ⟨rfl, rfl, rfl⟩⟩
  | exitApp =>
    simp only [hans] at hrest
    cases hrest
    exact ⟨⟨h.congr rfl rfl (Nat.le_refl _) fun _ _ => rfl, rfl⟩, ⟨rfl, rfl, rfl⟩⟩

/-! ## Registration -/

/-- What a leak report leaves of the call. -/
theorem Mirrors.goesOn {r : Res} {r' : Tracker.Res} (h : Mirrors r.exported r') :
    Mirrors (Res.exported (if r.st.process = .running then ⟨r.st, .returns p, r.events⟩ else r))
      (if r'.st.process = .running then ⟨r'.st, .returns p, r'.events⟩ else r') := by
  have hprocess : r'.st.process = r.st.process := congrArg Tracker.State.process h.st
  rw [hprocess]
  split_ifs
  · exact ⟨h.st, rfl, h.events⟩
  · exact h

/-- The raw blocks do not matter. -/
theorem Mirrors.alike {r : ExportedRes} {r' r'' : Tracker.Res} (h : Mirrors r r')
    (halike : r'.Alike r'') : Mirrors r r'' := by
  obtain ⟨L, hst, hout, hevents⟩ := halike
  refine ⟨?_, hout.trans h.out, ?_⟩
  · rw [hst]
    exact h.st
  · rw [hevents]
    exact h.events

theorem registerMemoryItem_mirrors (h : Tables s) {o : Option State}
    (hfree : ∀ a ∈ env.memoryItem, s.memoryItems.table.items a = none)
    (hok : registerMemoryItem s env p item = .ok o) :
    o.map State.abs = Tracker.registerMemoryItem s.abs (env.abs s.handlerTrace) p item ∧
      ∀ s₁ ∈ o, Kept s s₁ ∧ s₁.handlerTrace = s.handlerTrace ∧ s₁.stackItems = s.stackItems ∧
        s₁.traces.next = s.traces.next := by
  unfold registerMemoryItem at hok
  unfold Tracker.registerMemoryItem
  rw [h.findMemoryItem] at hok
  rw [abs_findMemoryItem]
  obtain ⟨found, hfound, hrest⟩ := bind_eq_ok hok
  cases hfound
  cases hf : s.memoryItems.lookup p with
  | none =>
    simp only [hf, Option.map_none] at hrest
    cases hm : env.memoryItem with
    | none =>
      simp only [hm] at hrest
      cases hrest
      exact ⟨by simp [Env.abs, hm], nofun⟩
    | some a =>
      simp only [hm] at hrest
      obtain ⟨m, hinsert, hlinked, hpairs⟩ := h.insertMemoryItem hf item (hfree a hm)
      obtain ⟨m', hperform, hret⟩ := bind_eq_ok hrest
      cases hinsert.symm.trans hperform
      cases hret
      refine ⟨by simp [Env.abs, hm, abs_withMemoryItems, hpairs], ?_⟩
      rintro s₁ ⟨⟩
      exact ⟨⟨⟨hlinked, h.stackItems, h.keys⟩, rfl⟩, rfl, rfl, rfl⟩
  | some e =>
    simp only [hf, Option.map_some] at hrest
    obtain ⟨old, hread, hrest⟩ := bind_eq_ok hrest
    obtain ⟨freed, hfreed, hrest⟩ := bind_eq_ok hrest
    obtain ⟨freed', hfreed', hrest⟩ := bind_eq_ok hrest
    obtain ⟨m', hperform, hret⟩ := bind_eq_ok hrest
    obtain ⟨m, hwrite, hlinked, hpairs⟩ := h.writeMemoryItem hf item
    cases (h.second_memoryItem hf).symm.trans hread
    cases freeBacktraceData_eq hfreed
    cases freeBacktraceData_eq hfreed'
    cases hwrite.symm.trans hperform
    cases hret
    have htables : Tables { s with memoryItems := m' } := ⟨hlinked, h.stackItems, h.keys⟩
    refine ⟨?_, ?_⟩
    · show some { State.abs { s with memoryItems := m' } with
        traces := Tracker.freeBacktraceData
          (Tracker.freeBacktraceData s.traces e.value.deallocTrace) e.value.allocTrace } = _
      rw [abs_withMemoryItems, hpairs]
      rfl
    · rintro s₁ ⟨⟩
      exact ⟨⟨htables.congr rfl rfl (by simp) (by simp), rfl⟩, rfl, rfl, by simp⟩

theorem registerStackItem_mirrors (h : Tables s) {r : Res}
    (hbt : ∀ t, bt = some t → t < s.traces.next)
    (hfree : ∀ a ∈ env.stackItem, s.stackItems.table.items a = none)
    (hok : registerStackItem s env item p bt = .ok r) :
    Kept s r.st ∧ Mirrors r.exported
      (Tracker.registerStackItem s.abs (env.abs s.handlerTrace) item p bt) := by
  cases bt with
  | none =>
    cases hok
    exact ⟨⟨h.congr rfl rfl (Nat.le_refl _) fun _ _ => rfl, rfl⟩, ⟨rfl, rfl, rfl⟩⟩
  | some t =>
    obtain ⟨found, hfound, hrest⟩ := bind_eq_ok hok
    cases h.findStackItem_eq hfound
    unfold Tracker.registerStackItem
    simp only [h.abs_findStackItem]
    cases hf : s.stackItems.lookup (s.stackKey t) with
    | none =>
      simp only [hf, Option.map_none] at hrest ⊢
      cases hm : env.stackItem with
      | none =>
        simp only [hm] at hrest
        cases hrest
        have hnone : (env.abs s.handlerTrace).stackItem = false := by simp [Env.abs, hm]
        rw [hnone]
        exact ⟨⟨h, rfl⟩, ⟨rfl, rfl, rfl⟩⟩
      | some a =>
        simp only [hm] at hrest
        obtain ⟨m, hinsert, htables, habs⟩ := h.insertStackItem (hbt t rfl) hf (hfree a hm)
        obtain ⟨m', hperform, hret⟩ := bind_eq_ok hrest
        cases hinsert.symm.trans hperform
        cases hret
        have hsome : (env.abs s.handlerTrace).stackItem = true := by simp [Env.abs, hm]
        rw [hsome]
        refine ⟨⟨htables, rfl⟩, ⟨?_, rfl, rfl⟩⟩
        exact congrArg bookkeeping habs.symm
    | some k =>
      simp only [hf, Option.map_some] at hrest ⊢
      have hmax : s.abs.unMaxNumberOfAllocFromTheSameStack =
        s.unMaxNumberOfAllocFromTheSameStack := rfl
      simp only [hmax]
      by_cases hpos : 0 < s.unMaxNumberOfAllocFromTheSameStack
      · rw [if_pos hpos] at hrest ⊢
        obtain ⟨n, hread, hrest⟩ := bind_eq_ok hrest
        obtain ⟨m', hperform, hrest⟩ := bind_eq_ok hrest
        cases (h.second_stackItem hf).symm.trans hread
        obtain ⟨m, hwrite, htables, habs⟩ := h.writeStackItem hf (k.value + 1)
        cases hwrite.symm.trans hperform
        by_cases hleak : s.unMaxNumberOfAllocFromTheSameStack < k.value + 1
        · rw [if_pos hleak] at hrest ⊢
          obtain ⟨r', hreport, hret⟩ := bind_eq_ok hrest
          obtain ⟨hkept, hmirrors⟩ := report_mirrors htables rfl (by simp) hreport
          rw [habs] at hmirrors
          cases hret
          refine ⟨?_, ?_⟩
          · split_ifs
            · exact ⟨hkept.tables, hkept.flag⟩
            · exact ⟨hkept.tables, hkept.flag⟩
          · exact hmirrors.goesOn
        · rw [if_neg hleak] at hrest ⊢
          cases hrest
          exact ⟨⟨htables, rfl⟩, ⟨congrArg bookkeeping habs.symm, rfl, rfl⟩⟩
      · rw [if_neg hpos] at hrest ⊢
        cases hrest
        exact ⟨⟨h, rfl⟩, ⟨rfl, rfl, rfl⟩⟩

theorem addNewNoLock_mirrors (h : Tables s) {ty : MemoryType} {r : Res}
    (hbt : ∀ t, bt = some t → t < s.traces.next)
    (hmemory : ∀ a ∈ env.memoryItem, s.memoryItems.table.items a = none)
    (hstack : ∀ a ∈ env.stackItem, s.stackItems.table.items a = none)
    (hok : addNewAllocatedMemoryAndCleanOldEntryNoLock s env ty p bt = .ok r) :
    Kept s r.st ∧ Mirrors r.exported (Tracker.addNewAllocatedMemoryAndCleanOldEntryNoLock s.abs
      (env.abs s.handlerTrace) ty p bt) := by
  obtain ⟨o, hregister, hrest⟩ := bind_eq_ok hok
  obtain ⟨habs, hkept⟩ := registerMemoryItem_mirrors h hmemory hregister
  unfold Tracker.addNewAllocatedMemoryAndCleanOldEntryNoLock
  simp only [← habs]
  cases o with
  | none =>
    cases hrest
    exact ⟨⟨h, rfl⟩, ⟨rfl, rfl, rfl⟩⟩
  | some s₁ =>
    obtain ⟨hkept₁, hhandler, hstackItems, hnext⟩ := hkept s₁ rfl
    obtain ⟨hkept₂, hmirrors⟩ := registerStackItem_mirrors hkept₁.tables (hnext ▸ hbt)
      (hstackItems ▸ hstack) hrest
    rw [hhandler] at hmirrors
    exact ⟨hkept₁.trans hkept₂, hmirrors⟩

/-! ## Removal -/

/-- What the removal of a count leaves as it was. -/
structure Uncounted (s s₁ : State) : Prop where
  tables : Tables s₁
  memoryItems : s₁.memoryItems = s.memoryItems
  traces : s₁.traces = s.traces
  handlerTrace : s₁.handlerTrace = s.handlerTrace
  flag : s₁.bIsAllocingOrDeallocing = s.bIsAllocingOrDeallocing

theorem removeCorrespondingTrace_mirrors (h : Tables s) {o : Except Process State}
    (hC : s.RemovesCleanly bt) (hok : removeCorrespondingTrace s bt = .ok o) :
    o.map State.abs = Tracker.removeCorrespondingTrace s.abs bt ∧
      ∀ s₁, o = .ok s₁ → Uncounted s s₁ := by
  cases bt with
  | none =>
    cases hok
    exact ⟨rfl, nofun⟩
  | some t =>
    obtain ⟨found, hfound, hrest⟩ := bind_eq_ok hok
    cases h.findStackItem_eq hfound
    unfold Tracker.removeCorrespondingTrace
    simp only [h.abs_findStackItem]
    have hndebug : s.abs.ndebug = s.ndebug := rfl
    cases hf : s.stackItems.lookup (s.stackKey t) with
    | none =>
      simp only [hf, Option.map_none] at hrest ⊢
      cases hrest
      exact ⟨rfl, nofun⟩
    | some k =>
      simp only [hf, Option.map_some] at hrest ⊢
      obtain ⟨n, hread, hrest⟩ := bind_eq_ok hrest
      cases (h.second_stackItem hf).symm.trans hread
      obtain ⟨-, -, -, -, hsame⟩ := lookup_split hf
      have hremove : k.value = (if s.ndebug then 0 else 1) → _ := fun hlast =>
        h.removeStackItem hf (hC t rfl k (List.mem_of_find?_eq_some hf) hsame hlast)
      rw [hndebug]
      by_cases hnd : s.ndebug = true
      · rw [if_pos hnd] at hrest ⊢
        by_cases hzero : k.value = 0
        · rw [if_pos hzero] at hrest ⊢
          obtain ⟨m', hperform, hret⟩ := bind_eq_ok hrest
          obtain ⟨m, hremoved, htables, habs⟩ := hremove (by rw [if_pos hnd, hzero])
          cases hremoved.symm.trans hperform
          cases hret
          refine ⟨congrArg Except.ok habs, ?_⟩
          rintro s₁ ⟨⟩
          exact ⟨htables, rfl, rfl, rfl, rfl⟩
        · rw [if_neg hzero] at hrest ⊢
          cases hrest
          refine ⟨rfl, ?_⟩
          rintro s₁ ⟨⟩
          exact ⟨h, rfl, rfl, rfl, rfl⟩
      · rw [if_neg hnd] at hrest ⊢
        by_cases hzero : k.value = 0
        · rw [if_pos hzero] at hrest ⊢
          cases hrest
          exact ⟨rfl, nofun⟩
        · rw [if_neg hzero] at hrest ⊢
          by_cases hone : k.value - 1 = 0
          · rw [if_pos hone] at hrest ⊢
            obtain ⟨m', hperform, hret⟩ := bind_eq_ok hrest
            obtain ⟨m, hremoved, htables, habs⟩ := hremove (by rw [if_neg hnd]; omega)
            cases hremoved.symm.trans hperform
            cases hret
            refine ⟨congrArg Except.ok habs, ?_⟩
            rintro s₁ ⟨⟩
            exact ⟨htables, rfl, rfl, rfl, rfl⟩
          · rw [if_neg hone] at hrest ⊢
            obtain ⟨m', hperform, hret⟩ := bind_eq_ok hrest
            obtain ⟨m, hwrite, htables, habs⟩ := h.writeStackItem hf (k.value - 1)
            cases hwrite.symm.trans hperform
            cases hret
            refine ⟨congrArg Except.ok habs, ?_⟩
            rintro s₁ ⟨⟩
            exact ⟨htables, rfl, rfl, rfl, rfl⟩

end CrashInvestigator.Lifetime
