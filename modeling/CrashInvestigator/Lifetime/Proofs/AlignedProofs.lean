import CrashInvestigator.Lifetime.Aligned
import CrashInvestigator.Lifetime.Proofs.WorldProofs
import CrashInvestigator.Tracker.Proofs.AlignedProofs

/-!
# Aligned new and delete over the real tables

After a clean run the release of an aligned block gives its raw block back exactly when that block
happened to be aligned, its stack has a frame, its registration reported no leak and the item of its
stack, if it goes, can be removed.
-/

namespace CrashInvestigator.Lifetime

open Library HashItems Fallible
open Tracker (Addr MemoryType SMemoryItem)

variable {s : State} {env : Env} {p q : Addr} {t : ℕ} {ty : MemoryType}

/-! ## The removal of a stack -/

/-- The stack of `t` has a counter that can go down. -/
structure Countable (s : State) (t : ℕ) : Prop where
  alive : s.traces.frees t = 0
  counted : ∃ k, s.stackItems.lookup (s.stackKey t) = some k ∧ k.value ≠ 0 ∧
    (k.value = 1 → RemovesAlive s.stackItems k.iterator)

theorem perform_removeEntry_iff {m : Session StackKey ℕ} (h : HashItems.Sound m)
    {k : Entry StackKey ℕ} (hk : k ∈ m.entries) :
    (∃ m', perform m (.removeEntry (some k.iterator)) = .ok m') ↔ RemovesAlive m k.iterator := by
  rw [← h.removeEntry_ok_iff hk]
  unfold perform HashItems.step
  cases hr : m.table.removeEntry (some k.iterator) with
  | error f => simp [hr]
  | ok t => simp [hr, h.noFault]

theorem Intact.removal_ok_iff (h : Intact s) (hbuild : s.ndebug = false) :
    (∃ s₁, Lifetime.removeCorrespondingTrace s (some t) = .ok (.ok s₁)) ↔ Countable s t := by
  by_cases halive : s.traces.frees t = 0
  swap
  · refine iff_of_false ?_ fun hc => halive hc.alive
    rintro ⟨s₁, hok⟩
    simp [Lifetime.removeCorrespondingTrace, State.findStackItem, readBacktrace, halive, bind,
      Except.bind] at hok
  have hfind := h.tables.findStackItem h.keysAlive halive
  cases hf : s.stackItems.lookup (s.stackKey t) with
  | none =>
    refine iff_of_false ?_ ?_
    · rintro ⟨s₁, hok⟩
      simp [Lifetime.removeCorrespondingTrace, hfind, hf, bind, Except.bind] at hok
    · rintro ⟨-, k, hk, -⟩
      rw [hf] at hk
      cases hk
  | some k =>
    have hread := h.tables.second_stackItem hf
    have hmem : k ∈ s.stackItems.entries := List.mem_of_find?_eq_some hf
    have hcountable : Countable s t ↔
        k.value ≠ 0 ∧ (k.value = 1 → RemovesAlive s.stackItems k.iterator) := by
      constructor
      · rintro ⟨-, k', hk', hvalue⟩
        rw [hf] at hk'
        cases hk'
        exact hvalue
      · exact fun hvalue => ⟨halive, k, hf, hvalue⟩
    rw [hcountable]
    unfold Lifetime.removeCorrespondingTrace
    simp only [hfind, hf, hread, hbuild, bind, Except.bind, Option.map_some, Bool.false_eq_true,
      if_false]
    by_cases hzero : k.value = 0
    · simp [hzero]
    by_cases hone : k.value = 1
    · rw [if_neg hzero, if_pos (by omega), ← perform_removeEntry_iff h.tables.stackItems hmem]
      cases hperform : perform s.stackItems (.removeEntry (some k.iterator)) with
      | error f => simp [hone]
      | ok m => simp [hone]
    · obtain ⟨m, hok, -⟩ := h.tables.writeStackItem hf (k.value - 1)
      rw [if_neg hzero, if_neg (by omega), hok]
      simp [hzero, hone]

theorem removeCorrespondingTrace_same {s₁ : State}
    (h : Lifetime.removeCorrespondingTrace s (some t) = .ok (.ok s₁)) :
    s₁ = { s with stackItems := s₁.stackItems } := by
  unfold Lifetime.removeCorrespondingTrace at h
  obtain ⟨found, -, h⟩ := bind_eq_ok h
  cases hfound : found.1 with
  | none =>
    simp only [hfound] at h
    cases Except.ok.inj h
  | some iter =>
    simp only [hfound] at h
    obtain ⟨n, -, h⟩ := bind_eq_ok h
    split_ifs at h
    · obtain ⟨m, -, h⟩ := bind_eq_ok h
      cases h
      rfl
    · cases h
      rfl
    · cases h
    · obtain ⟨m, -, h⟩ := bind_eq_ok h
      cases h
      rfl
    · obtain ⟨m, -, h⟩ := bind_eq_ok h
      cases h
      rfl

/-! ## The release -/

theorem initFailure_reported {item : SMemoryItem} {kind : Tracker.FailureType}
    {bt : Tracker.BacktracePtr} {freeType : MemoryType} {r : Res}
    (h : initFailureDataAndCallClbk s env item freeType p kind bt = .ok r) :
    ∃ d a, Tracker.Event.clbkFnc d a ∈ r.exported.events := by
  unfold initFailureDataAndCallClbk at h
  obtain ⟨-, -, h⟩ := bind_eq_ok h
  dsimp only at h
  split at h
  · obtain ⟨traces, -, h⟩ := bind_eq_ok h
    cases h
    exact ⟨_, _, List.mem_cons_self ..⟩
  · obtain ⟨traces, -, h⟩ := bind_eq_ok h
    cases h
    exact ⟨_, _, List.mem_cons_self ..⟩
  · cases h
    exact ⟨_, _, List.mem_cons_self ..⟩

/-- A release that does nothing but give `q` back is that of a record of `q`. -/
theorem Intact.delete_freen (h : Intact s) {env : ExportedEnv} (hp : p ≠ 0) {r : ExportedRes}
    (hok : Lifetime.exportedCall s env (.plain (.delete p ty)) = .ok r)
    (hev : r.events = [.freen q]) :
    ∃ e s₁, s.memoryItems.lookup p = some e ∧ e.value.realAddress = q ∧
      Lifetime.removeCorrespondingTrace (s.capture env.toEnv) e.value.allocTrace = .ok (.ok s₁) := by
  obtain ⟨r', hr', rfl⟩ := map_eq_ok hok
  have hc := h.capture env.toEnv
  have hreported : ¬ ∃ d a, Tracker.Event.clbkFnc d a ∈ r'.exported.events := by
    rw [hev]
    simp
  rw [testOperatorDelete_eq h.flag hp ty] at hr'
  simp only [hc.tables.findMemoryItem, bind, Except.bind] at hr'
  have hsame : (s.capture env.toEnv).memoryItems = s.memoryItems := rfl
  rw [hsame] at hr'
  cases hf : s.memoryItems.lookup p with
  | none =>
    simp only [hf, Option.map_none] at hr'
    rw [deleteUntracked_ok fun t ht => (hc.note.1 t ht).2.1] at hr'
    cases hr'
    cases hi : env.initialDealloc <;> simp [Res.exported, Event.abs, hi] at hev
  | some e =>
    simp only [hf, Option.map_some, h.tables.second_memoryItem hf] at hr'
    by_cases hst : e.value.status = .allocated
    · rw [if_neg (not_not_intro hst)] at hr'
      cases hrem : Lifetime.removeCorrespondingTrace (s.capture env.toEnv) e.value.allocTrace with
      | error f =>
        simp only [hrem] at hr'
        cases hr'
      | ok o =>
        cases o with
        | error pr =>
          simp only [hrem] at hr'
          cases hr'
          simp [Res.exported, State.ends] at hev
        | ok s₁ =>
          simp only [hrem] at hr'
          by_cases hty : e.value.type = ty
          · rw [if_neg (not_not_intro hty)] at hr'
            obtain ⟨m, -, hr'⟩ := bind_eq_ok hr'
            cases hr'
            refine ⟨e, s₁, rfl, ?_, hrem⟩
            simpa [Res.exported, Event.abs] using hev
          · rw [if_pos hty] at hr'
            exact absurd (initFailure_reported hr') hreported
    · rw [if_pos hst] at hr'
      exact absurd (initFailure_reported hr') hreported

/-- The release of an allocated block whose stack can be taken out. -/
theorem Intact.delete_releases (h : Intact s) {env : ExportedEnv} (hq : q ≠ 0)
    {e : Entry Addr SMemoryItem} (hf : s.memoryItems.lookup q = some e)
    (hvalue : e.value = ⟨ty, .allocated, q, some t, none⟩) {s₁ : State}
    (hrem : Lifetime.removeCorrespondingTrace (s.capture env.toEnv) (some t) = .ok (.ok s₁)) :
    ∃ r, Lifetime.exportedCall s env (.plain (.delete q ty)) = .ok r ∧ r.out = .returns 0 ∧
      r.events = [.freen q] ∧ ¬ r.st.abs.RecordedAllocated q := by
  have hc := h.capture env.toEnv
  have hs₁ := removeCorrespondingTrace_same hrem
  obtain ⟨m, hperform, -, hpairs⟩ := hc.tables.writeMemoryItem hf
    { e.value with status := .deallocated, deallocTrace := s.captured env.toEnv }
  have hperform₁ : perform s₁.memoryItems (.setSecond e.iterator
      { e.value with status := .deallocated, deallocTrace := s.captured env.toEnv }) = .ok m := by
    rw [hs₁]
    exact hperform
  have hdelete : testOperatorDelete s env.toEnv q ty =
      .ok ⟨{ s₁ with memoryItems := m }, .returns 0, [.freen q]⟩ := by
    rw [testOperatorDelete_eq h.flag hq ty]
    have hsame : (s.capture env.toEnv).memoryItems = s.memoryItems := rfl
    simp only [hc.tables.findMemoryItem, bind, Except.bind, hsame, hf, Option.map_some,
      h.tables.second_memoryItem hf]
    rw [hvalue] at hperform₁ ⊢
    simp [hrem, hperform₁]
  refine ⟨_, congrArg (Except.map Res.exported) hdelete, rfl, rfl, ?_⟩
  rintro ⟨item, hitem, hst⟩
  have hsome : ((s.capture env.toEnv).abs.findMemoryItem q).isSome := by
    have hfound : (s.capture env.toEnv).memoryItems.lookup q = some e := hf
    rw [abs_findMemoryItem, hfound]
    rfl
  have hfind := Tracker.findMemoryItem_setMemoryItem_self (s.capture env.toEnv).abs q
    { e.value with status := .deallocated, deallocTrace := s.captured env.toEnv } hsome
  have hmemory : (State.abs { s₁ with memoryItems := m }).memoryItems =
      ((s.capture env.toEnv).abs.setMemoryItem q { e.value with
        status := .deallocated, deallocTrace := s.captured env.toEnv }).memoryItems := hpairs
  have hitem' := (Tracker.findMemoryItem_congr hmemory q).symm.trans hitem
  rw [hfind] at hitem'
  rw [← Option.some.inj hitem'] at hst
  cases hst

/-! ## The registration -/

theorem freeBacktraceData_same {h g : Tracker.TraceHeap} {bt : Tracker.BacktracePtr}
    (hok : freeBacktraceData h bt = .ok g) : g.data = h.data ∧ g.next = h.next := by
  cases bt with
  | none =>
    cases hok
    exact ⟨rfl, rfl⟩
  | some t =>
    simp only [freeBacktraceData] at hok
    split_ifs at hok
    cases hok
    simp

theorem registerMemoryItem_same {item : SMemoryItem} {s₁ : State}
    (h : Lifetime.registerMemoryItem s env p item = .ok (some s₁)) :
    s₁.unMaxNumberOfAllocFromTheSameStack = s.unMaxNumberOfAllocFromTheSameStack ∧
      s₁.traces.data = s.traces.data ∧ s₁.process = s.process := by
  unfold Lifetime.registerMemoryItem at h
  obtain ⟨found, -, h⟩ := bind_eq_ok h
  cases hfound : found.1 with
  | none =>
    simp only [hfound] at h
    cases hm : env.memoryItem with
    | none =>
      simp only [hm] at h
      cases Except.ok.inj h
    | some a =>
      simp only [hm] at h
      obtain ⟨m, -, h⟩ := bind_eq_ok h
      cases h
      exact ⟨rfl, rfl, rfl⟩
  | some iter =>
    simp only [hfound] at h
    obtain ⟨old, -, h⟩ := bind_eq_ok h
    obtain ⟨g₁, hg₁, h⟩ := bind_eq_ok h
    obtain ⟨g₂, hg₂, h⟩ := bind_eq_ok h
    obtain ⟨m, -, h⟩ := bind_eq_ok h
    cases h
    exact ⟨rfl, (freeBacktraceData_same hg₂).1.trans (freeBacktraceData_same hg₁).1, rfl⟩

/-- The registration of a block leaves a counter of its stack that can go down: the stack has a frame,
no leak is reported, and what the counter of an uncounted block goes down from can be removed. -/
structure CountsOn (s : State) (t : ℕ) : Prop where
  captured : (s.traces.data t).ppBuffer ≠ []
  unreported : ∀ k ∈ s.stackItems.lookup (s.stackKey t),
    s.unMaxNumberOfAllocFromTheSameStack = 0 ∨ k.value < s.unMaxNumberOfAllocFromTheSameStack
  removable : s.unMaxNumberOfAllocFromTheSameStack = 0 →
    ∀ k ∈ s.stackItems.lookup (s.stackKey t), k.value = 1 → RemovesAlive s.stackItems k.iterator

theorem countsOn_congr {s₁ : State} (hitems : s₁.stackItems = s.stackItems)
    (hmax : s₁.unMaxNumberOfAllocFromTheSameStack = s.unMaxNumberOfAllocFromTheSameStack)
    (hdata : s₁.traces.data = s.traces.data) : CountsOn s₁ t ↔ CountsOn s t := by
  have hkey : s₁.stackKey t = s.stackKey t := by rw [State.stackKey, hdata]
  constructor
  · rintro ⟨hcaptured, hunreported, hremovable⟩
    rw [hdata] at hcaptured
    rw [hitems, hmax, hkey] at hunreported hremovable
    exact ⟨hcaptured, hunreported, hremovable⟩
  · rintro ⟨hcaptured, hunreported, hremovable⟩
    rw [← hdata] at hcaptured
    rw [← hitems, ← hmax, ← hkey] at hunreported hremovable
    exact ⟨hcaptured, hunreported, hremovable⟩

variable {item : SMemoryItem} {r : Res}

/-- The stack is counted for the first time. -/
theorem Intact.registerStackItem_new (h : Intact s) (halive : s.traces.frees t = 0)
    (hf : s.stackItems.lookup (s.stackKey t) = none)
    (hfree : ∀ a ∈ env.stackItem, s.stackItems.table.items a = none)
    (hok : Lifetime.registerStackItem s env item p (some t) = .ok r) (hret : r.out = .returns q) :
    (Countable r.st t ↔ CountsOn s t) ∧ r.events = [] := by
  have hfind := h.tables.findStackItem h.keysAlive halive
  unfold Lifetime.registerStackItem at hok
  simp only [hfind, hf, bind, Except.bind, Option.map_none] at hok
  cases hm : env.stackItem with
  | none =>
    simp only [hm] at hok
    cases hok
    cases hret
  | some a =>
    simp only [hm] at hok
    have hsound := h.tables.stackItems
    have hstep : HashItems.step s.stackItems (.addEntryWithKnownHash (s.stackKey t)
        (unSize (s.stackKey t)) 1 (some a)) = _ := hsound.step_addEntryWithKnownHash (hfree a hm)
    have hperform : perform s.stackItems (.addEntryWithKnownHash (s.stackKey t)
        (unSize (s.stackKey t)) 1 (some a)) = .ok (HashItems.step s.stackItems
          (.addEntryWithKnownHash (s.stackKey t) (unSize (s.stackKey t)) 1 (some a))) := by
      unfold perform
      rw [hstep]
      simp only [hsound.noFault]
    rw [hperform, hstep] at hok
    cases hok
    refine ⟨?_, rfl⟩
    by_cases hempty : (s.traces.data t).ppBuffer = []
    · refine iff_of_false ?_ fun hc => hc.captured hempty
      rintro ⟨-, k, hk, -⟩
      have hself : ((s.stackKey t) == (s.stackKey t)) = false := by
        rw [← Bool.not_eq_true, StackKey.beq_iff]
        exact fun hne => hne.1 hempty
      have hnone := (List.find?_cons_of_neg (l := s.stackItems.entries)
        (p := fun e : Entry StackKey ℕ => e.key == s.stackKey t) (a := ⟨a, s.stackKey t, 1⟩)
        (by simp [hself])).trans hf
      cases hk.symm.trans hnone
    · refine iff_of_true ⟨halive, ⟨a, s.stackKey t, 1⟩, ?_, by simp, fun _ => ?_⟩
        ⟨hempty, fun k hk => ?_, fun _ k hk => ?_⟩
      · have hself : ((s.stackKey t) == (s.stackKey t)) = true := StackKey.beq_iff.mpr ⟨hempty, rfl⟩
        exact List.find?_cons_of_pos (by exact hself)
      · exact hsound.removesAlive_linked a _ _ 1
      · rw [hf] at hk
        cases hk
      · rw [hf] at hk
        cases hk

/-- A report frees the trace that it was called with, unless it ends the process and returns nothing. -/
theorem report_frees {bt : Tracker.BacktracePtr} {kind : Tracker.FailureType} {freeType : MemoryType}
    (hrun : s.process = .running)
    (hok : initFailureDataAndCallClbk s env item freeType p kind bt = .ok r) :
    (r.st.process = .running ∧ ∀ t, bt = some t → r.st.traces.frees t ≠ 0) ∨
      (r.st.process ≠ .running ∧ ∀ q, r.out ≠ .returns q) := by
  have hfreed : ∀ g, freeBacktraceData s.traces bt = .ok g → ∀ t, bt = some t → g.frees t ≠ 0 := by
    rintro g hg t rfl
    simp only [freeBacktraceData] at hg
    split_ifs at hg
    cases hg
    simp [Tracker.freeBacktraceData]
  unfold initFailureDataAndCallClbk at hok
  obtain ⟨-, -, hok⟩ := bind_eq_ok hok
  dsimp only at hok
  split at hok
  · obtain ⟨g, hg, hok⟩ := bind_eq_ok hok
    cases hok
    exact Or.inl ⟨hrun, hfreed g hg⟩
  · obtain ⟨g, hg, hok⟩ := bind_eq_ok hok
    cases hok
    exact Or.inl ⟨hrun, hfreed g hg⟩
  · cases hok
    exact Or.inr ⟨by simp [State.ends], by simp [State.ends]⟩

/-- The stack has a counter. -/
theorem Intact.registerStackItem_known (h : Intact s) (hrun : s.process = .running)
    (halive : s.traces.frees t = 0) {k : Entry StackKey ℕ}
    (hf : s.stackItems.lookup (s.stackKey t) = some k) (hpos : k.value ≠ 0)
    (hok : Lifetime.registerStackItem s env item p (some t) = .ok r) (hret : r.out = .returns q) :
    (Countable r.st t ↔ CountsOn s t) ∧ (CountsOn s t → r.events = []) := by
  have hfind := h.tables.findStackItem h.keysAlive halive
  have hread := h.tables.second_stackItem hf
  have hcaptured : (s.traces.data t).ppBuffer ≠ [] := by
    obtain ⟨-, -, -, -, hsame⟩ := lookup_split hf
    obtain ⟨hne, heq⟩ := StackKey.beq_iff.mp hsame
    rwa [heq] at hne
  have hcounts : CountsOn s t ↔ (s.unMaxNumberOfAllocFromTheSameStack = 0 ∨
      k.value < s.unMaxNumberOfAllocFromTheSameStack) ∧
        (s.unMaxNumberOfAllocFromTheSameStack = 0 → k.value = 1 →
          RemovesAlive s.stackItems k.iterator) := by
    constructor
    · exact fun hc => ⟨hc.unreported k hf, fun hzero => hc.removable hzero k hf⟩
    · rintro ⟨hbelow, hremovable⟩
      refine ⟨hcaptured, fun k' hk' => ?_, fun hzero k' hk' => ?_⟩
      · cases hf.symm.trans hk'
        exact hbelow
      · cases hf.symm.trans hk'
        exact hremovable hzero
  rw [hcounts]
  unfold Lifetime.registerStackItem at hok
  simp only [hfind, hf, bind, Except.bind, Option.map_some] at hok
  by_cases hmax : 0 < s.unMaxNumberOfAllocFromTheSameStack
  · obtain ⟨m, hperform, htables, habs⟩ := h.tables.writeStackItem hf (k.value + 1)
    simp only [if_pos hmax, hread, hperform] at hok
    by_cases hleak : s.unMaxNumberOfAllocFromTheSameStack < k.value + 1
    · simp only [if_pos hleak] at hok
      have hnot : ¬ (s.unMaxNumberOfAllocFromTheSameStack = 0 ∨
          k.value < s.unMaxNumberOfAllocFromTheSameStack) := by omega
      refine ⟨iff_of_false ?_ fun hc => hnot hc.1, fun hc => absurd hc.1 hnot⟩
      obtain ⟨r', hreport, hok⟩ := bind_eq_ok hok
      cases hok
      have hrun₁ : ({ s with stackItems := m } : State).process = .running := hrun
      rcases report_frees hrun₁ hreport with ⟨hgo, hfreed⟩ | ⟨hstop, hno⟩
      · rw [if_pos hgo]
        exact fun hc => hfreed t rfl hc.alive
      · rw [if_neg hstop] at hret
        exact absurd hret (hno q)
    · simp only [if_neg hleak] at hok
      cases hok
      have hfound : s.abs.findStackItem t = some (k.key.trace, k.value) := by
        rw [h.tables.abs_findStackItem, hf]
        rfl
      obtain ⟨u, hkey⟩ := Tracker.findStackItem_setStackItem (n := k.value + 1) hfound
      rw [← habs, htables.abs_findStackItem] at hkey
      obtain ⟨k', hk', hvalue⟩ := Option.map_eq_some_iff.mp hkey
      have hvalue' : k'.value = k.value + 1 := congrArg Prod.snd hvalue
      refine ⟨iff_of_true ⟨halive, k', hk', by omega, fun hone => ?_⟩ ⟨Or.inr (by omega), ?_⟩,
        fun _ => rfl⟩
      · omega
      · omega
  · simp only [if_neg hmax] at hok
    cases hok
    refine ⟨?_, fun _ => rfl⟩
    constructor
    · rintro ⟨-, k', hk', -, hremovable⟩
      cases hf.symm.trans hk'
      exact ⟨Or.inl (by omega), fun _ => hremovable⟩
    · rintro ⟨-, hremovable⟩
      exact ⟨halive, k, hf, hpos, hremovable (by omega)⟩

/-- An aligned allocation that returns a block counts it, if the stack of the call allows it. -/
theorem Intact.newAligned_counts (h : Intact s) (hrun : s.process = .running)
    (hpos : s.abs.CountersPositive) {count align : ℕ} {bThrow : Bool} {env : ExportedEnv}
    (hC : Clean s (.newAligned count ty bThrow align, env)) {r : ExportedRes}
    (hr : Lifetime.exportedCall s env (.newAligned count ty bThrow align) = .ok r) (hp : p ≠ 0)
    (hret : r.out = .returns p) :
    (Countable r.st s.traces.next ↔ CountsOn (s.capture env.toEnv) s.traces.next) ∧
      (CountsOn (s.capture env.toEnv) s.traces.next → ∃ n, r.events = [.mallocn n env.raw]) ∧
      s.captured env.toEnv = some s.traces.next := by
  change testOperatorNewAligned s env count ty bThrow align = .ok r at hr
  have hnull : ∀ ev, (nullOrThrow s bThrow ev).exported = r → False := by
    rintro ev rfl
    cases bThrow
    · exact hp (Tracker.Outcome.returns.inj hret).symm
    · cases hret
  unfold testOperatorNewAligned at hr
  rw [if_neg (by simp [h.flag])] at hr
  by_cases hcount : count = 0
  · rw [if_pos hcount] at hr
    exact (hnull _ (Except.ok.inj hr)).elim
  rw [if_neg hcount] at hr
  dsimp only at hr
  by_cases hraw : env.raw = 0
  · rw [if_pos hraw] at hr
    exact (hnull _ (Except.ok.inj hr)).elim
  rw [if_neg hraw] at hr
  cases hal : Tracker.stdAlign (Tracker.effectiveAlign align) count env.raw
      ((count + Tracker.effectiveAlign align + Tracker.sizeofVoidPtr) % Tracker.sizeModulus) with
  | none =>
    simp only [hal] at hr
    exact (hnull _ (Except.ok.inj hr)).elim
  | some a =>
    simp only [hal] at hr
    obtain ⟨r', hadd, hr⟩ := bind_eq_ok hr
    obtain rfl := Except.ok.inj hr
    obtain ⟨b, hret'⟩ : ∃ b, r'.out = .returns b := by
      cases hout : r'.out with
      | returns b => exact ⟨b, rfl⟩
      | throwsBadAlloc => simp [hout, alignedOutcome] at hret
      | processEnds => simp [hout, alignedOutcome] at hret
    obtain ⟨hbt, hne⟩ := h.captured env.toEnv
    obtain ⟨hold, hkeys⟩ := hC.replaced (by simp [State.registers, hcount, hraw, hal])
    have hold' : (s.capture env.toEnv).RecordAlive env.raw := by
      unfold State.RecordAlive
      rw [frees_capture]
      exact hold
    obtain ⟨o, hok, hnext⟩ := (h.capture env.toEnv).registerMemoryItem ty hold' hkeys hC.memoryItem
      hbt hne
    obtain ⟨o', hok', hadd⟩ := bind_eq_ok hadd
    cases hok.symm.trans hok'
    cases o with
    | none =>
      cases hadd
      cases hret'
    | some s₁ =>
      obtain ⟨hintact, hitems, -, -, hzero⟩ := hnext s₁ rfl
      obtain ⟨hmax, hdata, hprocess⟩ := registerMemoryItem_same hok
      have hregister : Lifetime.registerStackItem s₁ env.toEnv
          ⟨ty, .allocated, env.raw, s.captured env.toEnv, none⟩ env.raw (s.captured env.toEnv) =
            .ok r' := hadd
      cases hcap : s.captured env.toEnv with
      | none =>
        rw [hcap] at hregister
        cases hregister
        cases hret'
      | some t =>
        obtain rfl := captured_new hcap
        rw [hcap] at hregister
        have halive : s₁.traces.frees s.traces.next = 0 := hzero _ hcap
        rw [← countsOn_congr hitems hmax hdata]
        have hevents : r'.events = [] → ∃ n, (Tracker.Event.mallocn ((count +
            Tracker.effectiveAlign align + Tracker.sizeofVoidPtr) % Tracker.sizeModulus) env.raw ::
              r'.exported.events) = [.mallocn n env.raw] := by
          intro hnil
          have hflat : r'.exported.events = [] := congrArg (List.flatMap Event.abs) hnil
          exact ⟨_, congrArg (_ :: ·) hflat⟩
        cases hf : s₁.stackItems.lookup (s₁.stackKey s.traces.next) with
        | none =>
          have hfree : ∀ a ∈ env.stackItem, s₁.stackItems.table.items a = none := by
            rw [hitems]
            exact hC.stackItem
          obtain ⟨hiff, hnil⟩ := hintact.registerStackItem_new halive hf hfree hregister hret'
          exact ⟨hiff, fun _ => hevents hnil, rfl⟩
        | some k =>
          have hmem : (k.key.trace, k.value) ∈ s.abs.stackItems := by
            have hk : k ∈ s.stackItems.entries := by
              have hk₁ := List.mem_of_find?_eq_some hf
              rwa [hitems] at hk₁
            exact List.mem_map.mpr ⟨k, hk, rfl⟩
          have hvalue : k.value ≠ 0 := Nat.ne_of_gt (hpos _ hmem)
          obtain ⟨hiff, hnil⟩ := hintact.registerStackItem_known (hprocess.trans hrun) halive hf
            hvalue hregister hret'
          exact ⟨hiff, fun hc => hevents (hnil hc), rfl⟩

/-! ## Main result -/

theorem countsOn_capture {env : Env} {align : ℕ} (hcap : s.captured env = some s.traces.next) :
    CountsOn (s.capture env) s.traces.next ∧ max align Tracker.stdcppDefaultNewAlignment ∣ env.raw ↔
      RoundTrips s env align := by
  have hstack := captured_data hcap
  have hcounter : s.counterOf env = (s.capture env).stackItems.lookup
      ((s.capture env).stackKey s.traces.next) := by
    unfold State.counterOf
    rw [hstack]
    rfl
  constructor
  · rintro ⟨⟨hcaptured, hunreported, hremovable⟩, haligned⟩
    rw [← hcounter] at hunreported hremovable
    exact ⟨haligned, ⟨_, hstack, hcaptured⟩, hunreported, hremovable⟩
  · rintro ⟨haligned, ⟨b, hb, hne⟩, hunreported, hremovable⟩
    rw [hcounter] at hunreported hremovable
    rw [hstack] at hb
    cases hb
    exact ⟨⟨hne, hunreported, hremovable⟩, haligned⟩

/-- The trace of a registered block is found in the state that the release captures its stack in. -/
theorem countable_capture (ht : t < s.traces.next) (env : Env) :
    Countable (s.capture env) t ↔ Countable s t := by
  have hkey : (s.capture env).stackKey t = s.stackKey t := by
    have hdata : (s.capture env).traces.data t = s.traces.data t :=
      Tracker.initBacktrace_data_of_lt _ _ ht
    rw [State.stackKey, hdata]
  constructor
  · rintro ⟨halive, hcounted⟩
    rw [frees_capture] at halive
    rw [hkey] at hcounted
    exact ⟨halive, hcounted⟩
  · rintro ⟨halive, hcounted⟩
    refine ⟨by rw [frees_capture]; exact halive, ?_⟩
    rw [hkey]
    exact hcounted

/-- After a clean run a delete undoes an aligned allocation, without a report and without a use of freed
memory, exactly when the raw block happened to be aligned, its stack has a frame, its registration
reports no leak and the item of its stack, if it goes, can be removed. -/
theorem aligned_inverse_iff {cs : List (Tracker.ExportedCall × ExportedEnv)} {w : World}
    (hcs : Runs.Along worldStep CleanWorldStep (.ok (.init false)) cs)
    (hw : Runs.final worldStep (.ok (.init false)) cs = .ok w) (hrun : w.st.process = .running)
    {count k : ℕ} (hk : k < 64) {bThrow : Bool} {env : ExportedEnv}
    (hC : Clean w.st (.newAligned count ty bThrow (2 ^ k), env)) {r : ExportedRes}
    (hr : exportedCall w.st env (.newAligned count ty bThrow (2 ^ k)) = .ok r) (hp : p ≠ 0)
    (hret : r.out = .returns p) :
    (∀ env₂, ReleasesBlock (w.after r) env₂ p env.raw ty) ↔
      RoundTrips w.st env.toEnv (2 ^ k) := by
  obtain ⟨ms, w', hw', hintact, habs⟩ := Follows.run hcs
  cases hw.symm.trans hw'
  have hreach : Tracker.ExportedReachable w.abs := ⟨ms, habs⟩
  obtain ⟨hs, hpos, hown⟩ := hreach.invariants
  have ho := World.outermost hintact hrun
  obtain ⟨r', hr', hintact', hmirrors, hafter⟩ := World.call_mirrors hintact hrun hC
  cases hr.symm.trans hr'
  obtain ⟨hs', -, hown'⟩ := Tracker.testOperatorNewAligned_keeps hs hpos hown ho
    (rfl : _ = Tracker.testOperatorNewAligned w.abs (w.answers env) count ty bThrow (2 ^ k))
  obtain ⟨hraw, hpal, -, -, t, hcap, hrecord, -⟩ :=
    Tracker.testOperatorNewAligned_returns ho hp rfl (hmirrors.out.trans hret)
  obtain ⟨hcounts, hevents, hcap'⟩ := hintact.newAligned_counts hrun hpos hC hr hp hret
  obtain rfl : t = w.st.traces.next := Option.some.inj (hcap.symm.trans hcap')
  rw [← countsOn_capture hcap', ← hcounts]
  -- the record of the raw block, in the table
  have hafter' : (w.after r).abs =
      (Tracker.testOperatorNewAligned w.abs (w.answers env) count ty bThrow (2 ^ k)).st := hafter
  rw [← hafter'] at hs' hown' hrecord
  have hlookup : (r.st.memoryItems.lookup env.raw).map Entry.value =
      some ⟨ty, .allocated, env.raw, some w.st.traces.next, none⟩ := by
    rw [← abs_findMemoryItem]
    exact hrecord
  obtain ⟨e, hf, hvalue⟩ := Option.map_eq_some_iff.mp hlookup
  have hlt : w.st.traces.next < r.st.traces.next := by
    refine hintact'.records _ (mem_recordTraces_of_lookup hf ?_)
    simp [hvalue, SMemoryItem.traces]
  have hremoval : ∀ env₂ : ExportedEnv, (∃ s₁, Lifetime.removeCorrespondingTrace
      (r.st.capture env₂.toEnv) (some w.st.traces.next) = .ok (.ok s₁)) ↔
        Countable r.st w.st.traces.next := by
    intro env₂
    rw [(hintact'.capture env₂.toEnv).removal_ok_iff hs'.ndebug, countable_capture hlt]
  have hself : p = env.raw ↔ max (2 ^ k) Tracker.stdcppDefaultNewAlignment ∣ env.raw := by
    rw [hpal, Tracker.effectiveAlign_two_pow hk]
    exact Alignment.alignUp_eq_self_iff (by simp [Tracker.stdcppDefaultNewAlignment])
  rw [← hself]
  constructor
  · intro hall
    obtain ⟨-, r₂, hok, -, hev, -⟩ := hall env
    obtain ⟨e', s₁, hf', hreal, hrem⟩ := hintact'.delete_freen hp hok hev
    have hfind : (w.after r).abs.findMemoryItem p = some e'.value := by
      show r.st.abs.findMemoryItem p = _
      rw [abs_findMemoryItem]
      exact congrArg (Option.map Entry.value) hf'
    obtain rfl : p = env.raw := (hown'.find hfind).symm.trans hreal
    cases hf.symm.trans hf'
    rw [hvalue] at hrem
    exact ⟨(hremoval env).mp ⟨s₁, hrem⟩, rfl⟩
  · rintro ⟨hcountable, rfl⟩ env₂
    obtain ⟨s₁, hrem⟩ := (hremoval env₂).mpr hcountable
    obtain ⟨r₂, hok, hout, hev, hgone⟩ := hintact'.delete_releases hp hf hvalue hrem
    obtain ⟨n, hn⟩ := hevents (hcounts.mp hcountable)
    refine ⟨?_, r₂, hok, hout, hev, fun q hq => ?_⟩
    · show env.raw ∈ r.events.foldl Tracker.Event.rawBlocks w.live
      have hnonzero : env.raw ≠ 0 := hraw
      rw [hn]
      simp [Tracker.Event.rawBlocks, hnonzero]
    · obtain rfl : q = env.raw := by tauto
      exact hgone

/-- A raw block at `64` is aligned to `32`, so its delete releases it, although another block of the
stack is allocated. -/
theorem aligned_inverse_iff_aligned :
    let cs : List (Tracker.ExportedCall × ExportedEnv) :=
      [(.plain (.alloc 8 .malloc false), ⟨.granting 16 [7] 1 1, none⟩),
        (.plain (.alloc 8 .new true), ⟨.granting 32 [9] 2 2, none⟩),
        (.plain (.delete 32 .new), ⟨.granting 0 [8] 3 3, none⟩)]
    let env : ExportedEnv := ⟨.granting 64 [7] 3 3, none⟩
    ∃ w r, Runs.final worldStep (.ok (.init false)) cs = .ok w ∧
      exportedCall w.st env (.newAligned 8 .new true (2 ^ 5)) = .ok r ∧ r.out = .returns 64 ∧
      ∀ env₂, ReleasesBlock (w.after r) env₂ 64 64 .new := by
  intro cs env
  have hcs : Runs.Along worldStep CleanWorldStep (.ok (.init false)) cs := by decide
  have hok : ((Runs.final worldStep (.ok (.init false)) cs >>= fun w =>
      exportedCall w.st env (.newAligned 8 .new true (2 ^ 5))).toOption).isSome := by decide
  have hreturns : ∀ w ∈ (Runs.final worldStep (.ok (.init false)) cs).toOption,
      w.st.process = .running ∧ ∀ r ∈ (exportedCall w.st env
        (.newAligned 8 .new true (2 ^ 5))).toOption, r.out = .returns 64 := by decide
  have hC : CleanWorldStep (Runs.final worldStep (.ok (.init false)) cs)
      (.newAligned 8 .new true (2 ^ 5), env) := by decide
  have htrips : ∀ w ∈ (Runs.final worldStep (.ok (.init false)) cs).toOption,
      RoundTrips w.st env.toEnv (2 ^ 5) := by decide
  obtain ⟨r, hsome⟩ := Option.isSome_iff_exists.mp hok
  obtain ⟨w, hw, hr⟩ := bind_eq_ok (toOption_eq_some hsome)
  rw [hw] at hC htrips hreturns
  obtain ⟨hrun, hall⟩ := hreturns w rfl
  have hret := hall r (congrArg Except.toOption hr)
  exact ⟨w, r, hw, hr, hret, (aligned_inverse_iff hcs hw hrun (k := 5) (by omega)
    (hC w rfl hrun) hr (by decide) hret).mpr (htrips w rfl)⟩

/-- A raw block at `16` is not aligned to `64`: the program gets `64`, which has no record, and its
delete hands it to libc. The raw block stays recorded as allocated. -/
theorem aligned_delete_untracked :
    let env : ExportedEnv := ⟨.granting 16 [7] 1 1, none⟩
    ∃ r r₂, exportedCall (.init false) env (.newAligned 8 .new true (2 ^ 6)) = .ok r ∧
      r.out = .returns 64 ∧ exportedCall r.st env (.plain (.delete 64 .new)) = .ok r₂ ∧
      .systemSpecificGlibcDealloc 64 ∈ r₂.events ∧ r₂.st.abs.RecordedAllocated 16 ∧
      ¬ ReleasesBlock ((World.init false).after r) env 64 16 .new := by
  intro env
  have hok : ((exportedCall (.init false) env (.newAligned 8 .new true (2 ^ 6)) >>= fun r =>
      exportedCall r.st env (.plain (.delete 64 .new))).toOption).isSome := by decide
  have hleft : ∀ r ∈ (exportedCall (.init false) env (.newAligned 8 .new true (2 ^ 6))).toOption,
      r.out = .returns 64 ∧ ∀ r₂ ∈ (exportedCall r.st env (.plain (.delete 64 .new))).toOption,
        .systemSpecificGlibcDealloc 64 ∈ r₂.events ∧ r₂.st.abs.RecordedAllocated 16 := by decide
  obtain ⟨r₂, hsome⟩ := Option.isSome_iff_exists.mp hok
  obtain ⟨r, hr, hr₂⟩ := bind_eq_ok (toOption_eq_some hsome)
  obtain ⟨hret, hall⟩ := hleft r (congrArg Except.toOption hr)
  obtain ⟨hev, hrec⟩ := hall r₂ (congrArg Except.toOption hr₂)
  refine ⟨r, r₂, hr, hret, hr₂, hev, hrec, ?_⟩
  rintro ⟨-, r₃, hr₃, -, hev₃, -⟩
  cases hr₂.symm.trans hr₃
  rw [hev₃] at hev
  simp at hev

end CrashInvestigator.Lifetime
