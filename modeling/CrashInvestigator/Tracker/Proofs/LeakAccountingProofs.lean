import CrashInvestigator.Tracker.Proofs.RegistrationProofs

/-!
# Leak accounting over runs

`m_stackItems` counts the allocated blocks of every stack in every state of a run, so the assertions
of `TestOperatorDelete` and `TestOperatorReAlloc` never fail, and a possible leak is reported exactly
when the new block is one too many.
-/

namespace CrashInvestigator.Tracker

open Library

/-! ## Live blocks behind the records -/

section Live

variable {st st' : State}

theorem State.RecordsLive.mono (h : st.RecordsLive) (hmem : st'.memoryItems = st.memoryItems)
    (hlive : st.live ⊆ st'.live) : st'.RecordsLive := by
  intro p item hf
  rw [findMemoryItem_congr hmem] at hf
  obtain ⟨h1, h2⟩ := h p item hf
  exact ⟨h1, fun hst => hlive (h2 hst)⟩

/-- An address without an allocated record may lose its block. -/
theorem State.RecordsLive.erase (h : st.RecordsLive) {p : Addr}
    (hp : ∀ item, st.findMemoryItem p = some item → item.status ≠ .allocated)
    (hmem : st'.memoryItems = st.memoryItems) (hlive : st.live.erase p ⊆ st'.live) :
    st'.RecordsLive := by
  intro q item hf
  rw [findMemoryItem_congr hmem] at hf
  obtain ⟨h1, h2⟩ := h q item hf
  refine ⟨h1, fun hst => hlive (Finset.mem_erase.mpr ⟨?_, h2 hst⟩)⟩
  rintro rfl
  exact hp item hf hst

/-- A new record of a live address. -/
theorem State.RecordsLive.registerMemoryItem (h : st.RecordsLive) {env : Env} {p : Addr}
    {item : SMemoryItem} (hr : Tracker.registerMemoryItem st env p item = some st')
    (hreal : item.realAddress = p) (hp : p ∈ st.live) : st'.RecordsLive := by
  obtain ⟨-, hlive, -⟩ := registerMemoryItem_frame hr
  intro q item' hf
  rw [registerMemoryItem_find hr] at hf
  rw [hlive]
  split_ifs at hf with hq
  · cases hf
    rw [hq]
    exact ⟨hreal, fun _ => hp⟩
  · exact h q item' hf

theorem State.RecordsLive.setMemoryItem (h : st.RecordsLive) {p : Addr} {item item' : SMemoryItem}
    (hf : st.findMemoryItem p = some item) (hreal : item'.realAddress = item.realAddress)
    (hst : item'.status ≠ .allocated) : (st.setMemoryItem p item').RecordsLive := by
  intro q x hx
  by_cases hq : q = p
  · subst hq
    rw [findMemoryItem_setMemoryItem_self st q item' (by simp [hf])] at hx
    cases hx
    exact ⟨by rw [hreal]; exact (h q item hf).1, fun hst' => absurd hst' hst⟩
  · rw [findMemoryItem_setMemoryItem_of_ne st p q item' hq] at hx
    exact h q x hx

end Live

/-! ## Reading the environment -/

section Captured

variable {st : State} {env : Env}

/-- A captured stack is a new object with the frames that were captured. -/
theorem captured_spec (st : State) {s : Backtrace} (h : env.stack = some s) :
    st.captured env = some st.traces.next ∧ (st.capture env).traces.next = st.traces.next + 1 ∧
      (st.capture env).traces.data st.traces.next = s := by
  simp [State.captured, State.capture, initBacktraceDataForCurrentStack, h]

/-- A fresh raw block has no allocated record. -/
theorem old_not_allocated (h : st.RecordsLive) {p : Addr} (hp : p ∉ st.live) :
    ∀ old, st.findMemoryItem p = some old → old.status ≠ .allocated := by
  intro old hf hst
  exact hp ((h p old hf).2 hst)

theorem raw_fresh {c : Call} (h : RawIssuesFresh st (c, env)) (hraw : env.raw ≠ 0)
    (hmove : ∀ n, c.effect ≠ .move env.raw n) : env.raw ∉ st.live := by
  rcases h with h | h | ⟨n, h⟩
  · exact absurd h hraw
  · exact h
  · exact absurd h (hmove n)

end Captured

/-! ## The invariant of a run -/

/-- What every state of an accounted run satisfies. -/
structure LeakInv (st : State) (gap : Backtrace → ℕ) : Prop where
  outermost : st.Outermost
  ndebug : st.ndebug = false
  accounted : Accounted st gap
  live : st.RecordsLive

theorem LeakInv.init : LeakInv .init fun _ => 0 := by
  refine ⟨⟨rfl, rfl⟩, rfl, Accounted.init, ?_⟩
  intro p item hf
  simp [State.init, State.findMemoryItem] at hf

theorem LeakInv.capture {st : State} {gap : Backtrace → ℕ} (h : LeakInv st gap) (env : Env) :
    LeakInv (st.capture env) gap :=
  ⟨h.outermost, h.ndebug, h.accounted.capture env.stack, h.live⟩

/-- A report that is refused changes nothing that the invariant speaks of. -/
theorem LeakInv.refused {st : State} {gap : Backtrace → ℕ} (h : LeakInv st gap) {env : Env}
    (href : RefusesActions env) {item : SMemoryItem} {freeType : MemoryType} {addr : Addr} {n : ℕ}
    {failureType : FailureType} (hft : failureType ≠ .unknown) {trace : BacktracePtr} :
    LeakInv (initFailureDataAndCallClbk st env item freeType addr n failureType trace).st gap := by
  rw [initFailure_doNot st env item freeType addr n failureType trace hft (href _)]
  refine ⟨h.outermost, h.ndebug, ?_, h.live⟩
  exact h.accounted.congr rfl rfl (by simp [State.leaveScope]) (by simp [State.leaveScope])

/-- The gap after a call: the block is left uncounted when its stack is known and the threshold is
zero. -/
noncomputable def gapAfter (st : State) (c : Call × Env) (gap : Backtrace → ℕ) : Backtrace → ℕ :=
  open Classical in
  if st.unMaxNumberOfAllocFromTheSameStack = 0 ∧ CountsKnownStack st c then
    bump gap (c.2.stack.getD ⟨[]⟩)
  else gap

section Step

variable {st : State} {gap : Backtrace → ℕ} {env : Env}

/-- Registering a fresh live block keeps the invariant. -/
theorem LeakInv.addNew (h : LeakInv st gap) {t : ℕ} (hlt : t < st.traces.next)
    (hne : (st.traces.data t).ppBuffer ≠ []) (hgrow : TablesGrow env) (href : RefusesActions env)
    {p : Addr} (hp : p ∈ st.live)
    (hold : ∀ old, st.findMemoryItem p = some old → old.status ≠ .allocated) (ty : MemoryType) :
    LeakInv (addNewAllocatedMemoryAndCleanOldEntryNoLock st env ty p (some t)).st
      (if st.unMaxNumberOfAllocFromTheSameStack = 0 ∧ (st.findStackItem t).isSome then
        bump gap (st.traces.data t) else gap) := by
  obtain ⟨st₁, hreg⟩ := registerMemoryItem_isSome st p ⟨ty, .allocated, p, some t, none⟩ hgrow.1
  have hr : addNewAllocatedMemoryAndCleanOldEntryNoLock st env ty p (some t) =
      registerStackItem st₁ env ⟨ty, .allocated, p, some t, none⟩ p (some t) := by
    simp only [addNewAllocatedMemoryAndCleanOldEntryNoLock, hreg]
  obtain ⟨-, hlive₁, hproc₁, hnd₁, hflag₁, -⟩ := registerMemoryItem_frame hreg
  obtain ⟨hmem, hlive, hproc, hnd, hflag, -⟩ :=
    registerStackItem_frame st₁ p t href ⟨ty, .allocated, p, some t, none⟩
  have hacc := h.accounted.addNew ty hlt hne hgrow hold
  have hrec : st₁.RecordsLive := h.live.registerMemoryItem hreg rfl hp
  rw [hr] at hacc ⊢
  refine ⟨⟨?_, ?_⟩, ?_, hacc, hrec.mono hmem (by rw [hlive])⟩
  · rw [hproc, hproc₁]
    exact h.outermost.1
  · rw [hflag, hflag₁]
    exact h.outermost.2
  · rw [hnd, hnd₁]
    exact h.ndebug

/-- The stack that a registration finds is the one its counting finds. -/
theorem findStackItem_registerMemoryItem {p : Addr} {item : SMemoryItem} {st₁ : State}
    (h : registerMemoryItem st env p item = some st₁) (t : ℕ) :
    st₁.findStackItem t = st.findStackItem t := by
  obtain ⟨hstk, -, -, -, -, -, -, hdata⟩ := registerMemoryItem_frame h
  exact findStackItem_congr hstk hdata t

/-- Taking an allocated record out of both tables keeps the invariant. -/
theorem LeakInv.retire (h : LeakInv st gap) {p : Addr} {item : SMemoryItem}
    (item' : SMemoryItem) (hf : st.findMemoryItem p = some item) (hst : item.status = .allocated)
    (hreal : item'.realAddress = item.realAddress) (hst' : item'.status ≠ .allocated)
    (htr : item'.allocTrace = item.allocTrace) {st₁ : State}
    (hrem : removeCorrespondingTrace st item.allocTrace = .ok st₁) :
    LeakInv (st₁.setMemoryItem p item') gap := by
  obtain ⟨-, hmem⟩ := findMemoryItem_some hf
  obtain ⟨t, ht, -, hne⟩ := h.accounted.records _ hmem
  have hframe := removeCorrespondingTrace_frame hrem
  have hmem₁ : st₁.memoryItems = st.memoryItems := by rw [hframe]
  have htraces : st₁.traces = st.traces := by rw [hframe]
  rw [ht] at hrem
  have hbumped := h.accounted.removeCorrespondingTrace h.ndebug hne hrem
  have hf₁ : st₁.findMemoryItem p = some item := (removeCorrespondingTrace_find hrem p).trans hf
  have hacc : Accounted (st₁.setMemoryItem p item') gap :=
    hbumped.setReleased hf₁ hst (by rw [ht, htraces]; simp [TraceHeap.holds]) hst' htr
  have hlive₁ : st₁.RecordsLive := h.live.mono hmem₁ (by rw [hframe])
  refine ⟨⟨?_, ?_⟩, ?_, hacc, hlive₁.setMemoryItem hf₁ hreal hst'⟩
  · show st₁.process = .running
    rw [hframe]
    exact h.outermost.1
  · show st₁.bIsAllocingOrDeallocing = false
    rw [hframe]
    exact h.outermost.2
  · show st₁.ndebug = false
    rw [hframe]
    exact h.ndebug

/-- The assertion of a release can only fail, by an abort, when some block is not counted. -/
theorem LeakInv.removal (h : LeakInv st gap) {p : Addr} {item : SMemoryItem}
    (hf : st.findMemoryItem p = some item) (hst : item.status = .allocated) :
    (∃ st₁, removeCorrespondingTrace st item.allocTrace = .ok st₁) ∨
      (removeCorrespondingTrace st item.allocTrace = .error .aborted ∧ ∃ s, 0 < gap s) := by
  obtain ⟨-, hmem⟩ := findMemoryItem_some hf
  obtain ⟨t, ht, -, hne⟩ := h.accounted.records _ hmem
  have ht' : item.allocTrace = some t := ht
  rw [ht']
  by_cases hgap : gap (st.traces.data t) = 0
  · refine Or.inl (h.accounted.removeCorrespondingTrace_ok h.ndebug hne ?_)
    rw [hgap]
    refine List.countP_pos_iff.mpr ⟨(p, item), hmem, ?_⟩
    simp [hst, ht', TraceHeap.holds]
  · rcases removeCorrespondingTrace_cases h.ndebug t with ⟨herr, -⟩ | ⟨e, -, -, hok⟩ |
      ⟨e, -, -, hok⟩
    · exact Or.inr ⟨herr, _, Nat.pos_of_ne_zero hgap⟩
    · exact Or.inl ⟨_, hok⟩
    · exact Or.inl ⟨_, hok⟩

/-- Raw requests of the program that keep the blocks of the records. -/
theorem LeakInv.mallocn (h : LeakInv st gap) (q : Addr) : LeakInv (st.mallocn q) gap := by
  refine ⟨⟨?_, ?_⟩, ?_, h.accounted.congr ?_ ?_ ?_ ?_, h.live.mono (by simp) ?_⟩
  · simp [h.outermost.1]
  · simp [h.outermost.2]
  · simp [h.ndebug]
  · simp
  · simp
  · simp
  · simp
  · unfold State.mallocn
    split_ifs
    · exact fun _ hx => hx
    · exact Finset.subset_insert _ _

/-- `gapAfter` of a registration, in the terms of the state in which the stack is looked up. -/
theorem gapAfter_of_entry {c : Call × Env} {st' : State} {item : SMemoryItem} {p : Addr} {t : ℕ}
    (hentry : st.countingEntry c =
      (registerMemoryItem st' c.2 p item).map fun st₁ => (st₁, some t))
    (hgrow : TablesGrow c.2) (hmax : st'.unMaxNumberOfAllocFromTheSameStack =
      st.unMaxNumberOfAllocFromTheSameStack)
    (hdata : c.2.stack.getD ⟨[]⟩ = st'.traces.data t) :
    gapAfter st c gap =
      if st'.unMaxNumberOfAllocFromTheSameStack = 0 ∧ (st'.findStackItem t).isSome then
        bump gap (st'.traces.data t) else gap := by
  obtain ⟨st₁, hreg⟩ := registerMemoryItem_isSome st' p item hgrow.1
  have hknown : CountsKnownStack st c ↔ (st'.findStackItem t).isSome := by
    rw [Option.isSome_iff_exists, ← findStackItem_registerMemoryItem hreg]
    constructor
    · rintro ⟨st₂, t₂, e, hst₂, he⟩
      rw [hentry, hreg] at hst₂
      cases hst₂
      exact ⟨e, he⟩
    · rintro ⟨e, he⟩
      exact ⟨st₁, t, e, by rw [hentry, hreg]; rfl, he⟩
  unfold gapAfter
  rw [hdata]
  by_cases hskip : st.unMaxNumberOfAllocFromTheSameStack = 0 ∧ CountsKnownStack st c
  · rw [if_pos hskip, if_pos ⟨hmax.trans hskip.1, hknown.mp hskip.2⟩]
  · rw [if_neg hskip, if_neg fun h => hskip ⟨hmax.symm.trans h.1, hknown.mpr h.2⟩]

theorem gapAfter_of_not {c : Call × Env} (h : ¬ CountsKnownStack st c) : gapAfter st c gap = gap := by
  unfold gapAfter
  rw [if_neg fun hc => h hc.2]

theorem not_countsKnownStack {c : Call × Env} (h : st.countingEntry c = none) :
    ¬ CountsKnownStack st c := by
  rintro ⟨st₁, t, e, hentry, -⟩
  rw [h] at hentry
  cases hentry

/-! ## One call -/

variable {c : Call}

/-- The call `c` ends by registering the block `env.raw` in the state `st'`, under the trace `t` of
the stack that was captured for it. -/
structure Registers (st : State) (c : Call) (env : Env) (gap : Backtrace → ℕ) (st' : State)
    (memoryType : MemoryType) (t : ℕ) : Prop where
  inv : LeakInv st' gap
  lt : t < st'.traces.next
  stack : env.stack = some (st'.traces.data t)
  nonempty : (st'.traces.data t).ppBuffer ≠ []
  threshold : st'.unMaxNumberOfAllocFromTheSameStack = st.unMaxNumberOfAllocFromTheSameStack
  live : env.raw ∈ st'.live
  old : ∀ old, st'.findMemoryItem env.raw = some old → old.status ≠ .allocated
  entry : st.countingEntry (c, env) = (registerMemoryItem st' env env.raw
    ⟨memoryType, .allocated, env.raw, some t, none⟩).map fun st₁ => (st₁, some t)
  result : ∃ e, (∀ d a, e ≠ Event.clbkFnc d a) ∧ call st env c =
    { addNewAllocatedMemoryAndCleanOldEntryNoLock st' env memoryType env.raw (some t) with
      events := e :: (addNewAllocatedMemoryAndCleanOldEntryNoLock st' env memoryType env.raw
        (some t)).events }

theorem Registers.call_st {st' : State} {ty : MemoryType} {t : ℕ}
    (h : Registers st c env gap st' ty t) : (call st env c).st =
      (addNewAllocatedMemoryAndCleanOldEntryNoLock st' env ty env.raw (some t)).st := by
  obtain ⟨e, -, hcall⟩ := h.result
  rw [hcall]

/-- A registration at the end of a call keeps the invariant. -/
theorem Registers.step {st' : State} {ty : MemoryType} {t : ℕ} (h : Registers st c env gap st' ty t)
    (ho : st.Outermost) (hc : Tracked st (c, env)) :
    LeakInv (step st (c, env)) (gapAfter st (c, env) gap) := by
  rw [step_eq ho, h.call_st,
    gapAfter_of_entry h.entry hc.grow h.threshold (by simp only [h.stack, Option.getD_some])]
  exact h.inv.addNew h.lt h.nonempty hc.grow hc.refuses h.live h.old ty

/-- An allocation whose raw request succeeds registers the new block. -/
theorem LeakInv.registers_allocate (h : LeakInv st gap) (hc : Tracked st (c, env)) {ty : MemoryType}
    (heff : c.effect = .allocate ty) (hraw : env.raw ≠ 0) :
    ∃ st' t, Registers st c env gap st' ty t := by
  obtain ⟨s, hs, hne⟩ := hc.captured
  have hs' : env.stack = some s := hs
  have hfresh : env.raw ∉ st.live :=
    raw_fresh hc.fresh hraw fun n hn => by rw [heff] at hn; cases hn
  set st' := (st.mallocn env.raw).capture env with hst'
  obtain ⟨hcap, hnext, hdata⟩ := captured_spec (st.mallocn env.raw) hs'
  rw [mallocn_traces] at hcap hnext hdata
  have hfind : ∀ q, st'.findMemoryItem q = st.findMemoryItem q := fun q => by
    simp [hst', State.findMemoryItem]
  have hlive : st'.live = insert env.raw st.live := mallocn_live st env.raw hraw
  obtain ⟨e, hev, hcall⟩ := call_allocate h.outermost heff hraw
  have hadd : addNewAllocatedMemoryAndCleanOldEntry (st.mallocn env.raw) env ty env.raw =
      addNewAllocatedMemoryAndCleanOldEntryNoLock st' env ty env.raw (some st.traces.next) := by
    rw [← hcap]
    rfl
  refine ⟨st', st.traces.next, ?_⟩
  refine ⟨(h.mallocn env.raw).capture env, by rw [hst', hnext]; omega, ?_, ?_, ?_, ?_, ?_, ?_,
    e, Event.isAllocation.ne_clbkFnc hev, by rw [hcall, hadd]⟩
  · rw [hdata, hs']
  · rw [hdata]
    exact hne
  · simp [hst']
  · rw [hlive]
    exact Finset.mem_insert_self _ _
  · intro old hold
    rw [hfind] at hold
    exact old_not_allocated h.live hfresh old hold
  · simp only [State.countingEntry, heff, hraw, if_false, ← hst']
    rw [← hcap]
    simp [State.captured]

theorem LeakInv.step_allocate (h : LeakInv st gap) (hc : Tracked st (c, env)) {ty : MemoryType}
    (heff : c.effect = .allocate ty) :
    LeakInv (step st (c, env)) (gapAfter st (c, env) gap) := by
  by_cases hraw : env.raw = 0
  · have hentry : st.countingEntry (c, env) = none := by
      simp [State.countingEntry, heff, hraw]
    rw [step_eq h.outermost, (call_allocate_null h.outermost heff hraw).1,
      gapAfter_of_not (not_countsKnownStack hentry)]
    exact h
  · obtain ⟨st', t, hreg⟩ := h.registers_allocate hc heff hraw
    exact hreg.step h.outermost hc

theorem countingEntry_release {p : Addr} {ty : MemoryType} (heff : c.effect = .release p ty) :
    st.countingEntry (c, env) = none := by
  simp [State.countingEntry, heff]

theorem LeakInv.step_release (h : LeakInv st gap) (hc : Tracked st (c, env)) {p : Addr}
    {ty : MemoryType} (heff : c.effect = .release p ty) :
    LeakInv (step st (c, env)) (gapAfter st (c, env) gap) ∨
      ((step st (c, env)).process = .aborted ∧ ∃ s, 0 < gap s) := by
  have hp := (release_ne_zero heff).1
  have hinv := h.capture env
  rw [step_eq h.outermost, call_release h.outermost heff,
    gapAfter_of_not (not_countsKnownStack (countingEntry_release heff))]
  rcases testOperatorDelete_cases env h.outermost hp ty with ⟨hf, hr⟩ |
    ⟨item, hf, hst, hr⟩ | ⟨item, pr, hf, hst, hrem, hr⟩ | ⟨item, st₁, hf, hst, -, hty, -⟩ |
    ⟨item, st₁, hf, hst, hrem, -, hr⟩
  · -- no record: the pool or libc gets the address
    left
    rw [hr]
    unfold deleteUntracked
    split_ifs
    · exact hinv
    · refine ⟨h.outermost, h.ndebug, hinv.accounted.congr rfl rfl (by simp) (by simp), ?_⟩
      refine h.live.erase ?_ rfl (Finset.Subset.refl _)
      intro item hitem
      rw [hf] at hitem
      cases hitem
  · left
    rw [hr]
    exact hinv.refused hc.refuses (by simp)
  · right
    rcases hinv.removal hf hst with ⟨st₁, hok⟩ | ⟨herr, hgap⟩
    · rw [hok] at hrem
      cases hrem
    · rw [herr] at hrem
      cases hrem
      exact ⟨by rw [hr]; rfl, hgap⟩
  · exact absurd ⟨p, ty, item, heff, hf, hst, hty⟩ hc.matching
  · left
    rw [hr]
    have hret := hinv.retire { item with
      status := .deallocated, deallocTrace := st.captured env } hf hst rfl (by simp) rfl hrem
    refine ⟨hret.outermost, hret.ndebug, hret.accounted.congr rfl rfl (by simp) (by simp), ?_⟩
    refine hret.live.erase ?_ rfl (Finset.Subset.refl _)
    intro x hx
    rw [(h.live p item hf).1, findMemoryItem_setMemoryItem_self] at hx
    · cases hx
      simp
    · have hf₁ : st₁.findMemoryItem p = some item := (removeCorrespondingTrace_find hrem p).trans hf
      simp [hf₁]

/-- The tables do not look at the live blocks. -/
theorem removeCorrespondingTrace_live (st : State) (L : Finset Addr) (bt : BacktracePtr) :
    removeCorrespondingTrace { st with live := L } bt =
      (removeCorrespondingTrace st bt).map fun s => { s with live := L } := by
  unfold removeCorrespondingTrace
  cases bt with
  | none => rfl
  | some t =>
    have hfind : State.findStackItem { st with live := L } t = st.findStackItem t := rfl
    simp only [hfind]
    cases st.findStackItem t with
    | none => rfl
    | some e =>
      simp only
      split_ifs <;> rfl

/-- A realloc that moves an allocated block retires its record before the new address is
registered. -/
theorem LeakInv.registers_move (h : LeakInv st gap) (hc : Tracked st (c, env)) {p : Addr} {n : ℕ}
    (heff : c.effect = .move p n) {item : SMemoryItem} (hf : st.findMemoryItem p = some item)
    (hty : item.type = .malloc) (hst : item.status = .allocated) (hmv : env.raw ≠ p) {st₁ : State}
    (hrem : removeCorrespondingTrace ((st.capture env).reallocn item.realAddress env.raw)
      item.allocTrace = .ok st₁) {r : Res}
    (hrr : r = addNewAllocatedMemoryAndCleanOldEntryNoLock
      (st₁.setMemoryItem p { item with status := .duringReallocChanged }) env .malloc env.raw
      (st.captured env))
    (hr : testOperatorReAlloc st env p n =
      { r with events := .reallocn item.realAddress n env.raw :: r.events }) :
    ∃ st' t, Registers st c env gap st' .malloc t := by
  have hraw : env.raw ≠ 0 := hc.succeeds p n heff
  have hreal := (h.live p item hf).1
  have hfresh : env.raw ∉ st.live := raw_fresh hc.fresh hraw fun m hm => by
    rw [heff] at hm
    cases hm
    exact hmv rfl
  obtain ⟨s, hs, hne⟩ := hc.captured
  have hs' : env.stack = some s := hs
  obtain ⟨hcap, hnext, hdata⟩ := captured_spec st hs'
  have hlive : ((st.capture env).reallocn item.realAddress env.raw).live =
      insert env.raw (st.live.erase p) := by
    rw [reallocn_live _ _ _ hraw, hreal]
    rfl
  have hrem' := hrem
  rw [reallocn_eq, hlive, removeCorrespondingTrace_live] at hrem'
  obtain ⟨st₂, hrem₂, rfl⟩ : ∃ st₂, removeCorrespondingTrace (st.capture env) item.allocTrace =
      .ok st₂ ∧ st₁ = { st₂ with live := insert env.raw (st.live.erase p) } := by
    cases hok : removeCorrespondingTrace (st.capture env) item.allocTrace with
    | error pr =>
      rw [hok] at hrem'
      cases hrem'
    | ok st₂ =>
      rw [hok] at hrem'
      cases hrem'
      exact ⟨st₂, rfl, rfl⟩
  have hframe := removeCorrespondingTrace_frame hrem₂
  set moved : SMemoryItem := { item with status := .duringReallocChanged } with hmoved
  have hmoved' : moved.status ≠ .allocated := by
    rw [hmoved]
    simp [MemoryStatus.duringReallocChanged]
  have hret := (h.capture env).retire moved hf hst rfl hmoved' rfl hrem₂
  have hf₂ : (st₂.setMemoryItem p moved).findMemoryItem p = some moved := by
    refine findMemoryItem_setMemoryItem_self _ _ _ ?_
    have : st₂.findMemoryItem p = some item := by
      rw [hframe]
      exact hf
    simp [this]
  set st' := State.setMemoryItem { st₂ with live := insert env.raw (st.live.erase p) } p moved
    with hst'
  have hlive₂ : st₂.live = st.live := by
    rw [hframe]
    rfl
  have hinv' : LeakInv st' gap := by
    refine ⟨hret.outermost, hret.ndebug, hret.accounted.congr rfl rfl (Nat.le_refl _)
      (fun _ _ => rfl), ?_⟩
    refine hret.live.erase (p := p) ?_ rfl ?_
    · intro x hx
      rw [hf₂] at hx
      cases hx
      exact hmoved'
    · show (st₂.live).erase p ⊆ insert env.raw (st.live.erase p)
      rw [hlive₂]
      exact Finset.subset_insert _ _
  have hnext' : st'.traces.next = st.traces.next + 1 := by
    rw [← hnext, hst']
    show st₂.traces.next = _
    rw [hframe]
  have hdata' : st'.traces.data st.traces.next = s := by
    rw [← hdata, hst']
    show st₂.traces.data _ = _
    rw [hframe]
  refine ⟨st', st.traces.next, ?_⟩
  refine ⟨hinv', by omega, by rw [hdata', hs'], by rw [hdata']; exact hne, ?_, ?_, ?_, ?_,
    .reallocn item.realAddress n env.raw, by simp, ?_⟩
  · show st₂.unMaxNumberOfAllocFromTheSameStack = _
    rw [hframe]
    rfl
  · show env.raw ∈ insert env.raw (st.live.erase p)
    exact Finset.mem_insert_self _ _
  · intro old hold
    rw [hst', findMemoryItem_setMemoryItem_of_ne _ _ _ _ hmv] at hold
    refine old_not_allocated h.live hfresh old ?_
    rw [← hold]
    show st.findMemoryItem env.raw = st₂.findMemoryItem env.raw
    rw [hframe]
    rfl
  · simp only [State.countingEntry, heff, hf, hty, hst, hmv, ne_eq, not_false_eq_true, and_self,
      if_true, hrem, hcap]
    rw [hst', hmoved, hty]
  · rw [call_move heff, hr, hrr, hcap]

theorem LeakInv.step_move (h : LeakInv st gap) (hc : Tracked st (c, env)) {p : Addr} {n : ℕ}
    (heff : c.effect = .move p n) :
    LeakInv (step st (c, env)) (gapAfter st (c, env) gap) ∨
      ((step st (c, env)).process = .aborted ∧ ∃ s, 0 < gap s) := by
  obtain ⟨-, hp, hn⟩ := move_ne_zero heff
  have hinv := h.capture env
  have hraw : env.raw ≠ 0 := hc.succeeds p n heff
  rw [step_eq h.outermost, call_move heff]
  rcases testOperatorReAlloc_cases env h.outermost hp hn with ⟨hf, hr⟩ |
    ⟨item, hf, hty, hr⟩ | ⟨item, hf, hty, hst, hr⟩ | ⟨item, hf, hty, hst, hkeep, hr⟩ |
    ⟨item, pr, hf, hty, hst, hmv, hrem, hr⟩ | ⟨item, st₁, r, hf, hty, hst, hmv, hrem, hrr, hr⟩
  · -- no record: the pool or libc gets the address
    left
    rw [gapAfter_of_not (not_countsKnownStack (by simp [State.countingEntry, heff, hf])), hr]
    unfold reAllocUntracked
    cases env.initialRealloc with
    | some q => exact hinv
    | none =>
      refine ⟨⟨by simp [h.outermost.1], by simp [h.outermost.2]⟩, by simp [h.ndebug],
        hinv.accounted.congr (by simp) (by simp) (by simp) (by simp), ?_⟩
      refine h.live.erase (p := p) ?_ (by simp) ?_
      · intro item hitem
        rw [hf] at hitem
        cases hitem
      · rw [reallocn_live _ _ _ hraw]
        exact Finset.subset_insert _ _
  · left
    rw [gapAfter_of_not (not_countsKnownStack (by simp [State.countingEntry, heff, hf, hty])), hr]
    exact hinv.refused hc.refuses (by simp)
  · left
    rw [gapAfter_of_not (not_countsKnownStack (by simp [State.countingEntry, heff, hf, hst])), hr]
    exact hinv.refused hc.refuses (by simp)
  · left
    rw [gapAfter_of_not (not_countsKnownStack (by simp [State.countingEntry, heff, hf, hkeep])), hr]
    refine ⟨⟨by simp [h.outermost.1], by simp [h.outermost.2]⟩, by simp [h.ndebug],
      hinv.accounted.congr (by simp) (by simp) (by simp) (by simp), ?_⟩
    refine h.live.mono (by simp) ?_
    intro q hq
    show q ∈ ((st.capture env).reallocn item.realAddress env.raw).live
    rw [reallocn_live _ _ _ hraw, (h.live p item hf).1, hkeep]
    by_cases hqp : q = p
    · rw [hqp]
      exact Finset.mem_insert_self _ _
    · exact Finset.mem_insert_of_mem (Finset.mem_erase.mpr ⟨hqp, hq⟩)
  · right
    rw [reallocn_eq, removeCorrespondingTrace_live] at hrem
    rcases hinv.removal hf hst with ⟨st₁, hok⟩ | ⟨herr, hgap⟩
    · rw [hok] at hrem
      cases hrem
    · rw [herr] at hrem
      cases hrem
      exact ⟨by rw [hr]; rfl, hgap⟩
  · left
    obtain ⟨st', t, hreg⟩ := h.registers_move hc heff hf hty hst hmv hrem hrr hr
    have hstep := hreg.step h.outermost hc
    rw [step_eq h.outermost, call_move heff, hr] at hstep
    rw [hr]
    exact hstep

/-- One call of an accounted run: the invariant is kept, or the assertion fails because some block
was not counted. -/
theorem LeakInv.step (h : LeakInv st gap) (hc : Tracked st (c, env)) :
    LeakInv (Tracker.step st (c, env)) (gapAfter st (c, env) gap) ∨
      ((Tracker.step st (c, env)).process = .aborted ∧ ∃ s, 0 < gap s) := by
  cases heff : c.effect with
  | nothing =>
    left
    rw [step_eq h.outermost, (call_nothing h.outermost heff).1,
      gapAfter_of_not (not_countsKnownStack (by simp [State.countingEntry, heff]))]
    exact h
  | allocate ty => exact Or.inl (h.step_allocate hc heff)
  | move p n => exact h.step_move hc heff
  | release p ty => exact h.step_release hc heff
  | setMax n =>
    left
    rw [step_eq h.outermost, (call_setMax heff).1,
      gapAfter_of_not (not_countsKnownStack (by simp [State.countingEntry, heff]))]
    exact ⟨h.outermost, h.ndebug,
      h.accounted.congr rfl rfl (Nat.le_refl _) (fun _ _ => rfl), h.live⟩

end Step

end CrashInvestigator.Tracker
