import CrashInvestigator.Tracker.Proofs.FailureProofs

/-!
# Tracker and allocator

A block is recorded as allocated exactly when it is live in the raw allocator, as long as the tool
performs no action of its own on a block whose record it leaves as it is.
-/

namespace CrashInvestigator.Tracker

open Library

/-- `a` is recorded with status `Allocated`. -/
def State.RecordedAllocated (st : State) (a : Addr) : Prop :=
  ∃ item, st.findMemoryItem a = some item ∧ item.status = .allocated

instance (st : State) (a : Addr) : Decidable (st.RecordedAllocated a) :=
  decidable_of_iff ((st.findMemoryItem a).map (·.status) = some .allocated) (by
    rw [Option.map_eq_some_iff]
    rfl)

/-- The records and the raw allocator agree. -/
def State.AgreesWithAllocator (st : State) : Prop :=
  ∀ a, st.RecordedAllocated a ↔ a ∈ st.live

/-- Only the reports of a type error may be answered with `MakeAction`. -/
def ActsOnTypeErrorsOnly (env : Env) : Prop :=
  ∀ d, env.clbkFnc d = .makeAction →
    d.failureType = .freeMissmatch ∨ d.failureType = .badReallocCreatedByWrongAlloc

/-- Pointers passed to a release or realloc were issued by the tracker. -/
def PassesIssued (st : State) (c : Call) : Prop :=
  (∀ p t, c.effect = .release p t → (st.findMemoryItem p).isSome) ∧
    ∀ p n, c.effect = .move p n → (st.findMemoryItem p).isSome

/-- The block that an event hands to raw `freen` or `reallocn`. -/
def Event.touches : Event → Option Addr
  | .freen p | .reallocn p _ _ => some p
  | _ => none

theorem Event.isAllocation.touches_none {e : Event} (h : e.isAllocation = true) :
    e.touches = none := by
  cases e <;> first | rfl | cases h

/-- Raw `freen` and `reallocn` are called on live blocks only. -/
def TouchesLiveOnly (st : State) (r : Res) : Prop :=
  ∀ e ∈ r.events, ∀ q, e.touches = some q → q ∈ st.live

/-- A registration of `q` finds its record or can add one. -/
def CanRecord (st : State) (env : Env) (q : Addr) : Prop :=
  env.memoryItem = true ∨ (st.findMemoryItem q).isSome

/-- What a call must avoid for its records to stay right: the tool does not free a block of another
type, reallocates such a block only when it is allocated and stays in place, no raw `reallocn` of an
allocated block fails, and the table can grow when it has to. -/
structure KeepsAgreement (st : State) (c : Call × Env) : Prop where
  mismatch : ∀ p t item, c.1.effect = .release p t → st.findMemoryItem p = some item →
    item.status = .allocated → item.type ≠ t →
    c.2.clbkFnc (failureData (st.capture c.2) c.2 item .notProvided p 0 .freeMissmatch
      (st.captured c.2)) ≠ .makeAction
  wrongAlloc : ∀ p n item, c.1.effect = .move p n → st.findMemoryItem p = some item →
    item.type ≠ .malloc →
    c.2.clbkFnc (failureData (st.capture c.2) c.2 item .notProvided p n
      .badReallocCreatedByWrongAlloc (st.captured c.2)) = .makeAction →
    item.status = .allocated ∧ (c.2.raw = 0 ∨ c.2.raw = p)
  succeeds : ∀ p n item, c.1.effect = .move p n → st.findMemoryItem p = some item →
    item.type = .malloc → item.status = .allocated → c.2.raw ≠ 0
  records : RegistersBlock st c → CanRecord st c.2 c.2.raw

section

variable {st st' : State} {env : Env} {p : Addr}

/-- A report of anything but a type error is not acted on. -/
theorem ActsOnTypeErrorsOnly.refuses (hacts : ActsOnTypeErrorsOnly env) {d : FailureData}
    (h₁ : d.failureType ≠ .freeMissmatch)
    (h₂ : d.failureType ≠ .badReallocCreatedByWrongAlloc) : env.clbkFnc d ≠ .makeAction := by
  intro hact
  rcases hacts d hact with h | h
  · exact h₁ h
  · exact h₂ h

/-- A report that goes on and is not acted on changes neither the records nor the live blocks. -/
theorem initFailure_noAction {item : SMemoryItem} {freeType : MemoryType} {n : ℕ}
    {failureType : FailureType} {bt : BacktracePtr} (hft : failureType ≠ .unknown) {r : Res}
    (hr : r = initFailureDataAndCallClbk st env item freeType p n failureType bt)
    (hno : env.clbkFnc (failureData st env item freeType p n failureType bt) ≠ .makeAction)
    (hrun : r.st.process = .running) :
    r.st.memoryItems = st.memoryItems ∧ r.st.live = st.live ∧ ∀ e ∈ r.events, e.touches = none := by
  obtain ⟨data, hdata, ⟨hans, -⟩ | ⟨-, hi⟩ | ⟨-, -, hi⟩⟩ :=
    initFailure_cases st env item freeType p n failureType bt hft
  · rw [hdata] at hans
    exact absurd hans hno
  · rw [hr, hi]
    exact ⟨rfl, rfl, by simp [Event.touches]⟩
  · rw [hr, hi] at hrun
    cases hrun

/-- A registration touches a block only through `MakeAction` on its report. -/
theorem addNew_live (hacts : ActsOnTypeErrorsOnly env) {ty : MemoryType} {bt : BacktracePtr}
    {r : Res} (hr : r = addNewAllocatedMemoryAndCleanOldEntryNoLock st env ty p bt)
    (hrun : r.st.process = .running) :
    r.st.live = st.live ∧ ∀ e ∈ r.events, e.touches = none := by
  have hsilent : ∀ r : Res, r.events = [] → ∀ e ∈ r.events, e.touches = none := by
    intro r hev
    simp [hev]
  rcases addNew_cases st env ty p bt with ⟨-, hr'⟩ | ⟨st₁, hreg, hr'⟩
  · rw [hr, hr']
    exact ⟨rfl, hsilent _ rfl⟩
  · obtain ⟨-, hlive, -⟩ := registerMemoryItem_frame hreg
    rw [hr'] at hr
    subst hr
    cases bt with
    | none => cases hrun
    | some t =>
      rcases registerStackItem_cases st₁ env ⟨ty, .allocated, p, some t, none⟩ p t with
        ⟨-, -, hs⟩ | ⟨-, -, hs⟩ | ⟨e, -, -, hs⟩ | ⟨e, -, -, hs⟩ | ⟨e, -, -, -, r, hrr, hs⟩
      · rw [hs]
        exact ⟨hlive, hsilent _ rfl⟩
      · rw [hs]
        exact ⟨hlive, hsilent _ rfl⟩
      · rw [hs]
        exact ⟨hlive, hsilent _ rfl⟩
      · rw [hs]
        exact ⟨hlive, hsilent _ rfl⟩
      · have hst : (registerStackItem st₁ env ⟨ty, .allocated, p, some t, none⟩ p
            (some t)).st = r.st := by
          rw [hs]
          split_ifs <;> rfl
        rw [hst] at hrun
        rw [hs, if_pos hrun]
        have hno : env.clbkFnc (failureData (st₁.setStackItem t (e.2 + 1)) env
            ⟨ty, .allocated, p, some t, none⟩ ty p 0 .possibilityOfMemoryLeak (some t)) ≠
            .makeAction :=
          hacts.refuses (by intro h; cases h) (by intro h; cases h)
        obtain ⟨-, hl, htouch⟩ := initFailure_noAction (by simp) hrr hno hrun
        exact ⟨hl.trans hlive, htouch⟩

/-- A registration records the block when it can, and nothing else. -/
theorem addNew_find {ty : MemoryType} {bt : BacktracePtr} (hcan : CanRecord st env p) (a : Addr) :
    (addNewAllocatedMemoryAndCleanOldEntryNoLock st env ty p bt).st.findMemoryItem a =
      if a = p then some ⟨ty, .allocated, p, bt, none⟩ else st.findMemoryItem a := by
  rcases addNew_cases st env ty p bt with ⟨hnone, -⟩ | ⟨st₁, hreg, hr⟩
  · exfalso
    unfold registerMemoryItem at hnone
    split at hnone
    · rename_i hfind
      rcases hcan with hgrow | hsome
      · rw [if_pos hgrow] at hnone
        cases hnone
      · rw [hfind] at hsome
        cases hsome
    · cases hnone
  · rw [hr]
    rw [registerStackItem_find, registerMemoryItem_find hreg]

/-- A registration that cannot record its block leaves it without a record. -/
theorem addNew_find_of_not {ty : MemoryType} {bt : BacktracePtr} (hcan : ¬ CanRecord st env p) :
    (addNewAllocatedMemoryAndCleanOldEntryNoLock st env ty p bt).st.findMemoryItem p = none := by
  have hgrow : env.memoryItem = false := by
    cases h : env.memoryItem with
    | false => rfl
    | true => exact absurd (Or.inl h) hcan
  have hfind : st.findMemoryItem p = none := by
    cases h : st.findMemoryItem p with
    | none => rfl
    | some item => exact absurd (Or.inr (by simp [h])) hcan
  have hreg : registerMemoryItem st env p ⟨ty, .allocated, p, bt, none⟩ = none := by
    unfold registerMemoryItem
    rw [hfind]
    simp [hgrow]
  simp only [addNewAllocatedMemoryAndCleanOldEntryNoLock, hreg]
  exact hfind

/-! ## What a call does to the records and the live blocks -/

/-- The records and the live blocks of `st` and `st'` are the same. -/
def State.SameBlocks (st st' : State) : Prop :=
  (∀ a, st'.findMemoryItem a = st.findMemoryItem a) ∧ st'.live = st.live

theorem sameBlocks_of_eq (hmem : st'.memoryItems = st.memoryItems) (hlive : st'.live = st.live) :
    st.SameBlocks st' := by
  exact ⟨findMemoryItem_congr hmem, hlive⟩

theorem TouchesLiveOnly.of_none {r : Res} (h : ∀ e ∈ r.events, e.touches = none) :
    TouchesLiveOnly st r := by
  intro e he q hq
  rw [h e he] at hq
  cases hq

theorem touchesLiveOnly_nil {r : Res} (h : r.events = []) : TouchesLiveOnly st r := by
  simp [TouchesLiveOnly, h]

/-- A removal that fails ends the process. -/
theorem removeCorrespondingTrace_error {bt : BacktracePtr} {pr : Process}
    (h : removeCorrespondingTrace st bt = .error pr) : pr ≠ .running := by
  unfold removeCorrespondingTrace at h
  split at h
  · cases h
    simp
  · split at h
    · cases h
      split_ifs <;> simp
    · split_ifs at h
      cases h
      simp

/-- The release of an issued block in a process that goes on. -/
theorem release_blocks (ho : st.Outermost) (hacts : ActsOnTypeErrorsOnly env) (hp : p ≠ 0)
    {t : MemoryType} {item : SMemoryItem} (hf : st.findMemoryItem p = some item) {r : Res}
    (hr : r = testOperatorDelete st env p t) (hrun : r.st.process = .running) :
    (item.status ≠ .allocated ∧ st.SameBlocks r.st ∧ TouchesLiveOnly st r) ∨
      (item.status = .allocated ∧ item.type ≠ t ∧
        env.clbkFnc (failureData (st.capture env) env item .notProvided p 0 .freeMissmatch
          (st.captured env)) ≠ .makeAction ∧ st.SameBlocks r.st ∧ TouchesLiveOnly st r) ∨
      (item.status = .allocated ∧ item.type ≠ t ∧
        env.clbkFnc (failureData (st.capture env) env item .notProvided p 0 .freeMissmatch
          (st.captured env)) = .makeAction ∧
        (∀ a, r.st.findMemoryItem a = st.findMemoryItem a) ∧ r.st.live = st.live.erase p) ∨
      (item.status = .allocated ∧ item.type = t ∧ (∃ item', item'.status ≠ .allocated ∧
        item'.realAddress = item.realAddress ∧
        ∀ a, r.st.findMemoryItem a = if a = p then some item' else st.findMemoryItem a) ∧
        r.st.live = st.live.erase item.realAddress ∧ r.events = [.freen item.realAddress]) := by
  rcases testOperatorDelete_cases env ho hp t with ⟨hf', -⟩ | ⟨item', hf', hst, hr'⟩ |
    ⟨item', pr, hf', hst, hrem, hr'⟩ | ⟨item', st₁, hf', hst, hrem, hty, hr'⟩ |
    ⟨item', st₁, hf', hst, hrem, hty, hr'⟩
  · rw [hf] at hf'
    cases hf'
  · rw [hf] at hf'
    cases hf'
    left
    have hno : env.clbkFnc (failureData (st.capture env) env item .notProvided p 0 .doubleFree
        (st.captured env)) ≠ .makeAction :=
      hacts.refuses (by intro h; cases h) (by intro h; cases h)
    obtain ⟨hmem, hlive, htouch⟩ := initFailure_noAction (by simp) (hr.trans hr') hno hrun
    exact ⟨hst, sameBlocks_of_eq hmem hlive, .of_none htouch⟩
  · exfalso
    rw [hr, hr'] at hrun
    exact removeCorrespondingTrace_error hrem hrun
  · rw [hf] at hf'
    cases hf'
    have hframe := removeCorrespondingTrace_frame hrem
    have hdata : failureData st₁ env item .notProvided p 0 .freeMissmatch (st.captured env) =
        failureData (st.capture env) env item .notProvided p 0 .freeMissmatch (st.captured env) := by
      rw [hframe]
      rfl
    by_cases hact : env.clbkFnc (failureData (st.capture env) env item .notProvided p 0
        .freeMissmatch (st.captured env)) = .makeAction
    · right; right; left
      refine ⟨hst, hty, hact, ?_⟩
      obtain ⟨data, hd, ⟨-, hi⟩ | ⟨hans, -⟩ | ⟨hans, -, -⟩⟩ := initFailure_cases st₁ env item
        .notProvided p 0 .freeMissmatch (st.captured env) (by simp)
      · rw [hr, hr', hi, hframe]
        exact ⟨fun a => rfl, rfl⟩
      · rw [hd, hdata, hact] at hans
        cases hans
      · rw [hd, hdata] at hans
        exact absurd hact hans
    · right; left
      obtain ⟨hmem, hlive, htouch⟩ := initFailure_noAction (by simp) (hr.trans hr')
        (by rw [hdata]; exact hact) hrun
      have hlive₁ : st₁.live = st.live := by
        rw [hframe]
        rfl
      have hmem₁ : st₁.memoryItems = st.memoryItems := by
        rw [hframe]
        rfl
      exact ⟨hst, hty, hact, sameBlocks_of_eq (hmem.trans hmem₁) (hlive.trans hlive₁),
        TouchesLiveOnly.of_none htouch⟩
  · rw [hf] at hf'
    cases hf'
    right; right; right
    have hframe := removeCorrespondingTrace_frame hrem
    set released : SMemoryItem := { item with
      status := .deallocated, deallocTrace := st.captured env } with hrel
    refine ⟨hst, hty, ⟨released, by simp [hrel], rfl, ?_⟩, ?_, ?_⟩
    · intro a
      rw [hr, hr']
      show (st₁.setMemoryItem p released).findMemoryItem a = _
      have hfind : ∀ b, st₁.findMemoryItem b = st.findMemoryItem b := by
        intro b
        rw [hframe]
        rfl
      rw [findMemoryItem_setMemoryItem _ _ _ (by rw [hfind, hf]; rfl), hfind]
    · rw [hr, hr']
      show st₁.live.erase item.realAddress = _
      rw [hframe]
      rfl
    · rw [hr, hr']

/-- The realloc of an issued block in a process that goes on. -/
theorem move_blocks (ho : st.Outermost) (hacts : ActsOnTypeErrorsOnly env) (hp : p ≠ 0) {n : ℕ}
    (hn : n ≠ 0) {item : SMemoryItem} (hf : st.findMemoryItem p = some item) {r : Res}
    (hr : r = testOperatorReAlloc st env p n) (hrun : r.st.process = .running) :
    (item.type ≠ .malloc ∧
        env.clbkFnc (failureData (st.capture env) env item .notProvided p n
          .badReallocCreatedByWrongAlloc (st.captured env)) ≠ .makeAction ∧
        st.SameBlocks r.st ∧ TouchesLiveOnly st r) ∨
      (item.type ≠ .malloc ∧
        env.clbkFnc (failureData (st.capture env) env item .notProvided p n
          .badReallocCreatedByWrongAlloc (st.captured env)) = .makeAction ∧
        (∀ a, r.st.findMemoryItem a = st.findMemoryItem a) ∧
        r.st.live = (st.reallocn p env.raw).live ∧
        ∃ d, d.failureType = .badReallocCreatedByWrongAlloc ∧
          r.events = [.clbkFnc d .makeAction, .reallocn p n env.raw]) ∨
      (item.type = .malloc ∧ item.status ≠ .allocated ∧ st.SameBlocks r.st ∧
        TouchesLiveOnly st r) ∨
      (item.type = .malloc ∧ item.status = .allocated ∧ env.raw = p ∧
        (∀ a, r.st.findMemoryItem a = st.findMemoryItem a) ∧
        r.st.live = (st.reallocn item.realAddress env.raw).live ∧
        r.events = [.reallocn item.realAddress n env.raw]) ∨
      (item.type = .malloc ∧ item.status = .allocated ∧ env.raw ≠ p ∧
        ∃ st' r' moved, st'.live = (st.reallocn item.realAddress env.raw).live ∧
          moved.status ≠ .allocated ∧ moved.realAddress = item.realAddress ∧
          (∀ a, st'.findMemoryItem a = if a = p then some moved else st.findMemoryItem a) ∧
          r' = addNewAllocatedMemoryAndCleanOldEntryNoLock st' env .malloc env.raw
            (st.captured env) ∧
          r = { r' with events := .reallocn item.realAddress n env.raw :: r'.events }) := by
  rcases testOperatorReAlloc_cases env ho hp hn with ⟨hf', -⟩ | ⟨item', hf', hty, hr'⟩ |
    ⟨item', hf', hty, hst, hr'⟩ | ⟨item', hf', hty, hst, hkeep, hr'⟩ |
    ⟨item', pr, hf', hty, hst, hmv, hrem, hr'⟩ | ⟨item', st₁, r', hf', hty, hst, hmv, hrem, hrr, hr'⟩
  · rw [hf] at hf'
    cases hf'
  · rw [hf] at hf'
    cases hf'
    by_cases hact : env.clbkFnc (failureData (st.capture env) env item .notProvided p n
        .badReallocCreatedByWrongAlloc (st.captured env)) = .makeAction
    · right; left
      refine ⟨hty, hact, ?_⟩
      obtain ⟨data, hd, ⟨-, hi⟩ | ⟨hans, -⟩ | ⟨hans, -, -⟩⟩ := initFailure_cases (st.capture env) env
        item .notProvided p n .badReallocCreatedByWrongAlloc (st.captured env) (by simp)
      · rw [hr, hr', hi]
        simp only [FailureType.actionIsRealloc, if_true]
        refine ⟨fun a => ?_, ?_, data, by rw [hd]; rfl, rfl⟩
        · show ((st.capture env).reallocn p env.raw).findMemoryItem a = _
          rw [reallocn_eq]
          rfl
        · show ((st.capture env).reallocn p env.raw).live = _
          unfold State.reallocn
          split_ifs <;> rfl
      · rw [hd, hact] at hans
        cases hans
      · rw [hd] at hans
        exact absurd hact hans
    · left
      obtain ⟨hmem, hlive, htouch⟩ := initFailure_noAction (by simp) (hr.trans hr') hact hrun
      exact ⟨hty, hact, sameBlocks_of_eq hmem hlive, .of_none htouch⟩
  · rw [hf] at hf'
    cases hf'
    right; right; left
    have hno : env.clbkFnc (failureData (st.capture env) env item .notProvided p n
        .badReallocDeletedMem (st.captured env)) ≠ .makeAction :=
      hacts.refuses (by intro h; cases h) (by intro h; cases h)
    obtain ⟨hmem, hlive, htouch⟩ := initFailure_noAction (by simp) (hr.trans hr') hno hrun
    exact ⟨hty, hst, sameBlocks_of_eq hmem hlive, .of_none htouch⟩
  · rw [hf] at hf'
    cases hf'
    right; right; right; left
    refine ⟨hty, hst, hkeep, fun a => ?_, ?_, by rw [hr, hr']⟩
    · rw [hr, hr']
      show ((st.capture env).reallocn item.realAddress env.raw).findMemoryItem a = _
      rw [reallocn_eq]
      rfl
    · rw [hr, hr']
      show ((st.capture env).reallocn item.realAddress env.raw).live = _
      unfold State.reallocn
      split_ifs <;> rfl
  · exfalso
    rw [hr, hr'] at hrun
    exact removeCorrespondingTrace_error hrem hrun
  · rw [hf] at hf'
    cases hf'
    right; right; right; right
    have hframe := removeCorrespondingTrace_frame hrem
    set moved : SMemoryItem := { item with status := .duringReallocChanged } with hmoved
    have hfind : ∀ a, st₁.findMemoryItem a = st.findMemoryItem a := by
      intro a
      rw [hframe, reallocn_eq]
      rfl
    refine ⟨hty, hst, hmv, st₁.setMemoryItem p moved, r', moved, ?_, ?_, rfl, fun a => ?_, hrr,
      by rw [hr, hr']⟩
    · show st₁.live = _
      rw [hframe]
      show ((st.capture env).reallocn item.realAddress env.raw).live = _
      unfold State.reallocn
      split_ifs <;> rfl
    · simp [hmoved, MemoryStatus.duringReallocChanged]
    · rw [findMemoryItem_setMemoryItem _ _ _ (by rw [hfind, hf]; rfl), hfind]

/-- An allocation whose raw request succeeded registers the block. -/
theorem allocate_blocks (ho : st.Outermost) {c : Call} {t : MemoryType}
    (heff : c.effect = .allocate t) (hraw : env.raw ≠ 0) :
    ∃ st' r' e bt, st'.live = insert env.raw st.live ∧
      (∀ a, st'.findMemoryItem a = st.findMemoryItem a) ∧
      r' = addNewAllocatedMemoryAndCleanOldEntryNoLock st' env t env.raw bt ∧
      e.isAllocation = true ∧ call st env c = { r' with events := e :: r'.events } := by
  obtain ⟨e, he, hcall⟩ := call_allocate ho heff hraw
  refine ⟨(st.mallocn env.raw).capture env, _, e, (st.mallocn env.raw).captured env,
    mallocn_live st env.raw hraw, fun a => ?_, rfl, he, hcall⟩
  show (st.mallocn env.raw).findMemoryItem a = _
  rw [mallocn_eq]
  rfl

/-! ## The invariant -/

/-- A record table and a set of live blocks agree, and every record holds its own address. -/
structure BlocksAgree (find : Addr → Option SMemoryItem) (live : Finset Addr) : Prop where
  agrees : ∀ a, (∃ item, find a = some item ∧ item.status = .allocated) ↔ a ∈ live
  real : ∀ p item, find p = some item → item.realAddress = p

section Blocks

variable {find find' : Addr → Option SMemoryItem} {live : Finset Addr} {item item' : SMemoryItem}

theorem BlocksAgree.live_of_allocated (h : BlocksAgree find live) (hf : find p = some item)
    (hst : item.status = .allocated) : p ∈ live :=
  (h.agrees p).mp ⟨item, hf, hst⟩

theorem BlocksAgree.real_update (h : BlocksAgree find live)
    (hfind : ∀ a, find' a = if a = p then some item' else find a)
    (hreal : item'.realAddress = p) : ∀ q x, find' q = some x → x.realAddress = q := by
  intro q x hx
  rw [hfind] at hx
  split_ifs at hx with hq
  · cases hx
    rw [hq]
    exact hreal
  · exact h.real q x hx

/-- A block is released in both views. -/
theorem BlocksAgree.retire (h : BlocksAgree find live)
    (hfind : ∀ a, find' a = if a = p then some item' else find a)
    (hst : item'.status ≠ .allocated) (hreal : item'.realAddress = p) :
    BlocksAgree find' (live.erase p) := by
  refine ⟨fun a => ?_, h.real_update hfind hreal⟩
  rw [hfind, Finset.mem_erase]
  split_ifs with ha
  · constructor
    · rintro ⟨x, hx, hal⟩
      cases hx
      exact absurd hal hst
    · rintro ⟨hne, -⟩
      exact absurd ha hne
  · constructor
    · intro hal
      exact ⟨ha, (h.agrees a).mp hal⟩
    · rintro ⟨-, hal⟩
      exact (h.agrees a).mpr hal

/-- A block is issued in both views. -/
theorem BlocksAgree.issue (h : BlocksAgree find live)
    (hfind : ∀ a, find' a = if a = p then some item' else find a)
    (hst : item'.status = .allocated) (hreal : item'.realAddress = p) :
    BlocksAgree find' (insert p live) := by
  refine ⟨fun a => ?_, h.real_update hfind hreal⟩
  rw [hfind, Finset.mem_insert]
  split_ifs with ha
  · exact ⟨fun _ => Or.inl ha, fun _ => ⟨item', rfl, hst⟩⟩
  · constructor
    · intro hal
      exact Or.inr ((h.agrees a).mp hal)
    · rintro (hal | hal)
      · exact absurd hal ha
      · exact (h.agrees a).mpr hal

end Blocks

/-- The invariant of a run in which records and allocator agree. -/
structure AgreeInv (st : State) : Prop where
  outermost : st.Outermost
  sound : Sound st
  blocks : BlocksAgree st.findMemoryItem st.live

theorem AgreeInv.init : AgreeInv .init := by
  refine ⟨⟨rfl, rfl⟩, Sound.init, fun a => ?_, fun p item hf => ?_⟩
  · constructor
    · rintro ⟨item, hf, -⟩
      cases hf
    · intro h
      simp [State.init] at h
  · cases hf

theorem BlocksAgree.same (h : BlocksAgree st.findMemoryItem st.live) (hsame : st.SameBlocks st') :
    BlocksAgree st'.findMemoryItem st'.live := by
  have hfind : st'.findMemoryItem = st.findMemoryItem := funext hsame.1
  rw [hfind, hsame.2]
  exact h

/-- A registration issues its block in both views. -/
theorem BlocksAgree.addNew {live : Finset Addr} (h : BlocksAgree st.findMemoryItem live)
    (hlive : st.live = insert p live) (hacts : ActsOnTypeErrorsOnly env) (hcan : CanRecord st env p)
    {ty : MemoryType} {bt : BacktracePtr} {r : Res}
    (hr : r = addNewAllocatedMemoryAndCleanOldEntryNoLock st env ty p bt)
    (hrun : r.st.process = .running) : BlocksAgree r.st.findMemoryItem r.st.live := by
  obtain ⟨hl, -⟩ := addNew_live hacts hr hrun
  rw [hl, hlive]
  subst hr
  exact h.issue (addNew_find hcan) rfl rfl

/-- The calls the agreement is about: actions on type errors only, issued pointers, and a process that
goes on. -/
structure IssuedCall (st : State) (c : Call × Env) : Prop where
  acts : ActsOnTypeErrorsOnly c.2
  issued : PassesIssued st c.1
  running : (step st c).process = .running

/-- The events before a registration and those of the registration. -/
theorem TouchesLiveOnly.cons {r : Res} {e : Event} (he : ∀ q, e.touches = some q → q ∈ st.live)
    (h : ∀ e' ∈ r.events, e'.touches = none) :
    TouchesLiveOnly st { r with events := e :: r.events } := by
  intro e' he' q hq
  rcases List.mem_cons.mp he' with rfl | hmem
  · exact he q hq
  · rw [h e' hmem] at hq
    cases hq

/-- Whether a block can be recorded depends on its record and the table only. -/
theorem CanRecord.congr {q : Addr} (hfind : st'.findMemoryItem q = st.findMemoryItem q) :
    CanRecord st' env q ↔ CanRecord st env q := by
  unfold CanRecord
  rw [hfind]

/-- A call leaves records and live blocks in agreement, and touches live blocks only. -/
def Res.Good (st : State) (r : Res) : Prop :=
  BlocksAgree r.st.findMemoryItem r.st.live ∧ TouchesLiveOnly st r

theorem AgreeInv.release_good (h : AgreeInv st) {c : Call} (hv : IssuedCall st (c, env))
    (hk : KeepsAgreement st (c, env)) (hrun : (call st env c).st.process = .running) {t : MemoryType}
    (heff : c.effect = .release p t) : (call st env c).Good st := by
  have hp := (release_ne_zero heff).1
  obtain ⟨item, hf⟩ := Option.isSome_iff_exists.mp (hv.issued.1 p t heff)
  rw [call_release h.outermost heff] at hrun ⊢
  rcases release_blocks h.outermost hv.acts hp hf rfl hrun with ⟨-, hsame, htouch⟩ |
    ⟨-, -, -, hsame, htouch⟩ | ⟨hst, hty, hact, -⟩ |
    ⟨hst, -, ⟨item', hst', hreal', hfind⟩, hlive, hev⟩
  · exact ⟨h.blocks.same hsame, htouch⟩
  · exact ⟨h.blocks.same hsame, htouch⟩
  · exact absurd hact (hk.mismatch p t item heff hf hst hty)
  · have hreal := h.blocks.real p item hf
    have hlive_p := h.blocks.live_of_allocated hf hst
    rw [hreal] at hreal' hlive hev
    refine ⟨?_, by simp [TouchesLiveOnly, Event.touches, hev, hlive_p]⟩
    rw [hlive]
    exact h.blocks.retire hfind hst' hreal'

theorem AgreeInv.move_good (h : AgreeInv st) {c : Call} (hv : IssuedCall st (c, env))
    (hk : KeepsAgreement st (c, env)) (hrun : (call st env c).st.process = .running) {n : ℕ}
    (heff : c.effect = .move p n) : (call st env c).Good st := by
  obtain ⟨-, hp, hn⟩ := move_ne_zero heff
  obtain ⟨item, hf⟩ := Option.isSome_iff_exists.mp (hv.issued.2 p n heff)
  have hreal := h.blocks.real p item hf
  rw [call_move heff] at hrun ⊢
  rcases move_blocks h.outermost hv.acts hp hn hf rfl hrun with ⟨-, -, hsame, htouch⟩ |
    ⟨hty, hact, hfind, hlive, d, -, hev⟩ | ⟨-, -, hsame, htouch⟩ |
    ⟨hty, hst, hkeep, hfind, hlive, hev⟩ |
    ⟨hty, hst, hmv, st', r', moved, hlive', hst', hreal', hfind', hr', hr⟩
  · exact ⟨h.blocks.same hsame, htouch⟩
  · -- the tool reallocates the block in place, or fails to
    obtain ⟨hst, hraw⟩ := hk.wrongAlloc p n item heff hf hty hact
    have hlive_p := h.blocks.live_of_allocated hf hst
    refine ⟨h.blocks.same ⟨hfind, ?_⟩, by simp [TouchesLiveOnly, Event.touches, hev, hlive_p]⟩
    rw [hlive]
    rcases hraw with hraw | hraw
    · have hraw' : env.raw = 0 := hraw
      rw [hraw', reallocn_null]
    · have hraw' : env.raw = p := hraw
      rw [hraw', reallocn_live st p p hp, Finset.insert_erase hlive_p]
  · exact ⟨h.blocks.same hsame, htouch⟩
  · have hlive_p := h.blocks.live_of_allocated hf hst
    rw [hreal] at hlive hev
    refine ⟨h.blocks.same ⟨hfind, ?_⟩, by simp [TouchesLiveOnly, Event.touches, hev, hlive_p]⟩
    rw [hlive, hkeep, reallocn_live st p p hp, Finset.insert_erase hlive_p]
  · -- the block moves: released under its old address, issued under the new one
    have hlive_p := h.blocks.live_of_allocated hf hst
    have hraw : env.raw ≠ 0 := hk.succeeds p n item heff hf hty hst
    have hcan : CanRecord st' env env.raw := by
      refine (CanRecord.congr ?_).mpr (hk.records (Or.inr ⟨p, n, item, heff, hf, hty, hst, hmv⟩))
      rw [hfind', if_neg hmv]
    rw [hreal] at hlive' hreal' hr
    rw [reallocn_live st p env.raw hraw] at hlive'
    rw [hr] at hrun ⊢
    have herased : BlocksAgree st'.findMemoryItem (st.live.erase p) :=
      h.blocks.retire hfind' hst' hreal'
    have hnew : BlocksAgree r'.st.findMemoryItem r'.st.live :=
      herased.addNew hlive' hv.acts hcan hr' hrun
    refine ⟨hnew, TouchesLiveOnly.cons ?_ ?_⟩
    · intro q hq
      cases hq
      exact hlive_p
    · exact (addNew_live hv.acts hr' hrun).2

theorem AgreeInv.allocate_good (h : AgreeInv st) {c : Call} (hv : IssuedCall st (c, env))
    (hk : KeepsAgreement st (c, env)) (hrun : (call st env c).st.process = .running) {t : MemoryType}
    (heff : c.effect = .allocate t) : (call st env c).Good st := by
  by_cases hraw : env.raw = 0
  · obtain ⟨hst, hev⟩ := call_allocate_null h.outermost heff hraw
    unfold Res.Good
    rw [hst]
    refine ⟨h.blocks, .of_none fun e he => ?_⟩
    exact Event.isAllocation.touches_none (hev e he)
  · obtain ⟨st', r', e, bt, hlive', hfind', hr', he, hcall⟩ :=
      allocate_blocks h.outermost heff hraw
    have hcan : CanRecord st' env env.raw :=
      (CanRecord.congr (hfind' env.raw)).mpr (hk.records (Or.inl ⟨t, heff, hraw⟩))
    rw [hcall] at hrun ⊢
    have hblocks : BlocksAgree st'.findMemoryItem st.live := by
      rw [funext hfind']
      exact h.blocks
    have hnew : BlocksAgree r'.st.findMemoryItem r'.st.live :=
      hblocks.addNew hlive' hv.acts hcan hr' hrun
    refine ⟨hnew, TouchesLiveOnly.cons ?_ ?_⟩
    · intro q hq
      rw [Event.isAllocation.touches_none he] at hq
      cases hq
    · exact (addNew_live hv.acts hr' hrun).2

/-- A call that keeps the agreement keeps the invariant, and touches live blocks only. -/
theorem AgreeInv.step_good (h : AgreeInv st) {c : Call} (hv : IssuedCall st (c, env))
    (hk : KeepsAgreement st (c, env)) :
    AgreeInv (step st (c, env)) ∧ TouchesLiveOnly st (call st env c) := by
  have hs : Sound (step st (c, env)) := h.sound.step (c, env)
  have ho : (step st (c, env)).Outermost := ⟨hv.running, hs.flag⟩
  have hrun := hv.running
  rw [step_eq h.outermost] at hrun
  suffices hgood : (call st env c).Good st by
    refine ⟨⟨ho, hs, ?_⟩, hgood.2⟩
    rw [step_eq h.outermost]
    exact hgood.1
  cases heff : c.effect with
  | nothing =>
    have hnothing : (call st env c).st = st ∧ (call st env c).events = [] :=
      call_nothing h.outermost heff
    obtain ⟨hst, hev⟩ := hnothing
    refine ⟨?_, touchesLiveOnly_nil hev⟩
    rw [hst]
    exact h.blocks
  | setMax n =>
    have hset : (call st env c).st = { st with unMaxNumberOfAllocFromTheSameStack := n } ∧
        (call st env c).events = [] := call_setMax heff
    obtain ⟨hst, hev⟩ := hset
    refine ⟨h.blocks.same ?_, touchesLiveOnly_nil hev⟩
    rw [hst]
    exact ⟨fun _ => rfl, rfl⟩
  | release p t => exact h.release_good hv hk hrun heff
  | move p n => exact h.move_good hv hk hrun heff
  | allocate t => exact h.allocate_good hv hk hrun heff

/-- Raw `freen` and `reallocn` get live blocks, or the call reports that the block is gone. -/
def ReportsDead (st : State) (c : Call × Env) : Prop :=
  TouchesLiveOnly st (call st c.2 c.1) ∨ (call st c.2 c.1).Reports .doubleFree ∨
    (call st c.2 c.1).Reports .badReallocDeletedMem

/-! ## What a call that ends in agreement has avoided -/

/-- A registration that cannot record its block breaks the agreement. -/
theorem canRecord_of_agrees (hacts : ActsOnTypeErrorsOnly env) {ty : MemoryType} {bt : BacktracePtr}
    {r : Res} (hr : r = addNewAllocatedMemoryAndCleanOldEntryNoLock st env ty p bt)
    (hrun : r.st.process = .running) (hlive : p ∈ st.live) (hq : r.st.AgreesWithAllocator) :
    CanRecord st env p := by
  by_contra hcan
  have hin : p ∈ r.st.live := by
    rw [(addNew_live hacts hr hrun).1]
    exact hlive
  obtain ⟨item, hf, -⟩ := (hq p).mpr hin
  have hnone : r.st.findMemoryItem p = none := by
    rw [hr]
    exact addNew_find_of_not hcan
  rw [hnone] at hf
  cases hf

section Agrees

variable {c : Call} (h : AgreeInv st) (hv : IssuedCall st (c, env))
  (hrun : (call st env c).st.process = .running) (hq : (call st env c).st.AgreesWithAllocator)

include h hv hrun hq

theorem AgreeInv.succeeds_of_agrees {n : ℕ} {item : SMemoryItem} (heff : c.effect = .move p n)
    (hf : st.findMemoryItem p = some item) (hty : item.type = .malloc)
    (hst : item.status = .allocated) : env.raw ≠ 0 := by
  intro hraw
  obtain ⟨-, hp, hn⟩ := move_ne_zero heff
  rw [call_move heff] at hrun hq
  have hlive_p := h.blocks.live_of_allocated hf hst
  rcases move_blocks h.outermost hv.acts hp hn hf rfl hrun with ⟨hty', -⟩ | ⟨hty', -⟩ |
    ⟨-, hst', -⟩ | ⟨-, -, hkeep, -⟩ |
    ⟨-, -, hmv, st', r', moved, hlive', hst', -, hfind', hr', hr⟩
  · exact hty' hty
  · exact hty' hty
  · exact hst' hst
  · exact hp (hkeep.symm.trans hraw)
  · -- the block stays live, but its record is given up
    rw [hr] at hrun hq
    have hlive_r : p ∈ r'.st.live := by
      rw [(addNew_live hv.acts hr' hrun).1, hlive', hraw, reallocn_null]
      exact hlive_p
    obtain ⟨item', hf', hal⟩ := (hq p).mpr hlive_r
    have hmoved : r'.st.findMemoryItem p = some moved := by
      rw [hr', addNew_find_of_ne hmv.symm, hfind', if_pos rfl]
    have hf'' : r'.st.findMemoryItem p = some item' := hf'
    rw [hmoved] at hf''
    cases hf''
    exact hst' hal

theorem AgreeInv.mismatch_of_agrees {t : MemoryType} {item : SMemoryItem}
    (heff : c.effect = .release p t) (hf : st.findMemoryItem p = some item)
    (hst : item.status = .allocated) (hty : item.type ≠ t) :
    env.clbkFnc (failureData (st.capture env) env item .notProvided p 0 .freeMissmatch
      (st.captured env)) ≠ .makeAction := by
  intro hact
  rw [call_release h.outermost heff] at hrun hq
  rcases release_blocks h.outermost hv.acts (release_ne_zero heff).1 hf rfl hrun with ⟨hst', -⟩ |
    ⟨-, -, hno, -⟩ | ⟨-, -, -, hfind, hlive⟩ | ⟨-, hty', -⟩
  · exact hst' hst
  · exact hno hact
  · have hin := (hq p).mp ⟨item, (hfind p).trans hf, hst⟩
    rw [hlive] at hin
    exact Finset.notMem_erase p _ hin
  · exact hty hty'

theorem AgreeInv.wrongAlloc_of_agrees (hd : ReportsDead st (c, env)) {n : ℕ} {item : SMemoryItem}
    (heff : c.effect = .move p n) (hf : st.findMemoryItem p = some item)
    (hty : item.type ≠ .malloc)
    (hact : env.clbkFnc (failureData (st.capture env) env item .notProvided p n
      .badReallocCreatedByWrongAlloc (st.captured env)) = .makeAction) :
    item.status = .allocated ∧ (env.raw = 0 ∨ env.raw = p) := by
  obtain ⟨-, hp, hn⟩ := move_ne_zero heff
  unfold ReportsDead at hd
  simp only at hd
  rw [call_move heff] at hrun hq hd
  rcases move_blocks h.outermost hv.acts hp hn hf rfl hrun with ⟨-, hno, -⟩ |
    ⟨-, -, hfind, hlive, d, hdt, hev⟩ | ⟨hty', -⟩ | ⟨hty', -⟩ | ⟨hty', -⟩
  · exact absurd hact hno
  · -- neither of the two reports was made, so the block was live
    have hother : ∀ ft, ft ≠ .badReallocCreatedByWrongAlloc →
        ¬ (testOperatorReAlloc st env p n).Reports ft := by
      rintro ft hft ⟨d', a, hmem, hd'⟩
      rw [hev] at hmem
      simp only [List.mem_cons, Event.clbkFnc.injEq, List.not_mem_nil, or_false, reduceCtorEq]
        at hmem
      rw [hmem.1, hdt] at hd'
      exact hft hd'.symm
    have hlive_p : p ∈ st.live := by
      rcases hd with htouch | hrep | hrep
      · exact htouch (.reallocn p n env.raw) (by simp [hev]) p rfl
      · exact absurd hrep (hother _ (by simp))
      · exact absurd hrep (hother _ (by simp))
    obtain ⟨item', hf', hst⟩ := (h.blocks.agrees p).mpr hlive_p
    rw [hf] at hf'
    cases hf'
    refine ⟨hst, ?_⟩
    by_contra hraw
    obtain ⟨hraw0, hrawp⟩ := not_or.mp hraw
    have hin := (hq p).mp ⟨item, (hfind p).trans hf, hst⟩
    rw [hlive, reallocn_live st p env.raw hraw0, Finset.mem_insert] at hin
    rcases hin with hin | hin
    · exact hrawp hin.symm
    · exact Finset.notMem_erase p _ hin
  · exact absurd hty' hty
  · exact absurd hty' hty
  · exact absurd hty' hty

theorem AgreeInv.records_of_agrees (hreg : RegistersBlock st (c, env)) :
    CanRecord st env env.raw := by
  rcases hreg with ⟨t, heff, hraw⟩ | ⟨p, n, item, heff, hf, hty, hst, hmv⟩
  · have hraw' : env.raw ≠ 0 := hraw
    obtain ⟨st', r', e, bt, hlive', hfind', hr', -, hcall⟩ :=
      allocate_blocks h.outermost heff hraw'
    rw [hcall] at hrun hq
    refine (CanRecord.congr (hfind' env.raw)).mp (canRecord_of_agrees hv.acts hr' hrun ?_ hq)
    rw [hlive']
    exact Finset.mem_insert_self _ _
  · have hraw : env.raw ≠ 0 := h.succeeds_of_agrees hv hrun hq heff hf hty hst
    have hmv' : env.raw ≠ p := hmv
    obtain ⟨-, hp, hn⟩ := move_ne_zero heff
    rw [call_move heff] at hrun hq
    rcases move_blocks h.outermost hv.acts hp hn hf rfl hrun with ⟨hty', -⟩ | ⟨hty', -⟩ |
      ⟨-, hst', -⟩ | ⟨-, -, hkeep, -⟩ | ⟨-, -, -, st', r', moved, hlive', -, -, hfind', hr', hr⟩
    · exact absurd hty hty'
    · exact absurd hty hty'
    · exact absurd hst hst'
    · exact absurd hkeep hmv'
    · rw [hr] at hrun hq
      have hsame : st'.findMemoryItem env.raw = st.findMemoryItem env.raw := by
        rw [hfind', if_neg hmv']
      refine (CanRecord.congr hsame).mp (canRecord_of_agrees hv.acts hr' hrun ?_ hq)
      rw [hlive', reallocn_live st _ env.raw hraw]
      exact Finset.mem_insert_self _ _

end Agrees

/-- A call that ends in agreement, and did not touch a dead block unreported, keeps the agreement. -/
theorem AgreeInv.keeps_of_agrees (h : AgreeInv st) {c : Call} (hv : IssuedCall st (c, env))
    (hq : (step st (c, env)).AgreesWithAllocator) (hd : ReportsDead st (c, env)) :
    KeepsAgreement st (c, env) := by
  have hrun := hv.running
  rw [step_eq h.outermost] at hrun hq
  refine ⟨?_, ?_, ?_, h.records_of_agrees hv hrun hq⟩
  · intro p t item heff hf hst hty
    exact h.mismatch_of_agrees hv hrun hq heff hf hst hty
  · intro p n item heff hf hty hact
    exact h.wrongAlloc_of_agrees hv hrun hq hd heff hf hty hact
  · intro p n item heff hf hty hst
    exact h.succeeds_of_agrees hv hrun hq heff hf hty hst

end

/-! ## Runs -/

/-- In a run on issued blocks that goes on, the records agree with the raw allocator in every state,
and no released address reaches raw `freen` or `reallocn` unreported, exactly when every call avoids
the actions and failures that `KeepsAgreement` excludes. -/
theorem agreement_iff {cs : List (Call × Env)} (h : Runs.Along step IssuedCall .init cs) :
    (Runs.Always step State.AgreesWithAllocator .init cs ∧
        Runs.Along step ReportsDead .init cs) ↔
      Runs.Along step KeepsAgreement .init cs := by
  refine Runs.always_and_along_iff (I := AgreeInv) (fun st hI a => hI.blocks.agrees a) ?_ ?_ ?_
    AgreeInv.init h
  · rintro st ⟨c, env⟩ hI hv hk
    exact (hI.step_good hv hk).1
  · rintro st ⟨c, env⟩ hI hv hk
    exact Or.inl (hI.step_good hv hk).2
  · rintro st ⟨c, env⟩ hI hv hk
    by_cases hq : (step st (c, env)).AgreesWithAllocator
    · exact Or.inr fun hd => hk (hI.keeps_of_agrees hv hq hd)
    · exact Or.inl hq

theorem actsOnTypeErrorsOnly_refusing (raw : Addr) (frames : List ℕ) :
    ActsOnTypeErrorsOnly (.giving raw frames .doNotMakeActionToPreventCrash) := by
  intro d h
  cases h

theorem passesIssued_alloc {st : State} {n : ℕ} {t : MemoryType} {b : Bool} (hn : n ≠ 0) :
    PassesIssued st (.alloc n t b) := by
  refine ⟨fun p t h => ?_, fun p n h => ?_⟩
  · simp [Call.effect, hn] at h
  · simp [Call.effect, hn] at h

theorem passesIssued_delete {st : State} {p : Addr} {t : MemoryType}
    (h : (st.findMemoryItem p).isSome) : PassesIssued st (.delete p t) := by
  refine ⟨fun q t' heff => ?_, fun q n heff => absurd heff delete_ne_move⟩
  rw [release_of_delete heff]
  exact h

/-- A block that is issued, released, and released again. -/
def issuedRun : List (Call × Env) :=
  [(.alloc 8 .malloc false, .giving 16 [7] .doNotMakeActionToPreventCrash),
    (.delete 16 .malloc, .giving 0 [8] .doNotMakeActionToPreventCrash),
    (.delete 16 .malloc, .giving 0 [8] .doNotMakeActionToPreventCrash)]

theorem agreement_iff_issuedRun :
    (Runs.Always step State.AgreesWithAllocator .init issuedRun ∧
        Runs.Along step ReportsDead .init issuedRun) ↔
      Runs.Along step KeepsAgreement .init issuedRun :=
  agreement_iff
    ⟨⟨actsOnTypeErrorsOnly_refusing _ _, passesIssued_alloc (by decide), rfl⟩,
      ⟨actsOnTypeErrorsOnly_refusing _ _, passesIssued_delete rfl, rfl⟩,
      ⟨actsOnTypeErrorsOnly_refusing _ _, passesIssued_delete rfl, rfl⟩, trivial⟩

/-- The answer `MakeAction` to a type error, and to nothing else. -/
def Env.acting (raw : Addr) (frames : List ℕ) : Env :=
  { Env.giving raw frames .doNotMakeActionToPreventCrash with
    clbkFnc := fun d =>
      if d.failureType = .freeMissmatch then .makeAction else .doNotMakeActionToPreventCrash }

/-- Two blocks of `new` with one stack; the tool frees the first one on a type error, and frees it
again, unreported, when the program releases it properly. -/
theorem agreement_fails_on_action :
    ∃ cs, Runs.Along step IssuedCall .init cs ∧
      ¬ Runs.Always step State.AgreesWithAllocator .init cs ∧
      ¬ Runs.Along step ReportsDead .init cs := by
  have hacts : ActsOnTypeErrorsOnly (.acting 0 [8]) := by
    intro d h
    left
    by_contra hne
    simp [Env.acting, hne] at h
  refine ⟨[(.alloc 8 .new true, .giving 16 [7] .doNotMakeActionToPreventCrash),
    (.alloc 8 .new true, .giving 32 [7] .doNotMakeActionToPreventCrash),
    (.delete 16 .malloc, .acting 0 [8]),
    (.delete 16 .new, .giving 0 [8] .doNotMakeActionToPreventCrash)],
    ⟨⟨actsOnTypeErrorsOnly_refusing _ _, passesIssued_alloc (by decide), rfl⟩,
      ⟨actsOnTypeErrorsOnly_refusing _ _, passesIssued_alloc (by decide), rfl⟩,
      ⟨hacts, passesIssued_delete rfl, rfl⟩,
      ⟨actsOnTypeErrorsOnly_refusing _ _, passesIssued_delete rfl, rfl⟩, trivial⟩, ?_, ?_⟩
  · rintro ⟨-, -, -, hq, -⟩
    have hin := (hq 16).mp ⟨_, rfl, rfl⟩
    revert hin
    decide
  · rintro ⟨-, -, -, hd, -⟩
    rcases hd with htouch | ⟨d, a, hmem, -⟩ | ⟨d, a, hmem, -⟩
    · have hin := htouch (.freen 16) (List.mem_singleton_self _) 16 rfl
      revert hin
      decide
    · cases List.mem_singleton.mp hmem
    · cases List.mem_singleton.mp hmem

end CrashInvestigator.Tracker
