import CrashInvestigator.Tracker.Proofs.CounterProofs
import CrashInvestigator.Tracker.Proofs.FailureProofs

/-!
# Allocation under memory exhaustion

A registration that fails half-way is not undone: the block stays live, its backtrace is not freed, and
the record of a block that could not be counted stays in the table.
-/

namespace CrashInvestigator.Tracker

open Library

/-! ## Statements -/

/-- The calls of `TestOperatorAlloc` and `TestOperatorCalloc`. -/
def Call.allocates : Call → Bool
  | .alloc _ _ _ | .calloc _ _ => true
  | _ => false

/-- How the caller asked to be told that an allocation failed. -/
def Call.failure : Call → Outcome
  | .alloc _ _ true => .throwsBadAlloc
  | _ => .returns 0

/-- The number of blocks that `m_stackItems` counts under stacks with the frames `s`. -/
def State.countedUnder (st : State) (s : Backtrace) : ℕ :=
  ((st.stackItems.filter fun e => decide (st.traces.data e.1 = s)).map Prod.snd).sum

/-- The call returns a block that is recorded as allocated and was counted under its stack. -/
def Res.Registers (st : State) (r : Res) : Prop :=
  ∃ p item t, r.out = .returns p ∧ p ≠ 0 ∧ r.st.findMemoryItem p = some item ∧
    item.status = .allocated ∧ item.allocTrace = some t ∧
    ∀ s, r.st.countedUnder s = st.countedUnder s + if r.st.traces.data t = s then 1 else 0

/-- The call fails as its caller asked, leaves both tables alone and keeps neither the block nor the
backtrace it obtained. -/
structure Res.FailsClean (st : State) (env : Env) (c : Call) (r : Res) : Prop where
  out : r.out = c.failure
  memoryItems : r.st.memoryItems = st.memoryItems
  stackItems : r.st.stackItems = st.stackItems
  payload : ∀ e ∈ r.events, e.isAllocation = true → env.raw ∉ r.st.live
  backtrace : ∀ t, st.traces.next ≤ t → t < r.st.traces.next → r.st.traces.frees t = 1

/-- The call does all it should or nothing, unless a leak report's callback ends the process. It never
dereferences a null backtrace. -/
def AllOrNothing (st : State) (env : Env) (c : Call) : Prop :=
  ((call st env c).Registers st ∨ (call st env c).FailsClean st env c ∨
      ∃ code, (call st env c).st.process = .exited code) ∧
    (call st env c).st.process ≠ .crashed

/-- The call has no block to register, or no request of the registration fails: the backtrace is
captured, a record is added or replaced, and the stack is added, or is known and counted under a positive
threshold. -/
def RegistrationSucceeds (st : State) (env : Env) (c : Call) : Prop :=
  c.effect = .nothing ∨ env.raw = 0 ∨
    ∃ t, st.captured env = some t ∧
      (env.memoryItem = true ∨ ∃ old, st.findMemoryItem env.raw = some old) ∧
      (((st.capture env).findStackItem t = none ∧ env.stackItem = true) ∨
        ((∃ e, (st.capture env).findStackItem t = some e) ∧
          0 < st.unMaxNumberOfAllocFromTheSameStack))

/-! ## Counting under a stack -/

section Counted

variable {st st' : State} {t n : ℕ} {e : ℕ × ℕ} {s : Backtrace}

theorem countedUnder_congr (hstk : st'.stackItems = st.stackItems)
    (hdata : ∀ e ∈ st.stackItems, st'.traces.data e.1 = st.traces.data e.1) :
    st'.countedUnder s = st.countedUnder s := by
  unfold State.countedUnder
  rw [hstk]
  congr 2
  refine List.filter_congr fun e he => ?_
  rw [hdata e he]

theorem countedUnder_add : ({ st with stackItems := (t, 1) :: st.stackItems } : State).countedUnder s =
    st.countedUnder s + if st.traces.data t = s then 1 else 0 := by
  unfold State.countedUnder
  by_cases ht : st.traces.data t = s
  · simp [ht, Nat.add_comm]
  · simp [ht]

/-- The counter of the stack is that of the frames of the stack. -/
theorem countedUnder_increment (hf : st.findStackItem t = some e) :
    (st.setStackItem t (e.2 + 1)).countedUnder s =
      st.countedUnder s + if st.traces.data t = s then 1 else 0 := by
  have htest : isTheSameStack (st.traces.data e.1) (st.traces.data t) = true :=
    Entries.findEntry_test hf
  have hsame : st.traces.data e.1 = st.traces.data t := (isTheSameStack_iff.mp htest).2
  have hsum : (st.setStackItem t (e.2 + 1)).countedUnder s +
      (if decide (st.traces.data e.1 = s) then e.2 else 0) =
        st.countedUnder s + if decide (st.traces.data e.1 = s) then e.2 + 1 else 0 :=
    Entries.sum_filter_setFirst (fun k => decide (st.traces.data k = s)) hf
  rw [hsame] at hsum
  by_cases hs : st.traces.data t = s
  · simp only [hs, decide_true, if_true] at hsum ⊢
    omega
  · simp only [hs, decide_false, Bool.false_eq_true, if_false] at hsum ⊢
    omega

end Counted

/-! ## The counting of a block -/

section Counting

variable {st : State} {env : Env} {p : Addr} {t : ℕ}

/-- A counting that adds an entry, or increments one under a positive threshold: the block is counted
under its stack, and the call returns or the callback of its report ends the process. -/
theorem registerStackItem_completes (hrun : st.process = .running) (item : SMemoryItem)
    (h : (st.findStackItem t = none ∧ env.stackItem = true) ∨
      ((∃ e, st.findStackItem t = some e) ∧ 0 < st.unMaxNumberOfAllocFromTheSameStack)) {r : Res}
    (hr : r = registerStackItem st env item p (some t)) :
    (∀ s, r.st.countedUnder s = st.countedUnder s + if st.traces.data t = s then 1 else 0) ∧
      ((r.out = .returns p ∧ r.st.process = .running) ∨ ∃ code, r.st.process = .exited code) := by
  rcases registerStackItem_cases st env item p t with ⟨-, -, hc⟩ | ⟨hf, hgrow, -⟩ |
    ⟨e, hf, hz, -⟩ | ⟨e, hf, -, hc⟩ | ⟨e, hf, -, -, r', hr', hc⟩
  · rw [hr, hc]
    exact ⟨fun s => countedUnder_add, Or.inl ⟨rfl, hrun⟩⟩
  · rcases h with ⟨-, hg⟩ | ⟨⟨e, he⟩, -⟩
    · rw [hgrow] at hg
      cases hg
    · rw [hf] at he
      cases he
  · rcases h with ⟨hn, -⟩ | ⟨-, hpos⟩
    · rw [hf] at hn
      cases hn
    · omega
  · rw [hr, hc]
    exact ⟨fun s => countedUnder_increment hf, Or.inl ⟨rfl, hrun⟩⟩
  · obtain ⟨-, hstk, -, -, -, -, hdata⟩ := initFailure_frame (by simp) hr'
    have hst : r.st = r'.st := by
      rw [hr, hc]
      split_ifs <;> rfl
    constructor
    · intro s
      rw [hst, ← countedUnder_increment hf]
      exact countedUnder_congr hstk fun x _ => by rw [hdata]
    · rw [hst]
      rcases initFailure_process (by simp) hr' with hsame | ⟨-, hend⟩
      · have hgo : r'.st.process = .running := hsame.trans hrun
        rw [hr, hc, if_pos hgo]
        exact Or.inl ⟨rfl, hgo⟩
      · exact Or.inr ⟨1, hend⟩

/-- A counting that can do neither: it throws, or returns the block uncounted. -/
theorem registerStackItem_uncounted (item : SMemoryItem)
    (h : ¬ ((st.findStackItem t = none ∧ env.stackItem = true) ∨
      ((∃ e, st.findStackItem t = some e) ∧ 0 < st.unMaxNumberOfAllocFromTheSameStack))) :
    (registerStackItem st env item p (some t)).st = st ∧
      ((registerStackItem st env item p (some t)).out = .throwsBadAlloc ∨
        (registerStackItem st env item p (some t)).out = .returns p) := by
  rcases registerStackItem_cases st env item p t with ⟨hf, hg, -⟩ | ⟨-, -, hc⟩ |
    ⟨e, -, -, hc⟩ | ⟨e, hf, hlt, -⟩ | ⟨e, hf, hpos, -⟩
  · exact absurd (Or.inl ⟨hf, hg⟩) h
  · rw [hc]
    exact ⟨rfl, Or.inl rfl⟩
  · rw [hc]
    exact ⟨rfl, Or.inr rfl⟩
  · exact absurd (Or.inr ⟨⟨e, hf⟩, by omega⟩) h
  · exact absurd (Or.inr ⟨⟨e, hf⟩, hpos⟩) h

end Counting

/-! ## Allocations -/

section Allocations

variable {st : State} {env : Env} {c : Call} {ty : MemoryType}

/-- An allocation without a block to register fails, and leaves the state alone. -/
theorem call_without_block (ho : st.Outermost) (hc : c.allocates = true)
    (h : c.effect = .nothing ∨ env.raw = 0) :
    (call st env c).st = st ∧ (call st env c).out = c.failure := by
  obtain ⟨-, hf⟩ := ho
  cases c with
  | alloc n t b =>
    by_cases hn : n = 0
    · cases b <;> simp [call, testOperatorAlloc, hf, hn, nullOrThrow, Call.failure]
    · have hraw : env.raw = 0 := h.resolve_left (by simp [Call.effect, hn])
      cases b <;> simp [call, testOperatorAlloc, hf, hn, hraw, nullOrThrow, Call.failure]
  | calloc m n =>
    by_cases hn : m * n % sizeModulus = 0
    · simp [call, testOperatorCalloc, hf, hn, nullOrThrow, Call.failure]
    · have hraw : env.raw = 0 := h.resolve_left (by simp [Call.effect, hn])
      simp [call, testOperatorCalloc, hf, hn, hraw, nullOrThrow, Call.failure]
  | reAlloc p n => cases hc
  | delete p t => cases hc
  | setMaxAllowedAllocInTheSameStack n => cases hc

/-- Such an allocation keeps nothing. -/
theorem failsClean_of_nothing (hs : Sound st) (ho : st.Outermost) (hc : c.allocates = true)
    (h : c.effect = .nothing ∨ env.raw = 0) : (call st env c).FailsClean st env c := by
  obtain ⟨hst, hout⟩ := call_without_block ho hc h
  refine ⟨hout, by rw [hst], by rw [hst], fun e he hal => ?_, fun t hle hlt => ?_⟩
  · rcases h with h | hraw
    · rw [(call_nothing ho h).2] at he
      cases he
    · rw [hst, hraw]
      exact hs.null
  · rw [hst] at hlt
    omega

/-- What an allocation with a block does to the state. -/
theorem call_allocate_body (ho : st.Outermost) (heff : c.effect = .allocate ty)
    (hraw : env.raw ≠ 0) {r : Res}
    (hr : r = addNewAllocatedMemoryAndCleanOldEntryNoLock ((st.mallocn env.raw).capture env) env ty
      env.raw (st.captured env)) :
    (call st env c).st = r.st ∧ (call st env c).out = r.out ∧
      ∃ e ∈ (call st env c).events, e.isAllocation = true := by
  obtain ⟨e, he, hcall⟩ := call_allocate ho heff hraw
  have hreg : addNewAllocatedMemoryAndCleanOldEntry (st.mallocn env.raw) env ty env.raw = r := by
    rw [hr, ← captured_mallocn env.raw]
    rfl
  rw [hcall, hreg]
  exact ⟨rfl, rfl, e, List.mem_cons_self .., he⟩

theorem allocates_effect (hc : c.allocates = true) (h : c.effect ≠ .nothing) :
    ∃ ty, c.effect = .allocate ty := by
  cases c with
  | alloc n t b =>
    by_cases hn : n = 0
    · simp [Call.effect, hn] at h
    · exact ⟨t, by simp [Call.effect, hn]⟩
  | calloc m n =>
    by_cases hn : m * n % sizeModulus = 0
    · simp [Call.effect, hn] at h
    · exact ⟨.malloc, by simp [Call.effect, hn]⟩
  | reAlloc p n => cases hc
  | delete p t => cases hc
  | setMaxAllowedAllocInTheSameStack n => cases hc

/-- What the counting of a block sees of the state before the call. -/
structure Recorded (st : State) (env : Env) (st₁ : State) : Prop where
  counted : ∀ s, st₁.countedUnder s = st.countedUnder s
  find : ∀ t, st₁.findStackItem t = (st.capture env).findStackItem t
  threshold : st₁.unMaxNumberOfAllocFromTheSameStack = st.unMaxNumberOfAllocFromTheSameStack
  process : st₁.process = st.process
  live : env.raw ∈ st₁.live

theorem registerMemoryItem_recorded {st₁ : State} {item : SMemoryItem} (hs : Sound st)
    (hraw : env.raw ≠ 0)
    (hreg : registerMemoryItem ((st.mallocn env.raw).capture env) env env.raw item = some st₁) :
    Recorded st env st₁ := by
  obtain ⟨hstk, hlive, hproc, -, -, hmax, -, hdata⟩ := registerMemoryItem_frame hreg
  have hstk' : st₁.stackItems = st.stackItems := by simpa using hstk
  have hdata' : st₁.traces.data = (st.capture env).traces.data := by
    rw [hdata]
    simp [State.capture]
  refine ⟨fun s => ?_, fun t => ?_, by simpa using hmax, by simpa using hproc, ?_⟩
  · refine countedUnder_congr hstk' fun e he => ?_
    rw [hdata']
    exact initBacktrace_data_of_lt _ _ (hs.keys e he)
  · exact findStackItem_congr (hstk'.trans capture_stackItems.symm) hdata' t
  · rw [hlive, capture_live, mallocn_live _ _ hraw]
    exact Finset.mem_insert_self _ _

/-- A registration that fails half-way keeps the block, or dereferences null. -/
theorem addNew_halfway (hs : Sound st) (ho : st.Outermost) (hraw : env.raw ≠ 0)
    (hno : ¬ RegistrationSucceeds st env c) {r : Res}
    (hr : r = addNewAllocatedMemoryAndCleanOldEntryNoLock ((st.mallocn env.raw).capture env) env ty
      env.raw (st.captured env)) :
    r.st.process = .crashed ∨ (r.st.process = .running ∧ env.raw ∈ r.st.live ∧
      (r.out = .throwsBadAlloc ∨ ∀ s, r.st.countedUnder s = st.countedUnder s)) := by
  rcases addNew_cases ((st.mallocn env.raw).capture env) env ty env.raw (st.captured env) with
    ⟨-, hc⟩ | ⟨st₁, hreg, hc⟩
  · right
    rw [hr, hc]
    refine ⟨by simpa using ho.1, ?_, Or.inl rfl⟩
    rw [capture_live, mallocn_live _ _ hraw]
    exact Finset.mem_insert_self _ _
  · have hrec := registerMemoryItem_recorded hs hraw hreg
    cases ht : st.captured env with
    | none =>
      left
      rw [hr, hc, ht]
      rfl
    | some t =>
      right
      rw [ht] at hc
      have hstack : ¬ ((st₁.findStackItem t = none ∧ env.stackItem = true) ∨
          ((∃ e, st₁.findStackItem t = some e) ∧
            0 < st₁.unMaxNumberOfAllocFromTheSameStack)) := by
        rw [hrec.find, hrec.threshold]
        intro hstack
        refine hno (Or.inr (Or.inr ⟨t, ht, ?_, hstack⟩))
        rcases registerMemoryItem_cases hreg with ⟨-, hg, -⟩ | ⟨old, hf, -⟩
        · exact Or.inl hg
        · exact Or.inr ⟨old, by simpa [State.findMemoryItem] using hf⟩
      obtain ⟨hst, hout⟩ := registerStackItem_uncounted (p := env.raw)
        ⟨ty, .allocated, env.raw, some t, none⟩ hstack
      rw [hr, ht, hc, hst]
      refine ⟨hrec.process.trans ho.1, hrec.live, ?_⟩
      rcases hout with hout | -
      · exact Or.inl hout
      · exact Or.inr hrec.counted

/-- A registration that does not fail half-way registers the block, or the callback of its report ends
the process. -/
theorem addNew_completes (hs : Sound st) (ho : st.Outermost) (hraw : env.raw ≠ 0) {t : ℕ}
    (ht : st.captured env = some t)
    (hrecord : env.memoryItem = true ∨ ∃ old, st.findMemoryItem env.raw = some old)
    (hstack : ((st.capture env).findStackItem t = none ∧ env.stackItem = true) ∨
      ((∃ e, (st.capture env).findStackItem t = some e) ∧
        0 < st.unMaxNumberOfAllocFromTheSameStack)) {r : Res}
    (hr : r = addNewAllocatedMemoryAndCleanOldEntryNoLock ((st.mallocn env.raw).capture env) env ty
      env.raw (st.captured env)) :
    (r.Registers st ∧ r.st.process = .running) ∨ ∃ code, r.st.process = .exited code := by
  have hrun : ((st.mallocn env.raw).capture env).process = .running := by simpa using ho.1
  rcases addNew_cases ((st.mallocn env.raw).capture env) env ty env.raw (st.captured env) with
    ⟨hnone, -⟩ | ⟨st₁, hreg, hc⟩
  · obtain ⟨hf, hg⟩ := registerMemoryItem_none_iff.mp hnone
    rcases hrecord with hg' | ⟨old, hold⟩
    · rw [hg] at hg'
      cases hg'
    · have hf' : st.findMemoryItem env.raw = none := by simpa [State.findMemoryItem] using hf
      rw [hold] at hf'
      cases hf'
  · have hrec := registerMemoryItem_recorded hs hraw hreg
    rw [← hrec.find, ← hrec.threshold] at hstack
    have hr' : r = registerStackItem st₁ env ⟨ty, .allocated, env.raw, some t, none⟩ env.raw
        (some t) := by rw [hr, hc, ht]
    obtain ⟨hcount, ⟨hout, hgo⟩ | hexit⟩ :=
      registerStackItem_completes (hrec.process.trans ho.1) _ hstack hr'
    · have hdata : r.st.traces.data = st₁.traces.data := by
        rw [hr', (registerStackItem_records ..).2.2]
      rw [hr] at hout
      obtain ⟨-, -, hfind⟩ := addNew_returns hrun hout
      rw [← hr] at hout hfind
      refine Or.inl ⟨⟨env.raw, _, t, hout, hraw, by rw [hfind, if_pos rfl], rfl, ht, fun s => ?_⟩, hgo⟩
      rw [hcount, hrec.counted, hdata]
    · exact Or.inr hexit

/-! ## Main result -/

theorem allOrNothing_of_nothing (hs : Sound st) (ho : st.Outermost) (hc : c.allocates = true)
    (h : c.effect = .nothing ∨ env.raw = 0) : AllOrNothing st env c := by
  refine ⟨Or.inr (Or.inl (failsClean_of_nothing hs ho hc h)), ?_⟩
  rw [(call_without_block ho hc h).1, ho.1]
  simp

/-- A block that is kept after a failed registration is neither registered nor given back. -/
theorem not_allOrNothing_of_halfway (hs : Sound st) (ho : st.Outermost)
    (hty : c.effect = .allocate ty) (hraw : env.raw ≠ 0) (hno : ¬ RegistrationSucceeds st env c) :
    ¬ AllOrNothing st env c := by
  obtain ⟨hst, hout, e, he, hal⟩ := call_allocate_body ho hty hraw rfl
  rintro ⟨hcase, hcrash⟩
  rcases addNew_halfway hs ho hraw hno rfl with hcr | ⟨hrun, hlive, hkept⟩
  · exact hcrash (by rw [hst, hcr])
  · rcases hcase with ⟨p, item, t, hp, -, -, -, -, hcount⟩ | hclean | ⟨code, hexit⟩
    · rw [hout] at hp
      rcases hkept with hthrow | hsame
      · rw [hthrow] at hp
        cases hp
      · have h := hcount ((call st env c).st.traces.data t)
        rw [hst, hsame, if_pos rfl] at h
        omega
    · exact hclean.payload e he hal (by rw [hst]; exact hlive)
    · rw [hst, hrun] at hexit
      cases hexit

theorem allOrNothing_of_completes (ho : st.Outermost) (hty : c.effect = .allocate ty)
    (hraw : env.raw ≠ 0) {r : Res}
    (hr : r = addNewAllocatedMemoryAndCleanOldEntryNoLock ((st.mallocn env.raw).capture env) env ty
      env.raw (st.captured env))
    (h : (r.Registers st ∧ r.st.process = .running) ∨ ∃ code, r.st.process = .exited code) :
    AllOrNothing st env c := by
  obtain ⟨hst, hout, -⟩ := call_allocate_body ho hty hraw hr
  unfold AllOrNothing Res.Registers
  rw [hst, hout]
  rcases h with ⟨hreg, hrun⟩ | ⟨code, hexit⟩
  · exact ⟨Or.inl hreg, by simp [hrun]⟩
  · exact ⟨Or.inr (Or.inr ⟨code, hexit⟩), by simp [hexit]⟩

/-- All or nothing holds exactly of the allocations whose registration does not fail half-way. -/
theorem all_or_nothing_iff (hreach : Reachable st) (ho : st.Outermost) (env : Env)
    (hc : c.allocates = true) :
    AllOrNothing st env c ↔ RegistrationSucceeds st env c := by
  have hs := hreach.sound
  by_cases hnothing : c.effect = .nothing ∨ env.raw = 0
  · exact iff_of_true (allOrNothing_of_nothing hs ho hc hnothing) (hnothing.imp_right Or.inl)
  · push Not at hnothing
    obtain ⟨heff, hraw⟩ := hnothing
    obtain ⟨ty, hty⟩ := allocates_effect hc heff
    constructor
    · intro hall
      by_contra hno
      exact not_allOrNothing_of_halfway hs ho hty hraw hno hall
    · rintro (h | h | ⟨t, ht, hrecord, hstack⟩)
      · exact absurd h heff
      · exact absurd h hraw
      · refine allOrNothing_of_completes ho hty hraw rfl ?_
        exact addNew_completes hs ho hraw ht hrecord hstack rfl

/-- The table of the memory items cannot grow, but the address has a record already. -/
theorem all_or_nothing_reissued :
    let st := Runs.final step .init
      [(.alloc 8 .new true, .giving 16 [7] .doNotMakeActionToPreventCrash),
        (.delete 16 .new, .giving 0 [8] .doNotMakeActionToPreventCrash)]
    let env : Env := { Env.giving 16 [9] .doNotMakeActionToPreventCrash with memoryItem := false }
    AllOrNothing st env (.calloc 2 4) := by
  intro st env
  refine (all_or_nothing_iff ⟨_, rfl⟩ (by decide) env rfl).mpr (Or.inr (Or.inr ⟨2, rfl, ?_, ?_⟩))
  · exact Or.inr ⟨_, rfl⟩
  · exact Or.inl ⟨rfl, rfl⟩

/-- The table of the memory items cannot grow: the call throws where null was asked for, and the block
stays live. The backtrace cannot be captured: null is dereferenced. -/
theorem exhausted_alloc_keeps_block :
    let env : Env := { Env.giving 16 [7] .doNotMakeActionToPreventCrash with memoryItem := false }
    let env' : Env := { Env.giving 16 [7] .doNotMakeActionToPreventCrash with stack := none }
    ¬ AllOrNothing .init env (.alloc 8 .malloc false) ∧
      (call .init env (.alloc 8 .malloc false)).out = .throwsBadAlloc ∧
      16 ∈ (call .init env (.alloc 8 .malloc false)).st.live ∧
      ¬ AllOrNothing .init env' (.alloc 8 .malloc false) ∧
      (call .init env' (.alloc 8 .malloc false)).st.process = .crashed := by
  intro env env'
  refine ⟨?_, rfl, by decide, fun h => h.2 rfl, rfl⟩
  rintro ⟨⟨p, item, t, hp, -⟩ | hclean | ⟨code, hexit⟩, -⟩
  · cases hp
  · cases hclean.out
  · cases hexit

end Allocations

end CrashInvestigator.Tracker
