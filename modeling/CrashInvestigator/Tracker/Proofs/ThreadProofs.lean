import CrashInvestigator.Tracker.Threads
import CrashInvestigator.Tracker.Proofs.FailureProofs

/-!
# Leak accounting over interleavings

A thread that waits between its two steps holds one block: the one it is about to register, or the
one it is about to free. No other thread touches the record of a held block or gives the block away,
so the accounting invariant of the sequential tracker is kept by every step of every thread.
-/

namespace CrashInvestigator.Tracker.Threads

open Library

/-! ## The two steps of a call -/

section Split

variable {st : Tracker.State} {env : Env}

/-- The locked part of a release ends the call, unless it takes the record of an allocated block out
of the accounting and leaves the block to be freed. -/
theorem deleteLocked_cases (ho : st.Outermost) {p : Addr} (hp : p ≠ 0) (ty : MemoryType) :
    deleteLocked st env p ty = (testOperatorDelete st env p ty, .idle) ∨
      ∃ item st₁, st.findMemoryItem p = some item ∧ item.status = .allocated ∧
        removeCorrespondingTrace (st.capture env) item.allocTrace = .ok st₁ ∧ item.type = ty ∧
        deleteLocked st env p ty = (⟨st₁.setMemoryItem p { item with
            status := .deallocated, deallocTrace := st.captured env }, .returns 0, []⟩,
          .freen item.realAddress) := by
  rcases testOperatorDelete_cases env ho hp ty with ⟨hf, hr⟩ | ⟨item, hf, hst, hr⟩ |
    ⟨item, pr, hf, hst, hrem, hr⟩ | ⟨item, st₁, hf, hst, hrem, hty, hr⟩ |
    ⟨item, st₁, hf, hst, hrem, hty, -⟩
  · exact Or.inl (by simp [hr, deleteLocked, hf])
  · exact Or.inl (by simp [hr, deleteLocked, hf, hst])
  · exact Or.inl (by simp [hr, deleteLocked, hf, hst, hrem])
  · exact Or.inl (by simp [hr, deleteLocked, hf, hst, hrem, hty])
  · exact Or.inr ⟨item, st₁, hf, hst, hrem, hty, by simp [deleteLocked, hf, hst, hrem, hty]⟩

/-- A release that nothing comes between is `TestOperatorDelete`. -/
theorem resume_deleteLocked (ho : st.Outermost) {p : Addr} (hp : p ≠ 0) (ty : MemoryType) :
    (resume (deleteLocked st env p ty).1.st env (deleteLocked st env p ty).2).st =
      (testOperatorDelete st env p ty).st := by
  rcases testOperatorDelete_cases env ho hp ty with ⟨hf, hr⟩ | ⟨item, hf, hst, hr⟩ |
    ⟨item, pr, hf, hst, hrem, hr⟩ | ⟨item, st₁, hf, hst, hrem, hty, hr⟩ |
    ⟨item, st₁, hf, hst, hrem, hty, hr⟩
  · simp [hr, deleteLocked, hf, resume]
  · simp [hr, deleteLocked, hf, hst, resume]
  · simp [hr, deleteLocked, hf, hst, hrem, resume]
  · simp [hr, deleteLocked, hf, hst, hrem, hty, resume]
  · simp [hr, deleteLocked, hf, hst, hrem, hty, resume]

/-- A call that nothing comes between is the call of the sequential tracker. -/
theorem resume_enter (ho : st.Outermost) (c : Call) :
    (resume (enter st env c).1.st env (enter st env c).2).st = (call st env c).st := by
  unfold enter
  cases heff : c.effect with
  | allocate ty =>
    by_cases hraw : env.raw = 0
    · simp only [hraw, if_true]
      rw [(call_allocate_null ho heff hraw).1]
      rfl
    · simp only [hraw, if_false]
      obtain ⟨e, -, hcall⟩ := call_allocate ho heff hraw
      rw [hcall]
      rfl
  | release p ty =>
    rw [call_release ho heff]
    exact resume_deleteLocked ho (release_ne_zero heff).1 ty
  | nothing => rfl
  | move p n => rfl
  | setMax n => rfl

/-- A call that goes on has not ended the process. -/
theorem enter_running (ho : st.Outermost) {c : Call} (h : (enter st env c).2 ≠ .idle) :
    (enter st env c).1.st.process = .running := by
  unfold enter at h ⊢
  cases heff : c.effect with
  | allocate ty =>
    simp only
    split_ifs
    · exact ho.1
    · simp [ho.1]
  | release p ty =>
    simp only [heff] at h
    rcases deleteLocked_cases ho (release_ne_zero heff).1 ty with hr |
      ⟨item, st₁, -, -, hrem, -, hr⟩
    · rw [hr] at h
      exact absurd rfl h
    · simp only [hr]
      show st₁.process = .running
      rw [removeCorrespondingTrace_frame hrem]
      exact ho.1
  | nothing => simp [heff] at h
  | move p n => simp [heff] at h
  | setMax n => simp [heff] at h

end Split

/-! ## Steps that leave an address alone -/

/-- The record of `q` is the same, and a block at `q` that was live still is. -/
structure Leaves (q : Addr) (st st' : Tracker.State) : Prop where
  record : st'.findMemoryItem q = st.findMemoryItem q
  live : q ∈ st.live → q ∈ st'.live

namespace Leaves

variable {q : Addr} {st st₁ st₂ : Tracker.State} {env : Env}

theorem refl (q : Addr) (st : Tracker.State) : Leaves q st st := ⟨rfl, fun h => h⟩

theorem trans (h₁ : Leaves q st st₁) (h₂ : Leaves q st₁ st₂) : Leaves q st st₂ :=
  ⟨h₂.record.trans h₁.record, fun h => h₂.live (h₁.live h)⟩

/-- The same records and live blocks. -/
theorem of_eq (hmem : st₁.memoryItems = st.memoryItems) (hlive : st₁.live = st.live) :
    Leaves q st st₁ :=
  ⟨findMemoryItem_congr hmem q, fun h => by rw [hlive]; exact h⟩

theorem capture (q : Addr) (st : Tracker.State) (env : Env) : Leaves q st (st.capture env) :=
  of_eq rfl rfl

theorem mallocn (q : Addr) (st : Tracker.State) (answer : Addr) :
    Leaves q st (st.mallocn answer) := by
  refine ⟨findMemoryItem_congr (by simp) q, fun h => ?_⟩
  unfold State.mallocn
  split_ifs
  · exact h
  · exact Finset.mem_insert_of_mem h

theorem freen {p : Addr} (hq : q ≠ p) (st : Tracker.State) : Leaves q st (st.freen p) :=
  ⟨rfl, fun h => Finset.mem_erase.mpr ⟨hq, h⟩⟩

theorem reallocn {p : Addr} (hq : q ≠ p) (st : Tracker.State) (answer : Addr) :
    Leaves q st (st.reallocn p answer) := by
  refine ⟨findMemoryItem_congr (by simp) q, fun h => ?_⟩
  unfold State.reallocn
  split_ifs
  · exact h
  · exact Finset.mem_insert_of_mem (Finset.mem_erase.mpr ⟨hq, h⟩)

theorem setMemoryItem {p : Addr} (hq : q ≠ p) (st : Tracker.State) (item : SMemoryItem) :
    Leaves q st (st.setMemoryItem p item) :=
  ⟨findMemoryItem_setMemoryItem_of_ne st p q item hq, fun h => h⟩

theorem removeCorrespondingTrace {t : BacktracePtr}
    (h : Tracker.removeCorrespondingTrace st t = .ok st₁) : Leaves q st st₁ := by
  have hframe := removeCorrespondingTrace_frame h
  exact of_eq (by rw [hframe]) (by rw [hframe])

theorem refused (href : RefusesActions env) {item : SMemoryItem} {freeType : MemoryType}
    {addr : Addr} {n : ℕ} {failureType : FailureType} (hft : failureType ≠ .unknown)
    {trace : BacktracePtr} :
    Leaves q st (initFailureDataAndCallClbk st env item freeType addr n failureType trace).st := by
  rw [initFailure_doNot st env item freeType addr n failureType trace hft (href _)]
  exact of_eq rfl rfl

theorem addNew {p : Addr} (hq : q ≠ p) (hgrow : TablesGrow env) (href : RefusesActions env)
    (ty : MemoryType) (t : ℕ) : Leaves q st
      (addNewAllocatedMemoryAndCleanOldEntryNoLock st env ty p (some t)).st := by
  refine ⟨addNew_find_of_ne hq, fun h => ?_⟩
  obtain ⟨st₁, hreg⟩ := registerMemoryItem_isSome st p ⟨ty, .allocated, p, some t, none⟩ hgrow.1
  obtain ⟨-, hlive, -⟩ := registerMemoryItem_frame hreg
  obtain ⟨-, hlive₁, -⟩ := registerStackItem_frame st₁ p t href ⟨ty, .allocated, p, some t, none⟩
  simp only [addNewAllocatedMemoryAndCleanOldEntryNoLock, hreg]
  rw [hlive₁, hlive]
  exact h

theorem deleteUntracked {p : Addr} (hq : q ≠ p) (bt : BacktracePtr) :
    Leaves q st (Tracker.deleteUntracked st env p bt).st := by
  have hfree : Leaves q st { st with
      traces := freeBacktraceData st.traces (env.handlerMemory.getD .default).deallocTrace } :=
    of_eq rfl rfl
  unfold Tracker.deleteUntracked
  split_ifs
  · exact refl q st
  · exact hfree.trans (freen hq _)

theorem reAllocUntracked {p : Addr} (hq : q ≠ p) (n : ℕ) (bt : BacktracePtr) :
    Leaves q st (Tracker.reAllocUntracked st env p n bt).st := by
  have hfree : Leaves q st { st with
      traces := freeBacktraceData st.traces (env.handlerMemory.getD .default).deallocTrace } :=
    of_eq rfl rfl
  unfold Tracker.reAllocUntracked
  cases env.initialRealloc with
  | some a => exact refl q st
  | none => exact hfree.trans (reallocn hq _ _)

end Leaves

/-! ## Held blocks -/

/-- A thread has `q` in hand: the block is live and no record says that it is allocated. -/
structure Held (q : Addr) (st : Tracker.State) : Prop where
  live : q ∈ st.live
  released : ∀ item, st.findMemoryItem q = some item → item.status ≠ .allocated

section Calls

variable {q : Addr} {st st' : Tracker.State} {gap : Backtrace → ℕ} {env : Env}

theorem Held.of_leaves (h : Held q st) (hl : Leaves q st st') : Held q st' := by
  refine ⟨hl.live h.live, fun item hf => ?_⟩
  rw [hl.record] at hf
  exact h.released item hf

/-- A held address has another record than an address whose block is allocated. -/
theorem Held.ne_allocated (h : Held q st) {p : Addr} {item : SMemoryItem}
    (hf : st.findMemoryItem p = some item) (hst : item.status = .allocated) : q ≠ p := by
  rintro rfl
  exact h.released item hf hst

/-- `TestOperatorDelete` leaves a held block alone. -/
theorem Held.testOperatorDelete (h : Held q st) (hinv : LeakInv st gap) (href : RefusesActions env)
    {p : Addr} (hp₀ : p ≠ 0) (hp : st.findMemoryItem p = none → q ≠ p) (ty : MemoryType) :
    Leaves q st (Tracker.testOperatorDelete st env p ty).st := by
  have hcap := Leaves.capture q st env
  rcases testOperatorDelete_cases env hinv.outermost hp₀ ty with ⟨hf, hr⟩ | ⟨item, -, -, hr⟩ |
    ⟨item, pr, -, -, -, hr⟩ | ⟨item, st₁, -, -, hrem, -, hr⟩ | ⟨item, st₁, hf, hst, hrem, -, hr⟩
  · rw [hr]
    exact hcap.trans (Leaves.deleteUntracked (hp hf) _)
  · rw [hr]
    exact hcap.trans (Leaves.refused href (by simp))
  · rw [hr]
    exact hcap.trans (Leaves.of_eq rfl rfl)
  · rw [hr]
    exact (hcap.trans (Leaves.removeCorrespondingTrace hrem)).trans
      (Leaves.refused href (by simp))
  · have hqp : q ≠ p := h.ne_allocated hf hst
    have hq : q ≠ item.realAddress := by
      rw [(hinv.live p item hf).1]
      exact hqp
    rw [hr]
    exact ((hcap.trans (Leaves.removeCorrespondingTrace hrem)).trans
      (Leaves.setMemoryItem hqp _ _)).trans (Leaves.freen hq _)

/-- The locked part of a release leaves a held block alone. -/
theorem Held.deleteLocked (h : Held q st) (hinv : LeakInv st gap) (href : RefusesActions env)
    {p : Addr} (hp₀ : p ≠ 0) (hp : st.findMemoryItem p = none → q ≠ p) (ty : MemoryType) :
    Leaves q st (Threads.deleteLocked st env p ty).1.st := by
  rcases deleteLocked_cases hinv.outermost hp₀ ty with hr | ⟨item, st₁, hf, hst, hrem, -, hr⟩
  · rw [hr]
    exact h.testOperatorDelete hinv href hp₀ hp ty
  · rw [hr]
    exact ((Leaves.capture q st env).trans (Leaves.removeCorrespondingTrace hrem)).trans
      (Leaves.setMemoryItem (h.ne_allocated hf hst) _ _)

/-- `TestOperatorReAlloc` leaves a held block alone. -/
theorem Held.testOperatorReAlloc (h : Held q st) (hinv : LeakInv st gap) {c : Call} {p : Addr}
    {n : ℕ} (hc : Tracked st (c, env)) (heff : c.effect = .move p n)
    (hp : st.findMemoryItem p = none → q ≠ p) :
    Leaves q st (Tracker.testOperatorReAlloc st env p n).st := by
  have hcap := Leaves.capture q st env
  obtain ⟨-, hp₀, hn⟩ := move_ne_zero heff
  obtain ⟨s, hs, -⟩ := hc.captured
  obtain ⟨hcaptured, -, -⟩ := captured_spec st hs
  rcases testOperatorReAlloc_cases env hinv.outermost hp₀ hn with ⟨hf, hr⟩ |
    ⟨item, -, -, hr⟩ | ⟨item, -, -, -, hr⟩ | ⟨item, hf, -, hst, -, hr⟩ |
    ⟨item, pr, hf, -, hst, -, -, hr⟩ | ⟨item, st₁, r, hf, -, hst, hmv, hrem, hrr, hr⟩
  · rw [hr]
    exact hcap.trans (Leaves.reAllocUntracked (hp hf) _ _)
  · rw [hr]
    exact hcap.trans (Leaves.refused hc.refuses (by simp))
  · rw [hr]
    exact hcap.trans (Leaves.refused hc.refuses (by simp))
  · have hq : q ≠ item.realAddress := by
      rw [(hinv.live p item hf).1]
      exact h.ne_allocated hf hst
    rw [hr]
    exact (hcap.trans (Leaves.reallocn hq _ _)).trans (Leaves.of_eq rfl rfl)
  · have hq : q ≠ item.realAddress := by
      rw [(hinv.live p item hf).1]
      exact h.ne_allocated hf hst
    rw [hr]
    exact (hcap.trans (Leaves.reallocn hq _ _)).trans (Leaves.of_eq rfl rfl)
  · have hqp : q ≠ p := h.ne_allocated hf hst
    have hq : q ≠ item.realAddress := by
      rw [(hinv.live p item hf).1]
      exact hqp
    -- the new block was not live, so it is not the held one
    have hraw : q ≠ env.raw := by
      rintro rfl
      refine raw_fresh hc.fresh (hc.succeeds p n heff) (fun m hm => ?_) h.live
      rw [heff] at hm
      cases hm
      exact hmv rfl
    rw [hr, hrr, hcaptured]
    exact (((hcap.trans (Leaves.reallocn hq _ _)).trans
      (Leaves.removeCorrespondingTrace hrem)).trans (Leaves.setMemoryItem hqp _ _)).trans
        (Leaves.addNew hraw hc.grow hc.refuses .malloc _)

/-- Taking an allocated record out of both tables leaves its block in the hand of the thread. -/
theorem held_retired (hinv : LeakInv st gap) {p : Addr} {item : SMemoryItem} {st₁ : Tracker.State}
    (hf : st.findMemoryItem p = some item) (hst : item.status = .allocated)
    (hrem : removeCorrespondingTrace (st.capture env) item.allocTrace = .ok st₁)
    (item' : SMemoryItem) (hst' : item'.status ≠ .allocated) :
    Held p (st₁.setMemoryItem p item') ∧ ((st₁.setMemoryItem p item').findMemoryItem p).isSome := by
  have hf₁ : st₁.findMemoryItem p = some item := (removeCorrespondingTrace_find hrem p).trans hf
  have hself := findMemoryItem_setMemoryItem_self st₁ p item' (by simp [hf₁])
  refine ⟨⟨?_, ?_⟩, by rw [hself]; rfl⟩
  · show p ∈ st₁.live
    rw [removeCorrespondingTrace_frame hrem]
    exact (hinv.live p item hf).2 hst
  · intro x hx
    rw [hself] at hx
    cases hx
    exact hst'

end Calls

/-! ## The invariant -/

section Invariant

variable {θ : Type*} {s : State θ}

/-- Every recorded allocated block is counted, and what the threads hold is held by one each. -/
structure Inv (s : State θ) : Prop where
  counted : LeakInv s.tables fun _ => 0
  positive : 0 < s.tables.unMaxNumberOfAllocFromTheSameStack
  held : ∀ i q, (s.pending i).address = some q → Held q s.tables
  /-- A block that waits for `freen` has a record. -/
  freed : ∀ i q, s.pending i = .freen q → (s.tables.findMemoryItem q).isSome
  distinct : ∀ i j q, (s.pending i).address = some q → (s.pending j).address = some q → i = j

theorem Inv.init : Inv (State.init : State θ) := by
  refine ⟨LeakInv.init, Nat.succ_pos 9, ?_, ?_, ?_⟩
  · intro i q h
    cases h
  · intro i q h
    cases h
  · intro i j q h
    cases h

/-- An address that no record has and that the program may pass is in nobody's hand. -/
theorem Inv.ne_of_unrecorded (h : Inv s) {c : Call} (hc : PassesReturned s c) {p : Addr}
    (hp : (∃ ty, c.effect = .release p ty) ∨ ∃ n, c.effect = .move p n)
    (hf : s.tables.findMemoryItem p = none) {j : θ} {q : Addr}
    (hj : (s.pending j).address = some q) : q ≠ p := by
  rintro rfl
  cases hpend : s.pending j with
  | idle =>
    rw [hpend] at hj
    cases hj
  | addNewAllocatedMemory ty r =>
    rw [hpend] at hj
    cases hj
    obtain ⟨hrel, hmv⟩ := hc j ty q hpend
    rcases hp with ⟨t, ht⟩ | ⟨n, hn⟩
    · exact hrel t ht
    · exact hmv n hn
  | freen r =>
    rw [hpend] at hj
    cases hj
    have hsome := h.freed j q hpend
    rw [hf] at hsome
    cases hsome

/-- A new block is in nobody's hand. -/
theorem Inv.not_held (h : Inv s) {q : Addr} (hq : q ∉ s.tables.live) (j : θ) :
    (s.pending j).address ≠ some q :=
  fun hj => hq (h.held j q hj).live

variable {env : Env} {c : Call}

theorem result_enter_idle {i : θ} (hi : s.pending i = .idle) :
    result s (.enter i c env) =
      (i, (Threads.enter s.tables env c).1, (Threads.enter s.tables env c).2) := by
  simp [result, hi]

/-- A thread between its two steps enters no routine. -/
theorem result_enter_busy {i : θ} (hi : s.pending i ≠ .idle) :
    result s (.enter i c env) = (i, ⟨s.tables, .returns 0, []⟩, s.pending i) := by
  cases hp : s.pending i with
  | idle => exact absurd hp hi
  | addNewAllocatedMemory ty p => simp [result, hp]
  | freen p => simp [result, hp]

/-! ### Reports of one step -/

/-- Only the end of an allocation and a moving realloc report possible leaks. -/
theorem Inv.enter_silent (h : Inv s) (href : RefusesActions env)
    (hmv : ∀ p n, c.effect ≠ .move p n) :
    ¬ (Threads.enter s.tables env c).1.Reports .possibilityOfMemoryLeak := by
  unfold Threads.enter
  cases heff : c.effect with
  | allocate ty =>
    simp only
    split_ifs
    · exact not_reports_of_silent (by simp)
    · exact not_reports_of_silent (by simp)
  | release p ty =>
    have hp := (release_ne_zero heff).1
    rcases deleteLocked_cases h.counted.outermost hp ty with hr | ⟨item, st₁, -, -, -, -, hr⟩
    · show ¬ (deleteLocked s.tables env p ty).1.Reports .possibilityOfMemoryLeak
      rw [hr]
      exact release_not_reports h.counted.outermost href hp
    · show ¬ (deleteLocked s.tables env p ty).1.Reports .possibilityOfMemoryLeak
      rw [hr]
      exact not_reports_of_silent (by simp)
  | move p n => exact absurd heff (hmv p n)
  | nothing => exact not_reports_of_silent (by simp [(call_nothing h.counted.outermost heff).2])
  | setMax n => exact not_reports_of_silent (by simp [(call_setMax heff).2])

/-- A registration that goes on is reported exactly when its stack then has more allocated blocks
than allowed. -/
theorem Inv.resume_reports (h : Inv s) {i : θ} {ty : MemoryType} {p : Addr}
    (hi : s.pending i = .addNewAllocatedMemory ty p) (hcap : StackCaptured env)
    (hgrow : TablesGrow env) (href : RefusesActions env) :
    (addNewAllocatedMemoryAndCleanOldEntry s.tables env ty p).Reports .possibilityOfMemoryLeak ↔
      ∃ stack, env.stack = some stack ∧ s.tables.unMaxNumberOfAllocFromTheSameStack <
        (addNewAllocatedMemoryAndCleanOldEntry s.tables env ty p).st.allocatedCount stack := by
  obtain ⟨stack, hs, hne⟩ := hcap
  obtain ⟨hcaptured, hnext, hdata⟩ := captured_spec s.tables hs
  have hadd : addNewAllocatedMemoryAndCleanOldEntry s.tables env ty p =
      addNewAllocatedMemoryAndCleanOldEntryNoLock (s.tables.capture env) env ty p
        (some s.tables.traces.next) := by
    rw [← hcaptured]
    rfl
  have hheld : Held p s.tables := h.held i p (by rw [hi]; rfl)
  have hiff := addNew_reports p ty rfl (h.counted.capture env) (t := s.tables.traces.next)
    (by omega) (by rw [hdata]; exact hne) hgrow href h.positive hheld.released
  rw [hdata, ← hadd] at hiff
  rw [hiff, hs]
  simp

/-! ## What a step leaves -/

variable [DecidableEq θ]

/-- What a step of the thread `i` has to keep: the accounting, the blocks of the other threads, and
its own block, which is new to it. -/
theorem Inv.after (h : Inv s) {i : θ} {st : Tracker.State} {p : Pending}
    (hcounted : LeakInv st fun _ => 0) (hpos : 0 < st.unMaxNumberOfAllocFromTheSameStack)
    (hothers : ∀ j q, j ≠ i → (s.pending j).address = some q → Leaves q s.tables st)
    (hheld : ∀ q, p.address = some q →
      Held q st ∧ ∀ j, j ≠ i → (s.pending j).address ≠ some q)
    (hfreed : ∀ q, p = .freen q → (st.findMemoryItem q).isSome) :
    Inv ⟨st, Function.update s.pending i p⟩ := by
  refine ⟨hcounted, hpos, ?_, ?_, ?_⟩
  · intro j q hj
    by_cases hji : j = i
    · subst hji
      simp only [Function.update_self] at hj
      exact (hheld q hj).1
    · simp only [Function.update_of_ne hji] at hj
      exact (h.held j q hj).of_leaves (hothers j q hji hj)
  · intro j q hj
    by_cases hji : j = i
    · subst hji
      simp only [Function.update_self] at hj
      exact hfreed q hj
    · simp only [Function.update_of_ne hji] at hj
      show (st.findMemoryItem q).isSome
      rw [(hothers j q hji (by rw [hj]; rfl)).record]
      exact h.freed j q hj
  · intro j k q hj hk
    by_cases hji : j = i <;> by_cases hki : k = i
    · rw [hji, hki]
    · subst hji
      simp only [Function.update_self] at hj
      simp only [Function.update_of_ne hki] at hk
      exact absurd hk ((hheld q hj).2 k hki)
    · subst hki
      simp only [Function.update_self] at hk
      simp only [Function.update_of_ne hji] at hj
      exact absurd hj ((hheld q hk).2 j hji)
    · simp only [Function.update_of_ne hji] at hj
      simp only [Function.update_of_ne hki] at hk
      exact h.distinct j k q hj hk

/-- A step after which the thread holds nothing. -/
theorem Inv.after_idle (h : Inv s) {i : θ} {st : Tracker.State} (hcounted : LeakInv st fun _ => 0)
    (hpos : 0 < st.unMaxNumberOfAllocFromTheSameStack)
    (hothers : ∀ j q, j ≠ i → (s.pending j).address = some q → Leaves q s.tables st) :
    Inv ⟨st, Function.update s.pending i .idle⟩ :=
  h.after hcounted hpos hothers (fun q hq => by cases hq) (fun q hq => by cases hq)

/-! ## Every step keeps it -/

/-- An allocation waits with its new block for the registration. -/
theorem Inv.enter_allocate (h : Inv s) (hc : Tracked s.tables (c, env)) {ty : MemoryType}
    (heff : c.effect = .allocate ty) (i : θ) :
    Inv ⟨(enter s.tables env c).1.st, Function.update s.pending i (enter s.tables env c).2⟩ := by
  by_cases hraw : env.raw = 0
  · have hr : enter s.tables env c = (⟨s.tables, .returns 0, []⟩, .idle) := by
      simp [enter, heff, hraw]
    rw [hr]
    exact h.after_idle h.counted h.positive fun j q _ _ => Leaves.refl q _
  · have hr : enter s.tables env c = (⟨s.tables.mallocn env.raw, .returns env.raw, []⟩,
        .addNewAllocatedMemory ty env.raw) := by
      simp [enter, heff, hraw]
    have hfresh : env.raw ∉ s.tables.live :=
      raw_fresh hc.fresh hraw fun n hn => by rw [heff] at hn; cases hn
    rw [hr]
    refine h.after (h.counted.mallocn _) ?_ (fun j q _ _ => Leaves.mallocn q _ _) ?_ ?_
    · show 0 < (s.tables.mallocn env.raw).unMaxNumberOfAllocFromTheSameStack
      simp only [mallocn_threshold]
      exact h.positive
    · intro q hq
      cases hq
      refine ⟨⟨?_, ?_⟩, fun j _ => h.not_held hfresh j⟩
      · rw [mallocn_live _ _ hraw]
        exact Finset.mem_insert_self _ _
      · intro item hf
        rw [findMemoryItem_congr (mallocn_memoryItems _ _)] at hf
        exact old_not_allocated h.counted.live hfresh item hf
    · intro q hq
      cases hq

/-- A release waits with its block for `freen`, or is over. -/
theorem Inv.enter_release (h : Inv s) (hc : Tracked s.tables (c, env)) (hret : PassesReturned s c)
    {p : Addr} {ty : MemoryType} (heff : c.effect = .release p ty) (i : θ) :
    Inv ⟨(enter s.tables env c).1.st, Function.update s.pending i (enter s.tables env c).2⟩ := by
  have hp₀ := (release_ne_zero heff).1
  have henter : enter s.tables env c = deleteLocked s.tables env p ty := by simp [enter, heff]
  have hothers : ∀ j q, j ≠ i → (s.pending j).address = some q →
      Leaves q s.tables (deleteLocked s.tables env p ty).1.st := fun j q _ hj =>
    (h.held j q hj).deleteLocked h.counted hc.refuses hp₀
      (fun hf => h.ne_of_unrecorded hret (Or.inl ⟨ty, heff⟩) hf hj) ty
  rw [henter]
  rcases deleteLocked_cases h.counted.outermost hp₀ ty with hr | ⟨item, st₁, hf, hst, hrem, -, hr⟩
  · have hstep := LeakInv.step_positive (c := (c, env)) ⟨h.counted, h.positive⟩
      ⟨hc, fun n hn => by rw [heff] at hn; cases hn⟩
    rw [Tracker.step_eq h.counted.outermost, call_release h.counted.outermost heff] at hstep
    rw [hr] at hothers ⊢
    exact h.after_idle hstep.1 hstep.2 hothers
  · have hreal := (h.counted.live p item hf).1
    obtain ⟨hheld, hsome⟩ := held_retired h.counted hf hst hrem
      { item with status := .deallocated, deallocTrace := s.tables.captured env } (by simp)
    have hcounted := (h.counted.capture env).retire
      { item with status := .deallocated, deallocTrace := s.tables.captured env } hf hst rfl
      (by simp) rfl hrem
    rw [hr] at hothers ⊢
    refine h.after hcounted ?_ hothers ?_ ?_
    · show 0 < st₁.unMaxNumberOfAllocFromTheSameStack
      rw [removeCorrespondingTrace_frame hrem]
      exact h.positive
    · intro q hq
      obtain rfl : q = p := by
        cases hq
        exact hreal
      refine ⟨hheld, fun j _ hj => ?_⟩
      exact (h.held j q hj).released item hf hst
    · intro q hq
      obtain rfl : q = p := by
        cases hq
        exact hreal
      exact hsome

/-- The other routines are one step. -/
theorem Inv.enter_move (h : Inv s) (hc : Tracked s.tables (c, env)) (hret : PassesReturned s c)
    {p : Addr} {n : ℕ} (heff : c.effect = .move p n) (i : θ) :
    Inv ⟨(call s.tables env c).st, Function.update s.pending i .idle⟩ := by
  have hstep := LeakInv.step_positive (c := (c, env)) ⟨h.counted, h.positive⟩
    ⟨hc, fun n hn => by rw [heff] at hn; cases hn⟩
  rw [Tracker.step_eq h.counted.outermost] at hstep
  refine h.after_idle hstep.1 hstep.2 fun j q _ hj => ?_
  rw [call_move heff]
  exact (h.held j q hj).testOperatorReAlloc h.counted hc heff
    fun hf => h.ne_of_unrecorded hret (Or.inr ⟨n, heff⟩) hf hj

theorem Inv.enter (h : Inv s) (hc : Tracked s.tables (c, env)) (hset : SetsPositiveMax c)
    (hret : PassesReturned s c) (i : θ) :
    Inv ⟨(Threads.enter s.tables env c).1.st,
      Function.update s.pending i (Threads.enter s.tables env c).2⟩ := by
  cases heff : c.effect with
  | allocate ty => exact h.enter_allocate hc heff i
  | release p ty => exact h.enter_release hc hret heff i
  | move p n =>
    have hr : Threads.enter s.tables env c = (call s.tables env c, .idle) := by
      simp [Threads.enter, heff]
    rw [hr]
    exact h.enter_move hc hret heff i
  | nothing =>
    have hr : Threads.enter s.tables env c = (call s.tables env c, .idle) := by
      simp [Threads.enter, heff]
    rw [hr, (call_nothing h.counted.outermost heff).1]
    exact h.after_idle h.counted h.positive fun j q _ _ => Leaves.refl q _
  | setMax n =>
    have hr : Threads.enter s.tables env c = (call s.tables env c, .idle) := by
      simp [Threads.enter, heff]
    have hstep := LeakInv.step_positive (c := (c, env)) ⟨h.counted, h.positive⟩ ⟨hc, hset⟩
    rw [Tracker.step_eq h.counted.outermost] at hstep
    rw [hr]
    refine h.after_idle hstep.1 hstep.2 fun j q _ _ => ?_
    rw [(call_setMax heff).1]
    exact Leaves.of_eq rfl rfl

/-- A registration that goes on. -/
theorem Inv.resume_add (h : Inv s) {i : θ} {ty : MemoryType} {p : Addr}
    (hi : s.pending i = .addNewAllocatedMemory ty p) (hcap : StackCaptured env)
    (hgrow : TablesGrow env) (href : RefusesActions env) :
    Inv ⟨(addNewAllocatedMemoryAndCleanOldEntry s.tables env ty p).st,
      Function.update s.pending i .idle⟩ := by
  obtain ⟨stack, hs, hne⟩ := hcap
  obtain ⟨hcaptured, hnext, hdata⟩ := captured_spec s.tables hs
  have hadd : addNewAllocatedMemoryAndCleanOldEntry s.tables env ty p =
      addNewAllocatedMemoryAndCleanOldEntryNoLock (s.tables.capture env) env ty p
        (some s.tables.traces.next) := by
    rw [← hcaptured]
    rfl
  have hheld : Held p s.tables := h.held i p (by rw [hi]; rfl)
  have hpos : 0 < (s.tables.capture env).unMaxNumberOfAllocFromTheSameStack := h.positive
  have hcounted := (h.counted.capture env).addNew (p := p) (t := s.tables.traces.next)
    (by omega) (by rw [hdata]; exact hne) hgrow href hheld.live hheld.released ty
  rw [if_neg (by omega)] at hcounted
  rw [hadd]
  refine h.after_idle hcounted (by rw [addNew_threshold]; exact hpos) fun j q hj hq => ?_
  have hqp : q ≠ p := by
    rintro rfl
    exact hj (h.distinct j i q hq (by rw [hi]; rfl))
  exact (Leaves.capture q _ env).trans (Leaves.addNew hqp hgrow href ty _)

/-- A `freen` that goes on. -/
theorem Inv.resume_freen (h : Inv s) {i : θ} {p : Addr} (hi : s.pending i = .freen p) :
    Inv ⟨s.tables.freen p, Function.update s.pending i .idle⟩ := by
  have hheld : Held p s.tables := h.held i p (by rw [hi]; rfl)
  have hcounted : LeakInv (s.tables.freen p) fun _ => 0 := by
    refine ⟨h.counted.outermost, h.counted.ndebug,
      h.counted.accounted.congr rfl rfl (Nat.le_refl _) (fun _ _ => rfl), ?_⟩
    exact h.counted.live.erase hheld.released rfl (Finset.Subset.refl _)
  refine h.after_idle hcounted h.positive fun j q hj hq => Leaves.freen ?_ _
  rintro rfl
  exact hj (h.distinct j i q hq (by rw [hi]; rfl))

theorem act_running (hrun : s.tables.process = .running) (a : Action θ) :
    Threads.act s a = ⟨(result s a).2.1.st,
      Function.update s.pending (result s a).1 (result s a).2.2⟩ := by
  simp [Threads.act, hrun]

/-- Two steps of one thread that nothing comes between are one call of the sequential tracker. -/
theorem act_enter_resume (ho : s.tables.Outermost) {i : θ} (hi : s.pending i = .idle) (c : Call)
    (env : Env) : Threads.act (Threads.act s (.enter i c env)) (.resume i env) =
      ⟨Tracker.step s.tables (c, env), s.pending⟩ := by
  have hcall : (resume (Threads.enter s.tables env c).1.st env
      (Threads.enter s.tables env c).2).st = (call s.tables env c).st := resume_enter ho c
  have hback : Function.update s.pending i .idle = s.pending := by
    rw [← hi, Function.update_eq_self]
  rw [Tracker.step_eq ho, ← hcall, act_running ho.1, result_enter_idle hi]
  by_cases hpend : (Threads.enter s.tables env c).2 = .idle
  · -- the call was one step, after which the process may have ended
    rw [hpend, hback]
    unfold Threads.act
    split_ifs
    · simp [result, hi, resume, hback]
    · rfl
  · rw [act_running (enter_running ho hpend)]
    simp [result, hback]

/-- Every step of every thread keeps the invariant. -/
theorem Inv.act (h : Inv s) {a : Action θ} (ha : Admissible s a) : Inv (act s a) := by
  rw [act_running h.counted.outermost.1]
  cases a with
  | enter i c env =>
    obtain ⟨hc, hset, hret⟩ := ha
    by_cases hi : s.pending i = .idle
    · rw [result_enter_idle hi]
      exact h.enter hc hset hret i
    · rw [result_enter_busy hi]
      simp only [Function.update_eq_self]
      exact h
  | resume i env =>
    simp only [result]
    cases hi : s.pending i with
    | idle => exact h.after_idle h.counted h.positive fun j q _ _ => Leaves.refl q _
    | addNewAllocatedMemory ty p =>
      obtain ⟨hcap, hgrow, href⟩ := ha ty p hi
      exact h.resume_add hi hcap hgrow href
    | freen p => exact h.resume_freen hi

/-- What a step reports. -/
theorem Inv.reportsLeaks (h : Inv s) {a : Action θ} (ha : Admissible s a) : ReportsLeaks s a := by
  unfold ReportsLeaks
  rw [act_running h.counted.outermost.1]
  cases a with
  | enter i c env =>
    obtain ⟨hc, hset, hret⟩ := ha
    by_cases hi : s.pending i = .idle
    · rw [result_enter_idle hi]
      by_cases hmv : ∃ p n, c.effect = .move p n
      · obtain ⟨p, n, heff⟩ := hmv
        have hr : Threads.enter s.tables env c = (call s.tables env c, .idle) := by
          simp [Threads.enter, heff]
        have hiff := h.counted.reports_iff hc h.positive
        rw [Tracker.step_eq h.counted.outermost] at hiff
        rw [hr, hiff]
        constructor
        · rintro ⟨hreg, hexceeds⟩
          exact ⟨⟨hi, p, n, heff, hreg⟩, hexceeds⟩
        · rintro ⟨⟨-, -, -, -, hreg⟩, hexceeds⟩
          exact ⟨hreg, hexceeds⟩
      · constructor
        · intro hrep
          exact absurd hrep (h.enter_silent hc.refuses fun p n heff => hmv ⟨p, n, heff⟩)
        · rintro ⟨⟨-, p, n, heff, -⟩, -⟩
          exact absurd ⟨p, n, heff⟩ hmv
    · rw [result_enter_busy hi]
      constructor
      · intro hrep
        exact absurd hrep (not_reports_of_silent (by simp))
      · rintro ⟨⟨hidle, -⟩, -⟩
        exact absurd hidle hi
  | resume i env =>
    cases hi : s.pending i with
    | addNewAllocatedMemory ty p =>
      obtain ⟨hcap, hgrow, href⟩ := ha ty p hi
      simp only [result, hi, resume]
      rw [h.resume_reports hi hcap hgrow href]
      constructor
      · intro hexceeds
        exact ⟨⟨ty, p, hi⟩, hexceeds⟩
      · rintro ⟨-, hexceeds⟩
        exact hexceeds
    | idle =>
      simp only [result, hi, resume]
      constructor
      · intro hrep
        exact absurd hrep (not_reports_of_silent (by simp))
      · rintro ⟨⟨ty, p, hadd⟩, -⟩
        rw [hi] at hadd
        cases hadd
    | freen p =>
      simp only [result, hi, resume]
      constructor
      · intro hrep
        exact absurd hrep (not_reports_of_silent (by simp))
      · rintro ⟨⟨ty, q, hadd⟩, -⟩
        rw [hi] at hadd
        cases hadd

/-! ## Runs -/

/-- Threads that allocate, register, release and reallocate at the same time: in every state of
every run no assertion has failed and the table of the stacks counts the recorded allocated blocks
exactly, and the possible leaks are reported by the registrations that go over the threshold. -/
theorem concurrent_leak_accounting {as : List (Action θ)}
    (h : Runs.Along Threads.act Admissible .init as) :
    Runs.Always Threads.act
        (fun s => s.tables.process = .running ∧ s.tables.StackItemsExact) .init as ∧
      Runs.Along Threads.act ReportsLeaks .init as := by
  refine ⟨?_, ?_⟩
  · refine (Runs.always_of_invariant (fun _ _ hs => hs.act) Inv.init h).mono ?_
    intro s hs
    exact ⟨hs.counted.outermost.1, hs.counted.accounted.exact⟩
  · exact Runs.along_of_invariant (fun _ _ hs => hs.act) (fun _ _ hs => hs.reportsLeaks) Inv.init h

end Invariant

/-- Two threads allocate from one stack before either registers its block, under a threshold of one;
one of them then releases the first block while the other releases it as well. -/
def sharedStackRun : List (Action Bool) :=
  [.enter false (.setMaxAllowedAllocInTheSameStack 1)
      (.giving 1 [7] .doNotMakeActionToPreventCrash),
    .enter false (.alloc 8 .malloc false) (.giving 16 [7] .doNotMakeActionToPreventCrash),
    .enter true (.alloc 8 .malloc false) (.giving 32 [7] .doNotMakeActionToPreventCrash),
    .resume true (.giving 1 [7] .doNotMakeActionToPreventCrash),
    .resume false (.giving 1 [7] .doNotMakeActionToPreventCrash),
    .enter true (.delete 16 .malloc) (.giving 1 [8] .doNotMakeActionToPreventCrash),
    .enter false (.delete 16 .malloc) (.giving 1 [8] .doNotMakeActionToPreventCrash),
    .resume true (.giving 1 [8] .doNotMakeActionToPreventCrash)]

theorem concurrent_leak_accounting_sharedStack :
    Runs.Always act (fun s => s.tables.process = .running ∧ s.tables.StackItemsExact) .init
        sharedStackRun ∧
      Runs.Along act ReportsLeaks .init sharedStackRun := by
  have hgiving : ∀ (s : State Bool) (i : Bool) (raw : Addr) (frames : List ℕ), frames ≠ [] →
      Admissible s (.resume i (.giving raw frames .doNotMakeActionToPreventCrash)) :=
    fun s i raw frames hne ty p _ => ⟨⟨⟨frames⟩, rfl, hne⟩, ⟨rfl, rfl⟩, fun _ => rfl⟩
  have hsets : ∀ c : Call, (∀ n, c.effect ≠ .setMax n) → SetsPositiveMax c :=
    fun c hc n hn => absurd hn (hc n)
  refine concurrent_leak_accounting ⟨⟨?_, ?_, ?_⟩, ⟨?_, ?_, ?_⟩, ⟨?_, ?_, ?_⟩,
    hgiving _ _ _ _ (by simp), hgiving _ _ _ _ (by simp), ⟨?_, ?_, ?_⟩, ⟨?_, ?_, ?_⟩,
    hgiving _ _ _ _ (by simp), trivial⟩
  · exact tracked_giving (by decide) (by decide) (by decide) (by decide)
  · intro n hn
    cases hn
    decide
  · exact fun i ty p h => ⟨fun t => by simp [Call.effect], fun n => by simp [Call.effect]⟩
  · exact tracked_giving (by decide) (by decide) (by decide) (by decide)
  · exact hsets _ (by simp [Call.effect])
  · exact fun i ty p h => ⟨fun t => by simp [Call.effect], fun n => by simp [Call.effect]⟩
  · exact tracked_giving (by decide) (by decide) (by decide) (by decide)
  · exact hsets _ (by simp [Call.effect])
  · exact fun i ty p h => ⟨fun t => by simp [Call.effect], fun n => by simp [Call.effect]⟩
  · exact tracked_giving (by decide) (by decide) (by decide) (by decide)
  · exact hsets _ (by simp [Call.effect])
  · intro i ty p h
    cases i <;> cases h
  · exact tracked_giving (by decide) (by decide) (by decide) (by decide)
  · exact hsets _ (by simp [Call.effect])
  · intro i ty p h
    cases i <;> cases h

end CrashInvestigator.Tracker.Threads
