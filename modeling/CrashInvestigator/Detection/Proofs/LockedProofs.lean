import CrashInvestigator.Detection.Locked
import CrashInvestigator.Detection.Proofs.ExactnessProofs

/-!
# The atomic machine is what the lock makes of the routines

Every section run in one go is the atomic step of its routine, so the threads that are interleaved
access by access show what some run of the atomic machine shows, and show it exactly. The guards of the
sections give the lock back on every way out, leak reports and exceptions included, and so the threads
do not deadlock.
-/

namespace CrashInvestigator.Detection.Locked

open Tracker Library

/-! ## Sections run in one go -/

section Sections

variable {m : MemoryItems} {w : World} {a : Input} {p : Addr} {item : SMemoryItem}

theorem assign_of_some (hf : m.lookup p = some item) (field : SMemoryItem → SMemoryItem) :
    assign m p field = m.insert p (field item) := by
  unfold assign
  rw [hf]

theorem lookup_assign (hf : m.lookup p = some item) (field : SMemoryItem → SMemoryItem) :
    (assign m p field).lookup p = some (field item) := by
  rw [assign_of_some hf, Finmap.lookup_insert]

theorem run_findEntry (next : Bool → Section) :
    (findEntry p next).run a m w = (next (m.lookup p).isSome).run a m w := rfl

theorem run_second (hf : m.lookup p = some item) (next : SMemoryItem → Section) :
    (second p next).run a m w = (next item).run a m w := by
  unfold second
  rw [Critical.Section.run, hf]
  rfl

theorem run_setSecond (field : SMemoryItem → SMemoryItem) (next : Section) :
    (setSecond p field next).run a m w = next.run a (assign m p field) w := rfl

theorem run_report (hf : m.lookup p = some item) (ft : FailureType) (n : ℕ) :
    (report ft p n).run a m w = ((m, w, .idle), some (.report ft item p n)) :=
  run_second hf _

/-- A registration that is counted, with the lookup that came before it. -/
theorem run_setMemoryItem (ty : MemoryType) (bt : BacktracePtr) :
    (setMemoryItem p ⟨ty, .allocated, p, bt, none⟩ (m.lookup p).isSome .counted).run m =
      (Detection.addNewAllocatedMemoryAndCleanOldEntryNoLock m ty p bt, .idle) := by
  unfold setMemoryItem
  cases hf : m.lookup p with
  | none => rfl
  | some item =>
    simp only [Option.isSome_some, if_true, Critical.Tail.run, assign_of_some hf]
    rfl

theorem run_addNewNoLock (ty : MemoryType) (bt : BacktracePtr) :
    (addNewAllocatedMemoryAndCleanOldEntryNoLock ty p bt .counted).run m =
      (Detection.addNewAllocatedMemoryAndCleanOldEntryNoLock m ty p bt, .idle) :=
  run_setMemoryItem ty bt

theorem run_addNew (hr : a.registration = .counted) (ty : MemoryType) (bt : BacktracePtr) :
    (addNewAllocatedMemoryAndCleanOldEntry ty p bt).run a m w =
      ((Detection.addNewAllocatedMemoryAndCleanOldEntryNoLock m ty p bt, w, .idle),
        some (.registered ty p)) := by
  simp only [addNewAllocatedMemoryAndCleanOldEntry, run_findEntry, Critical.Section.run, hr,
    run_setMemoryItem, reduceCtorEq, and_false, if_false]

theorem run_afterReallocn (hf : m.lookup p = some item) (q : Addr) (bt : BacktracePtr) :
    (afterReallocn p q bt .counted).run m = if q = p then (m, .idle) else
      (Detection.addNewAllocatedMemoryAndCleanOldEntryNoLock
        (m.insert p { item with status := .duringReallocChanged }) .malloc q bt, .idle) := by
  unfold afterReallocn
  by_cases hq : q = p
  · rw [if_pos hq, if_pos hq]
    rfl
  · rw [if_neg hq, if_neg hq]
    show (addNewAllocatedMemoryAndCleanOldEntryNoLock .malloc q bt .counted).run (assign m p _) = _
    rw [run_addNewNoLock, assign_of_some hf]

/-- The two writes of a release, one after the other. -/
theorem assign_released (hf : m.lookup p = some item) (bt : BacktracePtr) :
    assign (assign m p fun i => { i with status := .deallocated }) p
        (fun i => { i with deallocTrace := bt }) =
      m.insert p { item with status := .deallocated, deallocTrace := bt } := by
  rw [assign_of_some (lookup_assign hf _), assign_of_some hf, Finmap.insert_insert]

end Sections

theorem run_testOperatorDelete_none (hf : m.lookup p = none) (ty : MemoryType) (bt : BacktracePtr) :
    (testOperatorDelete p ty bt).run a m w = ((m, w, .idle), some (.untracked p)) := by
  simp only [testOperatorDelete, run_findEntry, hf]
  rfl

theorem run_testOperatorDelete (hf : m.lookup p = some item) (ty : MemoryType)
    (bt : BacktracePtr) :
    (testOperatorDelete p ty bt).run a m w =
      if item.status ≠ .allocated then ((m, w, .idle), some (.report .doubleFree item p 0))
      else if item.type ≠ ty then ((m, w, .idle), some (.report .freeMissmatch item p 0))
      else ((m.insert p { item with status := .deallocated, deallocTrace := bt }, w,
        .freeing item.realAddress), some (.released p item.realAddress)) := by
  simp only [testOperatorDelete, run_findEntry, hf, Option.isSome_some, if_true]
  rw [run_second hf]
  by_cases hst : item.status ≠ .allocated
  · rw [if_pos hst, if_pos hst, run_report hf]
  · rw [if_neg hst, if_neg hst, run_second hf]
    by_cases hty : item.type ≠ ty
    · rw [if_pos hty, if_pos hty, run_report hf]
    · rw [if_neg hty, if_neg hty, run_second hf, run_setSecond, run_setSecond, assign_released hf]
      rfl

theorem run_testOperatorReAlloc_none (hf : m.lookup p = none) (n : ℕ) (bt : BacktracePtr) :
    (testOperatorReAlloc p n bt).run a m w = ((m, w, .idle), some (.untracked p)) := by
  simp only [testOperatorReAlloc, run_findEntry, hf]
  rfl

/-- The section takes effect at its `reallocn`; what comes after it only moves the record. -/
theorem run_testOperatorReAlloc (hr : a.registration = .counted) (hf : m.lookup p = some item)
    (n : ℕ) (bt : BacktracePtr) :
    (testOperatorReAlloc p n bt).run a m w =
      if item.type ≠ .malloc then
        ((m, w, .idle), some (.report .badReallocCreatedByWrongAlloc item p n))
      else if item.status ≠ .allocated then
        ((m, w, .idle), some (.report .badReallocDeletedMem item p n))
      else
        ((if a.answers.raw = p then m else Detection.addNewAllocatedMemoryAndCleanOldEntryNoLock
            (m.insert p { item with status := .duringReallocChanged }) .malloc a.answers.raw bt,
          if a.answers.raw = 0 then w else insert a.answers.raw (w.erase item.realAddress), .idle),
          some (.reallocn p item.realAddress a.answers.raw)) := by
  simp only [testOperatorReAlloc, run_findEntry, hf, Option.isSome_some, if_true]
  rw [run_second hf]
  by_cases hty : item.type ≠ .malloc
  · rw [if_pos hty, if_pos hty, run_report hf]
  · rw [if_neg hty, if_neg hty, run_second hf]
    by_cases hst : item.status ≠ .allocated
    · rw [if_pos hst, if_pos hst, run_report hf]
    · rw [if_neg hst, if_neg hst, run_second hf]
      simp only [Critical.Section.run, hr, run_afterReallocn hf]
      by_cases hq : a.answers.raw = p
      · simp only [if_pos hq]
      · simp only [if_neg hq]

/-! ## The coarse machine and the atomic one -/

/-- What a thread has still to do for a call that has taken effect. -/
def Control.pending : Control → Pending
  | .idle => .idle
  | .inside _ _ => .idle
  | .adding memoryType pReturn pBacktrace => .addNewAllocatedMemory memoryType pReturn pBacktrace
  | .freeing pToDelete => .freen pToDelete
  | .reporting | .throwing => .idle

section Atomic

variable {θ : Type*}

/-- The state of the atomic machine. -/
def atomic (t : Coarse θ) : State θ := ⟨t.data, t.world, fun i => (t.control i).pending⟩

variable [DecidableEq θ] {t : Coarse θ} {i : θ} {c : Call} {bt : BacktracePtr}

theorem atomic_update (t : Coarse θ) (d : MemoryItems) (w : World) (i : θ) (k : Control) :
    atomic ⟨d, w, Function.update t.control i k⟩ =
      (⟨d, w, (atomic t).pending⟩ : State θ).await i k.pending := by
  unfold atomic State.await
  congr 1
  funext j
  by_cases hj : j = i
  · subst hj
    simp
  · simp [hj]

/-- A thread that has as little left to do as before. -/
theorem atomic_same (d : MemoryItems) (w : World) {k : Control}
    (hk : (t.control i).pending = k.pending) :
    atomic ⟨d, w, Function.update t.control i k⟩ = ⟨d, w, (atomic t).pending⟩ := by
  rw [atomic_update]
  unfold State.await
  congr 1
  funext j
  by_cases hj : j = i
  · rw [hj, Function.update_self]
    exact hk.symm
  · exact Function.update_of_ne hj ..

/-- The coarse step of a thread in a call is the atomic step that enters the call. -/
def EntersAs (t : Coarse θ) (i : θ) (c : Call) (a : Input) (ans : Answers) : Prop :=
  ∃ o, (t.step code (i, a)).2 = some (i, some o) ∧
    act (atomic t) (.enter i c ans) = (atomic (t.step code (i, a)).1, o)

theorem entersAs_of_locked {sec : Section} {a : Input} {ans : Answers}
    (hk : t.control i = .inside c bt) (hcode : routine c bt = .locked sec.guarded) {d : MemoryItems}
    {w : World} {k : Control} {o : Output} (hrun : sec.run a t.data t.world = ((d, w, k), some o))
    (hact : act (atomic t) (.enter i c ans) =
      ((⟨d, w, (atomic t).pending⟩ : State θ).await i k.pending, o)) :
    EntersAs t i c a ans := by
  have hstep : t.step code (i, a) = (⟨d, w, Function.update t.control i k⟩, some (i, some o)) := by
    simp only [Critical.Coarse.step, hk, code, hcode, Critical.Section.run_guarded, hrun]
  refine ⟨o, ?_, ?_⟩
  · rw [hstep]
  · rw [hstep, hact, atomic_update]

/-- A section that changes nothing and leads out of the routine. -/
theorem entersAs_of_unchanged {sec : Section} {a : Input} {ans : Answers}
    (hk : t.control i = .inside c bt) (hcode : routine c bt = .locked sec.guarded) {o : Output}
    (hrun : sec.run a t.data t.world = ((t.data, t.world, .idle), some o))
    (hact : act (atomic t) (.enter i c ans) = (atomic t, o)) : EntersAs t i c a ans := by
  have hidle : (t.control i).pending = .idle := by
    rw [hk]
    rfl
  refine entersAs_of_locked hk hcode hrun (hact.trans ?_)
  have hleave := (atomic_update t t.data t.world i .idle).symm.trans
    (atomic_same t.data t.world hidle)
  rw [hleave]
  rfl

/-- A step of `routine` that does nothing. -/
theorem entersAs_done (hk : t.control i = .inside c bt) (hcode : routine c bt = done) (a : Input)
    (hact : act (atomic t) (.enter i c a.answers) = (atomic t, .nothing)) :
    EntersAs t i c a a.answers := by
  have hstep : t.step code (i, a) =
      (⟨t.data, t.world, Function.update t.control i .idle⟩, some (i, some .nothing)) := by
    simp only [Critical.Coarse.step, hk, code, hcode, done]
    rfl
  refine ⟨.nothing, ?_, ?_⟩
  · rw [hstep]
  · rw [hstep, hact, atomic_same t.data t.world (by rw [hk]; rfl)]
    rfl

/-- A step of `routine` that makes the raw request of an allocation. -/
theorem entersAs_request (ty : MemoryType) (hk : t.control i = .inside c bt)
    (hcode : routine c bt = request ty) (heff : c.effect = .allocate ty) (a : Input) :
    EntersAs t i c a a.answers := by
  have henter := enter_allocate (atomic t) i a.answers heff
  have hact : act (atomic t) (.enter i c a.answers) = enter (atomic t) i a.answers c := rfl
  by_cases hraw : a.answers.raw = 0
  · have hstep : t.step code (i, a) =
        (⟨t.data, t.world, Function.update t.control i .idle⟩, some (i, some .nothing)) := by
      simp only [Critical.Coarse.step, hk, code, hcode, request, hraw, if_true]
      rfl
    refine ⟨.nothing, ?_, ?_⟩
    · rw [hstep]
    · rw [hstep, hact, henter, if_pos hraw, atomic_same t.data t.world (by rw [hk]; rfl)]
      rfl
  · have hstep : t.step code (i, a) = (⟨t.data, insert a.answers.raw t.world,
        Function.update t.control i (.adding ty a.answers.raw a.answers.backtrace)⟩,
        some (i, some (.mallocn a.answers.raw))) := by
      simp only [Critical.Coarse.step, hk, code, hcode, request, hraw, if_false]
      rfl
    refine ⟨.mallocn a.answers.raw, ?_, ?_⟩
    · rw [hstep]
    · rw [hstep, hact, henter, if_neg hraw, atomic_update]
      rfl

/-- The locked part of `TestOperatorDelete`. -/
theorem entersAs_delete (p : Addr) (ty : MemoryType) (hk : t.control i = .inside c bt)
    (hcode : routine c bt = .locked (testOperatorDelete p ty bt).guarded)
    (heff : c.effect = .release p ty) (a : Input) : EntersAs t i c a ⟨a.answers.raw, bt⟩ := by
  have hp := (release_ne_zero heff).1
  have henter : act (atomic t) (.enter i c ⟨a.answers.raw, bt⟩) =
      Detection.testOperatorDelete (atomic t) i p ty ⟨a.answers.raw, bt⟩ :=
    enter_release (atomic t) i _ heff
  cases hf : t.data.lookup p with
  | none =>
    refine entersAs_of_unchanged hk hcode (run_testOperatorDelete_none hf ty bt) (henter.trans ?_)
    unfold Detection.testOperatorDelete
    rw [if_neg hp, show (atomic t).memoryItems.lookup p = none from hf]
  | some item =>
    have hrun := run_testOperatorDelete (a := a) (w := t.world) hf ty bt
    rcases testOperatorDelete_cases (atomic t) i ⟨a.answers.raw, bt⟩ (t := ty) hp hf with
      ⟨hst, hr⟩ | ⟨hst, hty, hr⟩ | ⟨hst, hty, hr⟩
    · rw [if_pos hst] at hrun
      exact entersAs_of_unchanged hk hcode hrun (henter.trans hr)
    · rw [if_neg (not_not.mpr hst), if_pos hty] at hrun
      exact entersAs_of_unchanged hk hcode hrun (henter.trans hr)
    · rw [if_neg (not_not.mpr hst), if_neg (not_not.mpr hty)] at hrun
      exact entersAs_of_locked hk hcode hrun (henter.trans hr)

/-- The locked part of `TestOperatorReAlloc`. -/
theorem entersAs_reAlloc {p : Addr} {n : ℕ} (hk : t.control i = .inside c bt)
    (hcode : routine c bt = .locked (testOperatorReAlloc p n bt).guarded)
    (heff : c.effect = .move p n) {a : Input} (hr : a.registration = .counted) :
    EntersAs t i c a ⟨a.answers.raw, bt⟩ := by
  obtain ⟨-, hp, hn⟩ := move_ne_zero heff
  have hidle : (t.control i).pending = .idle := by
    rw [hk]
    rfl
  have henter : act (atomic t) (.enter i c ⟨a.answers.raw, bt⟩) =
      Detection.testOperatorReAlloc (atomic t) i p n ⟨a.answers.raw, bt⟩ :=
    enter_move (atomic t) i _ heff
  have hhome : ∀ (d : MemoryItems) (w : World),
      (⟨d, w, (atomic t).pending⟩ : State θ).await i (Control.idle).pending =
        ⟨d, w, (atomic t).pending⟩ := by
    intro d w
    rw [← atomic_update, atomic_same d w hidle]
  cases hf : t.data.lookup p with
  | none =>
    refine entersAs_of_unchanged hk hcode (run_testOperatorReAlloc_none hf n bt) (henter.trans ?_)
    unfold Detection.testOperatorReAlloc
    rw [if_neg hp, if_neg hn, show (atomic t).memoryItems.lookup p = none from hf]
  | some item =>
    have hrun := run_testOperatorReAlloc (w := t.world) hr hf n bt
    rcases testOperatorReAlloc_cases (atomic t) i ⟨a.answers.raw, bt⟩ hp hn hf with
      ⟨hty, hr⟩ | ⟨hty, hst, hr⟩ | ⟨hty, hst, hkeep, hr⟩ | ⟨hty, hst, hmv, hr⟩
    · rw [if_pos hty] at hrun
      exact entersAs_of_unchanged hk hcode hrun (henter.trans hr)
    · rw [if_neg (not_not.mpr hty), if_pos hst] at hrun
      exact entersAs_of_unchanged hk hcode hrun (henter.trans hr)
    · rw [if_neg (not_not.mpr hty), if_neg (not_not.mpr hst), if_pos hkeep] at hrun
      refine entersAs_of_locked hk hcode hrun (henter.trans (hr.trans ?_))
      rw [hhome]
      rfl
    · rw [if_neg (not_not.mpr hty), if_neg (not_not.mpr hst), if_neg hmv] at hrun
      refine entersAs_of_locked hk hcode hrun (henter.trans (hr.trans ?_))
      rw [hhome]
      rfl

/-- The step of a call, whatever the call is, is the atomic step that enters it. -/
theorem entersAs_routine (hk : t.control i = .inside c bt) {a : Input}
    (hr : a.registration = .counted) : ∃ ans, EntersAs t i c a ans := by
  have hnothing : c.effect = .nothing → routine c bt = done → ∃ ans, EntersAs t i c a ans :=
    fun heff hcode => ⟨_, entersAs_done hk hcode a (enter_nothing (atomic t) i a.answers heff)⟩
  cases c with
  | alloc n ty b =>
    by_cases hn : n = 0
    · exact hnothing (by simp [Call.effect, hn]) (by simp [routine, hn])
    · exact ⟨_, entersAs_request ty hk (by simp [routine, hn]) (by simp [Call.effect, hn]) a⟩
  | calloc m n =>
    by_cases hn : m * n % sizeModulus = 0
    · exact hnothing (by simp [Call.effect, hn]) (by simp [routine, hn])
    · exact ⟨_, entersAs_request .malloc hk (by simp [routine, hn])
        (by simp [Call.effect, hn]) a⟩
  | reAlloc p n =>
    by_cases hp : p = 0
    · by_cases hn : n = 0
      · exact hnothing (by simp [Call.effect, hp, hn]) (by simp [routine, hp, hn])
      · exact ⟨_, entersAs_request .malloc hk (by simp [routine, hp, hn])
          (by simp [Call.effect, hp, hn]) a⟩
    · by_cases hn : n = 0
      · exact ⟨_, entersAs_delete p .malloc hk (by simp [routine, hp, hn])
          (by simp [Call.effect, hp, hn]) a⟩
      · exact ⟨_, entersAs_reAlloc (p := p) (n := n) hk (by simp [routine, hp, hn])
          (by simp [Call.effect, hp, hn]) hr⟩
  | delete p ty =>
    by_cases hp : p = 0
    · exact hnothing (by simp [Call.effect, hp]) (by simp [routine, hp])
    · exact ⟨_, entersAs_delete p ty hk (by simp [routine, hp])
        (by simp [Call.effect, hp]) a⟩
  | setMaxAllowedAllocInTheSameStack n => exact ⟨_, entersAs_done hk rfl a rfl⟩

/-- The step of a thread whose call has taken effect is the atomic one that resumes it. -/
def ResumesAs (t : Coarse θ) (i : θ) (a : Input) : Prop :=
  ∃ o, (t.step code (i, a)).2 = some (i, some o) ∧ (atomic t).pending i ≠ .idle ∧
    act (atomic t) (.resume i) = (atomic (t.step code (i, a)).1, o)

theorem resumesAs_adding {ty : MemoryType} {p : Addr} (hk : t.control i = .adding ty p bt)
    {a : Input} (hr : a.registration = .counted) : ResumesAs t i a := by
  have hpend : (atomic t).pending i = .addNewAllocatedMemory ty p bt := by
    show (t.control i).pending = _
    rw [hk]
    rfl
  have hstep : t.step code (i, a) = (⟨Detection.addNewAllocatedMemoryAndCleanOldEntryNoLock t.data ty
      p bt, t.world, Function.update t.control i .idle⟩, some (i, some (.registered ty p))) := by
    simp only [Critical.Coarse.step, hk, code, Critical.Section.run_guarded, run_addNew hr]
  refine ⟨.registered ty p, ?_, ?_, ?_⟩
  · rw [hstep]
  · rw [hpend]
    intro hcon
    cases hcon
  · rw [hstep, atomic_update]
    simp only [act, resume, hpend]
    rfl

theorem resumesAs_freeing {p : Addr} (hk : t.control i = .freeing p) (a : Input) :
    ResumesAs t i a := by
  have hpend : (atomic t).pending i = .freen p := by
    show (t.control i).pending = _
    rw [hk]
    rfl
  have hstep : t.step code (i, a) =
      (⟨t.data, t.world.erase p, Function.update t.control i .idle⟩, some (i, some (.freen p))) := by
    simp only [Critical.Coarse.step, hk, code]
    rfl
  refine ⟨.freen p, ?_, ?_, ?_⟩
  · rw [hstep]
  · rw [hpend]
    intro hcon
    cases hcon
  · rw [hstep, atomic_update]
    simp only [act, resume, hpend]
    rfl

/-- The start of a call is silent: nothing of it has taken effect. -/
theorem step_idle (hk : t.control i = .idle) (a : Input) :
    t.step code (i, a) = (⟨t.data, t.world,
      Function.update t.control i (.inside a.call a.answers.backtrace)⟩, none) ∧
      atomic (t.step code (i, a)).1 = atomic t := by
  have hstep : t.step code (i, a) = (⟨t.data, t.world,
      Function.update t.control i (.inside a.call a.answers.backtrace)⟩, none) := by
    simp only [Critical.Coarse.step, hk, code]
    rfl
  refine ⟨hstep, ?_⟩
  rw [hstep, atomic_same t.data t.world (by rw [hk]; rfl)]
  rfl

/-- The end of a leak report and of an exception is silent. -/
theorem step_leaving (hk : t.control i = .reporting ∨ t.control i = .throwing) (a : Input) :
    t.step code (i, a) = (⟨t.data, t.world, Function.update t.control i .idle⟩, none) ∧
      atomic (t.step code (i, a)).1 = atomic t := by
  have hpend : (t.control i).pending = .idle := by
    rcases hk with hk | hk
    · rw [hk]
      rfl
    · rw [hk]
      rfl
  have hstep : t.step code (i, a) =
      (⟨t.data, t.world, Function.update t.control i .idle⟩, none) := by
    rcases hk with hk | hk
    · simp only [Critical.Coarse.step, hk, code]
      rfl
    · simp only [Critical.Coarse.step, hk, code]
      rfl
  refine ⟨hstep, ?_⟩
  rw [hstep, atomic_same t.data t.world hpend]
  rfl

end Atomic

/-! ## Every call ends -/

/-- Every section gives the lock back. -/
theorem guarded_code : Critical.Guarded code := by
  intro k sec hcode
  cases k with
  | idle => cases hcode
  | reporting => cases hcode
  | throwing => cases hcode
  | freeing p => cases hcode
  | adding ty p bt =>
    cases hcode
    exact Critical.Section.releases_guarded _
  | inside c bt =>
    have hroutine : routine c bt = .locked sec := hcode
    cases c with
    | setMaxAllowedAllocInTheSameStack n => cases hroutine
    | alloc n ty b =>
      simp only [routine, request, done] at hroutine
      split_ifs at hroutine
    | calloc m n =>
      simp only [routine, request, done] at hroutine
      split_ifs at hroutine
    | reAlloc p n =>
      simp only [routine, request, done] at hroutine
      split_ifs at hroutine
      · cases hroutine
        exact Critical.Section.releases_guarded _
      · cases hroutine
        exact Critical.Section.releases_guarded _
    | delete p ty =>
      simp only [routine, done] at hroutine
      split_ifs at hroutine
      cases hroutine
      exact Critical.Section.releases_guarded _

/-- How many steps or sections a thread still has to take, at most. -/
def Control.rank : Control → ℕ
  | .idle => 0
  | .adding _ _ _ | .freeing _ => 2
  | .reporting | .throwing => 1
  | .inside _ _ => 3

section Leads

variable {Q : Control → Prop} {p : Addr}

theorem leads_countStackItem (hidle : Q .idle) (hreport : Q .reporting) (hthrow : Q .throwing)
    (r : Registration) : (countStackItem r).Leads Q := by
  cases r with
  | counted => exact hidle
  | itemThrows => exact hidle
  | counterThrows => exact hthrow
  | leak => exact hreport

theorem leads_setMemoryItem (hidle : Q .idle) (hreport : Q .reporting) (hthrow : Q .throwing)
    (p : Addr) (item : SMemoryItem) (found : Bool) (r : Registration) :
    (setMemoryItem p item found r).Leads Q := by
  unfold setMemoryItem
  split_ifs
  · exact fun _ => leads_countStackItem hidle hreport hthrow r
  · exact hthrow
  · exact fun _ => leads_countStackItem hidle hreport hthrow r

theorem leads_second (hidle : Q .idle) {next : SMemoryItem → Section}
    (h : ∀ item, (next item).Leads Q) : (second p next).Leads Q := by
  intro m
  cases hm : m.lookup p with
  | none =>
    simp only [hm]
    exact hidle
  | some item =>
    simp only [hm]
    exact h item

theorem leads_findEntry {next : Bool → Section} (h : ∀ found, (next found).Leads Q) :
    (findEntry p next).Leads Q :=
  fun m => h (m.lookup p).isSome

theorem leads_report (hidle : Q .idle) (ft : FailureType) (p : Addr) (n : ℕ) :
    (report ft p n).Leads Q :=
  leads_second hidle fun _ => hidle

theorem leads_testOperatorDelete (hidle : Q .idle) (hfree : ∀ q, Q (.freeing q)) (p : Addr)
    (ty : MemoryType) (bt : BacktracePtr) : (testOperatorDelete p ty bt).Leads Q := by
  refine leads_findEntry fun found => ?_
  cases found with
  | false => exact hidle
  | true =>
    refine leads_second hidle fun item => ?_
    split_ifs
    · exact leads_report hidle _ _ _
    · refine leads_second hidle fun item => ?_
      split_ifs
      · exact leads_report hidle _ _ _
      · exact leads_second hidle fun item => fun _ _ => hfree item.realAddress

theorem leads_addNew (hidle : Q .idle) (hreport : Q .reporting) (hthrow : Q .throwing)
    (ty : MemoryType) (p : Addr) (bt : BacktracePtr) :
    (addNewAllocatedMemoryAndCleanOldEntry ty p bt).Leads Q :=
  leads_findEntry fun _ a => leads_setMemoryItem hidle hreport hthrow p _ _ a.registration

theorem leads_afterReallocn (hidle : Q .idle) (hreport : Q .reporting) (hthrow : Q .throwing)
    (p q : Addr) (bt : BacktracePtr) (r : Registration) : (afterReallocn p q bt r).Leads Q := by
  unfold afterReallocn
  split_ifs
  · exact hidle
  · exact fun _ m => leads_setMemoryItem hidle hreport hthrow q _ _ r

theorem leads_testOperatorReAlloc (hidle : Q .idle) (hreport : Q .reporting)
    (hthrow : Q .throwing) (p : Addr) (n : ℕ) (bt : BacktracePtr) :
    (testOperatorReAlloc p n bt).Leads Q := by
  refine leads_findEntry fun found => ?_
  cases found with
  | false => exact hidle
  | true =>
    refine leads_second hidle fun item => ?_
    split_ifs
    · exact leads_report hidle _ _ _
    · refine leads_second hidle fun item => ?_
      split_ifs
      · exact leads_report hidle _ _ _
      · exact leads_second hidle fun item => fun a =>
          leads_afterReallocn hidle hreport hthrow p a.answers.raw bt a.registration

theorem leads_done (hidle : Q .idle) : (done : Code).Leads Q := fun _ _ => hidle

theorem leads_request (hidle : Q .idle) (hadd : ∀ ty q bt, Q (.adding ty q bt)) (ty : MemoryType) :
    (request ty).Leads Q := by
  intro a w
  show Q (if a.answers.raw = 0 then _ else _ : World × Control × Option (Option Output)).2.1
  split_ifs
  · exact hidle
  · exact hadd ..

theorem leads_routine (hidle : Q .idle) (hadd : ∀ ty q bt, Q (.adding ty q bt))
    (hfree : ∀ q, Q (.freeing q)) (hreport : Q .reporting) (hthrow : Q .throwing) (c : Call)
    (bt : BacktracePtr) : (routine c bt).Leads Q := by
  cases c with
  | alloc n ty b =>
    simp only [routine]
    split_ifs
    · exact leads_done hidle
    · exact leads_request hidle hadd ty
  | calloc m n =>
    simp only [routine]
    split_ifs
    · exact leads_done hidle
    · exact leads_request hidle hadd .malloc
  | reAlloc p n =>
    simp only [routine]
    split_ifs
    · exact leads_done hidle
    · exact leads_request hidle hadd .malloc
    · exact (leads_testOperatorDelete hidle hfree _ _ _).guarded
    · exact (leads_testOperatorReAlloc hidle hreport hthrow _ _ _).guarded
  | delete p ty =>
    simp only [routine]
    split_ifs
    · exact leads_done hidle
    · exact (leads_testOperatorDelete hidle hfree _ _ _).guarded
  | setMaxAllowedAllocInTheSameStack n => exact leads_done hidle

end Leads

/-- Every step and every section of a routine brings the thread closer to its end. -/
theorem leads_code (k : Control) (hk : k.rank ≠ 0) :
    (code k).Leads fun k' => k'.rank < k.rank := by
  cases k with
  | idle => exact absurd rfl hk
  | inside c bt =>
    refine leads_routine ?_ (fun _ _ _ => ?_) (fun _ => ?_) ?_ ?_ c bt
    · exact Nat.succ_pos 2
    · exact Nat.lt_succ_self 2
    · exact Nat.lt_succ_self 2
    · exact Nat.le_succ 2
    · exact Nat.le_succ 2
  | adding ty p bt =>
    exact (leads_addNew Nat.two_pos Nat.one_lt_two Nat.one_lt_two ty p bt).guarded
  | freeing p => exact fun _ _ => Nat.two_pos
  | reporting => exact fun _ _ => Nat.one_pos
  | throwing => exact fun _ _ => Nat.one_pos

/-! ## The simulation -/

/-- A call passes only pointers that were registered at some earlier time. -/
def Asked (l : Ledger) (c : Call) : Prop :=
  (∀ p t, c.effect = .release p t → (l.lastType p).isSome) ∧
    ∀ p n, c.effect = .move p n → (l.lastType p).isSome

/-- An address that was registered once stays registered. -/
theorem lastType_record {l : Ledger} {p : Addr} (h : (l.lastType p).isSome) (o : Output) :
    ((l.record o).lastType p).isSome := by
  have hreg : ∀ (l : Ledger) (t : MemoryType) (q : Addr), (l.lastType p).isSome →
      ((l.register t q).lastType p).isSome := by
    intro l t q hl
    by_cases hq : p = q
    · subst hq
      simp [Ledger.register]
    · simp [Ledger.register, hq, hl]
  cases o with
  | registered t q => exact hreg l t q h
  | reallocn q r answer =>
    simp only [Ledger.record]
    by_cases hq : answer = q
    · rw [if_pos hq]
      exact h
    · rw [if_neg hq]
      exact hreg (l.release q) .malloc answer h
  | nothing | mallocn _ | released _ _ | freen _ | report _ _ _ _ | untracked _ => exact h

theorem Asked.record {l : Ledger} {c : Call} (h : Asked l c) (o : Output) :
    Asked (l.record o) c :=
  ⟨fun p t heff => lastType_record (h.1 p t heff) o, fun p n heff => lastType_record (h.2 p n heff) o⟩

section Simulation

variable {θ : Type*}


/-- The atomic machine is where the steps that have taken effect have led. -/
structure Rel (s : Monitored θ) (o : Observed θ) (t : Coarse θ) : Prop where
  sim : Critical.Sim code s.fine t
  eq : o = ⟨atomic t, s.ledger⟩
  asked : ∀ i c bt, t.control i = .inside c bt → Asked s.ledger c
  inv : Inv o

variable {s : Monitored θ} {o : Observed θ} {t : Coarse θ} {i : θ} {a : Input}

theorem Rel.init : Rel (Monitored.init : Monitored θ) .init (.start ∅ ∅ .idle) := by
  refine ⟨.start .., rfl, ?_, Inv.init⟩
  intro i c bt h
  cases h

/-- The live blocks are the same in all three machines. -/
theorem Rel.live (h : Rel s o t) : o.machine.live = s.fine.world := by
  rw [h.eq]
  exact h.sim.world.symm

theorem Rel.rawIssues (h : Rel s o t) {out : Output} (hraw : RawIssues s.view out) :
    RawIssues o out := by
  have hlive : s.view.machine.live = o.machine.live := h.live.symm
  cases out with
  | mallocn answer =>
    unfold RawIssues at hraw ⊢
    rw [← hlive]
    exact hraw
  | reallocn p r answer =>
    unfold RawIssues at hraw ⊢
    rw [← hlive]
    exact hraw
  | nothing | registered _ _ | released _ _ | freen _ | report _ _ _ _ | untracked _ => trivial

variable [DecidableEq θ]

/-- The atomic machine as a machine with outputs. -/
def observe (o : Observed θ) (b : Action θ) : Observed θ × Option (θ × Option Output) :=
  (Detection.step o b, some (actor b, some (o.output b)))

/-- The relation after a step that takes effect as the action `act`. -/
theorem Rel.next (h : Rel s o t) {b : Action θ} {out : Output}
    (hsim : Critical.Sim code (s.fine.step code (i, a)).1 (t.step code (i, a)).1)
    (hcoarse : (t.step code (i, a)).2 = some (i, some out))
    (hout : (t.step code (i, a)).2 = (s.fine.step code (i, a)).2)
    (hact : act (atomic t) b = (atomic (t.step code (i, a)).1, out))
    (hcontrol : ∀ j, j ≠ i → (t.step code (i, a)).1.control j = t.control j)
    (hleft : ∀ c bt, (t.step code (i, a)).1.control i ≠ .inside c bt)
    (hadm : Detection.Admissible o b) :
    s.output (i, a) = some (i, some out) ∧ o.output b = out ∧
      Rel (step s (i, a)).1 (Detection.step o b) (t.step code (i, a)).1 := by
  have hshown : s.output (i, a) = some (i, some out) := hout.symm.trans hcoarse
  have hmachine : act o.machine b = (atomic (t.step code (i, a)).1, out) := by
    rw [h.eq]
    exact hact
  obtain ⟨houtput, hstep⟩ := Detection.step_eq hmachine
  refine ⟨hshown, houtput, hsim, ?_, ?_, (h.inv.step hadm).2⟩
  · rw [hstep]
    unfold step
    rw [hshown]
    show (⟨_, o.ledger.record out⟩ : Observed θ) = ⟨_, s.ledger.record out⟩
    rw [h.eq]
  · intro j c bt hj
    have hne : j ≠ i := by
      rintro rfl
      exact hleft c bt hj
    rw [hcontrol j hne] at hj
    show Asked (record s.ledger (s.output (i, a))) c
    rw [hshown]
    exact (h.asked j c bt hj).record out

/-- A step of a thread that has entered a call does not enter another one. -/
theorem not_inside_after {k : Control} (hk : t.control i = k) (hrank : k.rank ≠ 0) (c : Call)
    (bt : BacktracePtr) : (t.step code (i, a)).1.control i ≠ .inside c bt := by
  have hlt : ((t.step code (i, a)).1.control i).rank < k.rank := by
    refine Critical.Code.Leads.step (Q := fun k' : Control => k'.rank < k.rank) ?_ a
    rw [hk]
    exact leads_code k hrank
  intro hcon
  rw [hcon] at hlt
  have hle : k.rank ≤ 3 := by
    cases k with
    | idle => exact Nat.zero_le _
    | inside _ _ => exact Nat.le_refl _
    | adding _ _ _ => exact Nat.le_succ 2
    | freeing _ => exact Nat.le_succ 2
    | reporting => exact Nat.succ_pos 2
    | throwing => exact Nat.succ_pos 2
  exact absurd hlt (Nat.not_lt.mpr hle)

/-- A silent step changes nothing that the atomic machine sees. -/
theorem Rel.silent (h : Rel s o t) (hout : s.output (i, a) = none)
    (hsim : Critical.Sim code (s.fine.step code (i, a)).1 t) : Rel (step s (i, a)).1 o t := by
  have hledger : (step s (i, a)).1.ledger = s.ledger := by
    unfold step
    rw [hout]
    rfl
  refine ⟨hsim, ?_, ?_, h.inv⟩
  · rw [hledger]
    exact h.eq
  · rw [hledger]
    exact h.asked

/-- A thread at `idle` enters a call. -/
theorem Rel.enters (h : Rel s o t) (hk : t.control i = .idle)
    (hasked : Asked s.ledger a.call) (hout : s.output (i, a) = none)
    (hsim : Critical.Sim code (s.fine.step code (i, a)).1 (t.step code (i, a)).1) :
    Rel (step s (i, a)).1 o (t.step code (i, a)).1 := by
  obtain ⟨hstep, hatomic⟩ := step_idle hk a
  have hledger : (step s (i, a)).1.ledger = s.ledger := by
    unfold step
    rw [hout]
    rfl
  refine ⟨hsim, ?_, ?_, h.inv⟩
  · rw [hledger, hatomic]
    exact h.eq
  · rw [hledger]
    intro j c bt hj
    by_cases hji : j = i
    · subst hji
      rw [hstep] at hj
      have hcall := (Function.update_self j (Control.inside a.call a.answers.backtrace)
        t.control).symm.trans hj
      obtain ⟨rfl, -⟩ := Control.inside.inj hcall
      exact hasked
    · rw [Critical.step_control_of_ne t hji a] at hj
      exact h.asked j c bt hj

/-- A thread at the end of a leak report or of an exception is out of its routine. -/
theorem Rel.leaves (h : Rel s o t) (hk : t.control i = .reporting ∨ t.control i = .throwing)
    (hout : (t.step code (i, a)).2 = (s.fine.step code (i, a)).2)
    (hsim : Critical.Sim code (s.fine.step code (i, a)).1 (t.step code (i, a)).1) :
    s.output (i, a) = none ∧ ∃ t', Rel (step s (i, a)).1 o t' := by
  obtain ⟨hstep, hatomic⟩ := step_leaving hk a
  have hnone : s.output (i, a) = none := by
    refine hout.symm.trans ?_
    rw [hstep]
  have hledger : (step s (i, a)).1.ledger = s.ledger := by
    unfold step
    rw [hnone]
    rfl
  refine ⟨hnone, _, hsim, ?_, ?_, h.inv⟩
  · rw [hledger, hatomic]
    exact h.eq
  · rw [hledger]
    intro j c bt hj
    by_cases hji : j = i
    · subst hji
      rw [hstep] at hj
      have hcall := (Function.update_self j Control.idle t.control).symm.trans hj
      cases hcall
    · rw [Critical.step_control_of_ne t hji a] at hj
      exact h.asked j c bt hj

/-- What the atomic machine says about a step that takes effect in a call. -/
theorem Rel.shows_call (h : Rel s o t) {c : Call} {ans : Answers}
    {out : Output} (hcall : callOf (s.fine.phase i) = some c)
    (hout : o.output (.enter i c ans) = out) (hexact : Detection.Exact o (.enter i c ans)) :
    Shows s i out := by
  obtain ⟨⟨hfail, hrel, hmv⟩, hshows, htouches, hfreed, hregs⟩ := hexact
  have hledger : o.ledger = s.ledger := by rw [h.eq]
  rw [hout, hledger] at hfail hrel hmv
  rw [hout] at hshows htouches hfreed hregs
  refine ⟨?_, ?_, ?_, ?_, ?_, ?_, ?_⟩
  · rw [hcall, hfail]
    rfl
  · intro c' p ty hc' heff hnone
    rw [hcall] at hc'
    cases hc'
    exact hrel p ty heff hnone
  · intro c' p n hc' heff hnone
    rw [hcall] at hc'
    cases hc'
    exact ⟨ans.raw, hmv p n heff hnone⟩
  · rw [← hledger]
    exact hshows
  · rw [← h.live]
    exact htouches
  · rw [← hledger]
    exact hfreed
  · rw [← hledger, ← h.live]
    exact hregs

/-- The same for a step of a call that has taken effect before. -/
theorem Rel.shows_resume (h : Rel s o t) {out : Output} (hcall : callOf (s.fine.phase i) = none)
    (hout : o.output (.resume i) = out) (hexact : Detection.Exact o (.resume i)) :
    Shows s i out := by
  obtain ⟨hfail, hshows, htouches, hfreed, hregs⟩ := hexact
  have hledger : o.ledger = s.ledger := by rw [h.eq]
  have hfail' : (o.output (.resume i)).failure = none := hfail
  rw [hout] at hfail' hshows htouches hfreed hregs
  refine ⟨?_, ?_, ?_, ?_, ?_, ?_, ?_⟩
  · rw [hcall, hfail']
    rfl
  · intro c' p ty hc'
    rw [hcall] at hc'
    cases hc'
  · intro c' p n hc'
    rw [hcall] at hc'
    cases hc'
  · rw [← hledger]
    exact hshows
  · rw [← h.live]
    exact htouches
  · rw [← hledger]
    exact hfreed
  · rw [← hledger, ← h.live]
    exact hregs

/-- A step that takes effect is matched by one admissible action, with the same output, and shows
what an exact detector shows. -/
def MatchedBy (s : Monitored θ) (o : Observed θ) (l : θ × Input) (b : Action θ) : Prop :=
  Detection.Admissible o b ∧ s.output l = some (actor b, some (o.output b)) ∧
    Shows s l.1 (o.output b) ∧ actor b = l.1 ∧
      ∃ t', Rel (step s l).1 (Detection.step o b) t'

/-- A step of a thread whose call has taken effect before. -/
theorem Rel.resumes (h : Rel s o t) (hadm : Admissible s (i, a))
    (hsim : Critical.Sim code (s.fine.step code (i, a)).1 (t.step code (i, a)).1)
    (hout : (t.step code (i, a)).2 = (s.fine.step code (i, a)).2) (has : ResumesAs t i a)
    (hleft : ∀ c bt, (t.step code (i, a)).1.control i ≠ .inside c bt)
    (hcall : callOf (s.fine.phase i) = none) : ∃ b, MatchedBy s o (i, a) b := by
  obtain ⟨out, hcoarse, hpend, hact⟩ := has
  have hbadm : Detection.Admissible o (.resume i) := by
    have hmachine : (act o.machine (.resume i)).2 = out := by
      rw [h.eq]
      exact congrArg Prod.snd hact
    refine ⟨?_, ?_, trivial⟩
    · rw [h.eq]
      exact hpend
    · have hnone : o.output (.resume i) = out := hmachine
      rw [hnone]
      exact h.rawIssues (hadm.raw i out (hout.symm.trans hcoarse))
  obtain ⟨hshown, houtput, hrel⟩ := h.next hsim hcoarse hout hact
    (fun j hj => Critical.step_control_of_ne t hj a) hleft hbadm
  refine ⟨.resume i, hbadm, ?_, ?_, rfl, _, hrel⟩
  · rw [houtput]
    exact hshown
  · rw [houtput]
    exact h.shows_resume hcall houtput (h.inv.step hbadm).1

theorem callOf_of_placed {k : Control} {ph : Critical.Phase MemoryItems World Input Control
    (Option Output)} (h : Critical.Placed code k ph) : callOf ph = k.call := by
  cases ph with
  | outside k' =>
    cases h
    rfl
  | inside k' rest =>
    obtain ⟨rfl, -⟩ := h
    rfl
  | ending rest => exact h.elim

/-- A thread at `idle` is outside the lock. -/
theorem outside_of_placed {ph : Critical.Phase MemoryItems World Input Control (Option Output)}
    (h : Critical.Placed code .idle ph) : ph = .outside .idle := by
  cases ph with
  | outside k' =>
    cases h
    rfl
  | inside k' rest =>
    obtain ⟨-, sec, hcode⟩ := h
    cases hcode
  | ending rest => exact h.elim

/-- Every step is silent, or one admissible action matches it. -/
theorem Rel.step (h : Rel s o t) {l : θ × Input} (hadm : Admissible s l) :
    (s.output l = none ∧ ∃ t', Rel (Locked.step s l).1 o t') ∨ ∃ b, MatchedBy s o l b := by
  obtain ⟨i, a⟩ := l
  rcases h.sim.step guarded_code (i, a) with ⟨hout, hsim⟩ | ⟨hout, hplaced, hsim⟩
  · exact Or.inl ⟨hout, t, h.silent hout hsim⟩
  · have hcontrol : ∀ j, j ≠ i → (t.step code (i, a)).1.control j = t.control j :=
      fun j hj => Critical.step_control_of_ne t hj a
    have hcall := callOf_of_placed hplaced
    have hpending : o.machine.pending i = (t.control i).pending := by rw [h.eq]; rfl
    cases hk : t.control i with
    | idle =>
      rw [hk] at hplaced
      have hasked : Asked s.ledger a.call := hadm.registered (outside_of_placed hplaced)
      have hnone : s.output (i, a) = none := by
        refine hout.symm.trans ?_
        rw [(step_idle hk a).1]
      exact Or.inl ⟨hnone, _, h.enters hk hasked hnone hsim⟩
    | inside c bt =>
      obtain ⟨ans, out, hcoarse, hact⟩ := entersAs_routine hk hadm.counted
      have hraw : RawIssues o (o.output (.enter i c ans)) := by
        have hmachine : (act o.machine (.enter i c ans)).2 = out := by
          rw [h.eq]
          exact congrArg Prod.snd hact
        unfold Observed.output
        rw [hmachine]
        exact h.rawIssues (hadm.raw i out (hout.symm.trans hcoarse))
      have hbadm : Detection.Admissible o (.enter i c ans) := by
        refine ⟨?_, hraw, ?_⟩
        · rw [Enabled, hpending, hk]
          rfl
        · have hasked := h.asked i c bt hk
          rw [h.eq]
          exact hasked
      obtain ⟨hshown, houtput, hrel⟩ := h.next hsim hcoarse hout hact hcontrol
        (not_inside_after hk (Nat.succ_ne_zero 2)) hbadm
      refine Or.inr ⟨.enter i c ans, hbadm, ?_, ?_, rfl, _, hrel⟩
      · rw [houtput]
        exact hshown
      · rw [houtput]
        refine h.shows_call ?_ houtput (h.inv.step hbadm).1
        rw [hcall, hk]
        rfl
    | adding ty p bt =>
      exact Or.inr (h.resumes hadm hsim hout (resumesAs_adding hk hadm.counted)
        (not_inside_after hk (Nat.succ_ne_zero 1)) (by rw [hcall, hk]; rfl))
    | freeing p =>
      exact Or.inr (h.resumes hadm hsim hout (resumesAs_freeing hk a)
        (not_inside_after hk (Nat.succ_ne_zero 1)) (by rw [hcall, hk]; rfl))
    | reporting => exact Or.inl (h.leaves (Or.inl hk) hout hsim)
    | throwing => exact Or.inl (h.leaves (Or.inr hk) hout hsim)

/-! ## Main results -/

theorem run_matched {ls : List (θ × Input)} (h0 : Rel s o t)
    (h : Runs.Along (Simulation.states Locked.step) Admissible s ls) :
    ∃ bs, Runs.Along (Simulation.states observe) Detection.Admissible o bs ∧
      Simulation.trace observe o bs = Simulation.trace Locked.step s ls ∧
        ∃ t', Rel (Runs.final (Simulation.states Locked.step) s ls)
          (Runs.final (Simulation.states observe) o bs) t' := by
  refine Simulation.run_of_step (R := fun s o => ∃ t, Rel s o t) ?_ ⟨t, h0⟩ h
  rintro s o l ⟨t, hR⟩ hadm
  rcases hR.step hadm with ⟨hnone, t', hR'⟩ | ⟨b, hbadm, hout, -, -, t', hR'⟩
  · exact Or.inl ⟨hnone, t', hR'⟩
  · exact Or.inr ⟨b, hbadm, hout.symm, t', hR'⟩

/-- Threads that are interleaved access by access show, in the same order, what an admissible run of
the atomic machine shows. The live blocks and the ledgers agree at the end, and so do the tables once
the lock is free. -/
structure RefinedBy (ls : List (θ × Input)) (bs : List (Action θ)) : Prop where
  admissible : Runs.Along Detection.step Detection.Admissible .init bs
  trace : Simulation.trace observe .init bs = Simulation.trace Locked.step .init ls
  ledger : (Runs.final Detection.step .init bs).ledger =
    (Runs.final (Simulation.states Locked.step) .init ls).ledger
  live : (Runs.final Detection.step .init bs).machine.live =
    (Runs.final (Simulation.states Locked.step) .init ls).fine.world
  table : (Runs.final (Simulation.states Locked.step) .init ls).fine.owner = none →
    (Runs.final Detection.step .init bs).machine.memoryItems =
      (Runs.final (Simulation.states Locked.step) .init ls).fine.data

/-- The lock makes the routines atomic. -/
theorem locks_refine_atomic {ls : List (θ × Input)}
    (h : Runs.Along (Simulation.states Locked.step) Admissible .init ls) :
    ∃ bs, RefinedBy ls bs := by
  obtain ⟨bs, hbs, htrace, t', hR⟩ := run_matched Rel.init h
  refine ⟨bs, hbs, htrace, congrArg Observed.ledger hR.eq, hR.live, fun howner => ?_⟩
  have hmem := congrArg (fun o => o.machine.memoryItems) hR.eq
  exact hmem.trans (hR.sim.free howner).symm

/-- Thread `i` takes `n` steps inside its call. -/
def steps (i : Bool) (n : ℕ) (raw : Addr) : List (Bool × Input) :=
  List.replicate n (i, ⟨.alloc 0 .new true, ⟨raw, none⟩, .counted⟩)

/-- Two threads want the lock at the same time, first to register a block each, then for a release
and a realloc of the same block. -/
def contendedRun : List (Bool × Input) :=
  [(false, ⟨.alloc 8 .malloc false, ⟨0, none⟩, .counted⟩),
    (true, ⟨.alloc 8 .new true, ⟨0, none⟩, .counted⟩)] ++
    steps false 1 16 ++ steps true 1 32 ++ steps false 2 0 ++ steps true 1 0 ++ steps false 3 0 ++
    steps true 5 0 ++
    [(true, ⟨.delete 16 .malloc, ⟨0, some 2⟩, .counted⟩),
      (false, ⟨.reAlloc 16 24, ⟨0, some 3⟩, .counted⟩)] ++
    steps true 1 0 ++ steps false 1 0 ++ steps true 7 0 ++ steps false 6 48 ++ steps true 1 0

theorem locks_refine_atomic_contendedRun : ∃ bs, RefinedBy contendedRun bs :=
  locks_refine_atomic (by decide)

/-- Detection is exact access by access: no iterator dangles, and each output is the one that the
ledger of the outputs before it asks for. -/
theorem locked_exact {ls : List (θ × Input)}
    (h : Runs.Along (Simulation.states Locked.step) Admissible (.init : Monitored θ) ls) :
    Runs.Along (Simulation.states Locked.step) Exact .init ls := by
  refine Runs.along_of_invariant (I := fun s => ∃ o t, Rel s o t) ?_ ?_ ⟨_, _, Rel.init⟩ h
  · rintro s l ⟨o, t, hR⟩ hadm
    rcases hR.step hadm with ⟨-, t', hR'⟩ | ⟨b, -, -, -, -, t', hR'⟩
    · exact ⟨o, t', hR'⟩
    · exact ⟨_, t', hR'⟩
  · rintro s l ⟨o, t, hR⟩ hadm i u hout
    rcases hR.step hadm with ⟨hnone, -⟩ | ⟨b, -, hshown, hshows, hthread, -⟩
    · rw [hnone] at hout
      cases hout
    · rw [hshown] at hout
      cases hout
      refine ⟨_, rfl, ?_⟩
      rw [hthread]
      exact hshows

theorem locked_exact_contendedRun :
    Runs.Along (Simulation.states Locked.step) Exact .init contendedRun :=
  locked_exact (by decide)

/-- At most one thread is between `lock` and `unlock`, and one that is out of its section, however it
left it, does not hold the lock. Whatever has happened, some schedule brings all threads out of their
routines and leaves the lock free. -/
theorem lock_safe_and_live [Fintype θ] (ls : List (θ × Input)) :
    let s := Runs.final (Simulation.states (Critical.Fine.step code)) (.start ∅ ∅ .idle : Fine θ) ls
    (∀ i j, (∀ k, s.phase i ≠ .outside k) → (∀ k, s.phase j ≠ .outside k) → i = j) ∧
      (∀ i k, s.phase i = .outside k → s.owner ≠ some i) ∧
      ∃ ms, let s' := Runs.final (Simulation.states (Critical.Fine.step code)) s ms
        s'.owner = none ∧ ∀ i, s'.phase i = .outside .idle := by
  intro s
  have hstart : Critical.Sim code (.start ∅ ∅ .idle : Fine θ) (.start ∅ ∅ .idle) :=
    Critical.Sim.start ∅ ∅ Control.idle
  obtain ⟨t, hsim⟩ := hstart.run guarded_code ls
  refine ⟨fun i j hi hj => hsim.exclusive hi hj, fun i k hk => hsim.released hk, ?_⟩
  obtain ⟨ms, howner, hhome⟩ := Critical.no_deadlock guarded_code leads_code
    ⟨.setMaxAllowedAllocInTheSameStack 0, ⟨0, none⟩, .counted⟩ hsim
  refine ⟨ms, howner, fun i => ?_⟩
  obtain ⟨k, hk, hzero⟩ := hhome i
  cases k with
  | idle => exact hk
  | inside c bt => cases hzero
  | adding ty p bt => cases hzero
  | freeing p => cases hzero
  | reporting => cases hzero
  | throwing => cases hzero

/-- `AddEntryWithKnownHash` throws in one thread, while the other one waits for the lock, and the
registration of the other one reports a leak. -/
def throwingRun : List (Bool × Input) :=
  [(false, ⟨.alloc 8 .malloc false, ⟨0, none⟩, .counted⟩),
    (true, ⟨.alloc 8 .new true, ⟨0, none⟩, .counted⟩)] ++
    steps false 1 16 ++ steps true 1 32 ++ steps false 2 0 ++ steps true 1 0 ++
    [(false, ⟨.alloc 0 .new true, ⟨0, none⟩, .itemThrows⟩)] ++ steps false 1 0 ++ steps true 2 0 ++
    [(true, ⟨.alloc 0 .new true, ⟨0, none⟩, .leak⟩)] ++ steps true 2 0

/-- Both threads have left the lock when the exception and the report are on their way. -/
theorem lock_safe_and_live_throwingRun :
    let s := Runs.final (Simulation.states (Critical.Fine.step code)) (.start ∅ ∅ .idle : Fine Bool)
      throwingRun
    s.phase false = .outside .throwing ∧ s.phase true = .outside .reporting ∧ s.owner = none ∧
      ∃ ms, let s' := Runs.final (Simulation.states (Critical.Fine.step code)) s ms
        s'.owner = none ∧ ∀ i, s'.phase i = .outside .idle := by
  intro s
  obtain ⟨-, hreleased, hlive⟩ := lock_safe_and_live throwingRun
  have hfalse : s.phase false = .outside .throwing := rfl
  have htrue : s.phase true = .outside .reporting := rfl
  refine ⟨hfalse, htrue, ?_, hlive⟩
  cases howner : s.owner with
  | none => rfl
  | some i =>
    cases i with
    | false => exact absurd howner (hreleased false _ hfalse)
    | true => exact absurd howner (hreleased true _ htrue)

end Simulation

end CrashInvestigator.Detection.Locked
