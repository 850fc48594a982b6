import CrashInvestigator.Detection.Proofs.ExactnessProofs
import CrashInvestigator.Tracker.Proofs.AgreementProofs

/-!
# Undisturbed calls

The atomic steps are those of the tracker: a call of `Tracker.call` is what a thread does when no
other thread takes a step between its two.
-/

namespace CrashInvestigator.Detection

open Tracker Library

section

variable {θ : Type*}

/-- The table and the live blocks are those of the tracker, and every thread is outside. -/
structure Mirrors (s : State θ) (st : Tracker.State) : Prop where
  records : ∀ p, s.memoryItems.lookup p = st.findMemoryItem p
  live : s.live = st.live
  idle : ∀ i, s.pending i = .idle

/-- The tracker and the step report the same failures, leaks apart. -/
def SameReports (r : Res) (o : Output) : Prop :=
  ∀ failureType, failureType ≠ .possibilityOfMemoryLeak →
    (r.Reports failureType ↔ o.failure = some failureType)

/-- What a call of the tracker needs to be mirrored: it goes on, its callbacks refuse, the table can
grow and its pointers have records. -/
structure Mirrorable (st : Tracker.State) (c : Call × Env) : Prop where
  outermost : st.Outermost
  refuses : RefusesActions c.2
  grows : c.2.memoryItem = true
  issued : PassesIssued st c.1
  running : (Tracker.call st c.2 c.1).st.process = .running

variable {s : State θ} {st : Tracker.State} {env : Env} {i : θ} {c : Call}

/-- The answers that the environment of a tracker call gives to the steps. -/
def answers (st : Tracker.State) (env : Env) : Answers := ⟨env.raw, st.captured env⟩

theorem acts_of_refuses (h : RefusesActions env) : ActsOnTypeErrorsOnly env := by
  intro d hd
  rw [h d] at hd
  cases hd

theorem sameReports_of_silent {r : Res} {o : Output} (ho : o.failure = none)
    (hr : ∀ d a, Event.clbkFnc d a ∈ r.events → d.failureType = .possibilityOfMemoryLeak) :
    SameReports r o := by
  intro ft hft
  rw [ho]
  constructor
  · rintro ⟨d, a, hmem, hd⟩
    exact absurd (hd.symm.trans (hr d a hmem)) hft
  · intro h
    cases h

/-- A refused report is mirrored by the same report. -/
theorem Mirrors.report (h : Mirrors s st) (href : RefusesActions env) (st₁ : Tracker.State)
    {item : SMemoryItem} {p : Addr} {n : ℕ} {ft : FailureType} (hft : ft ≠ .unknown)
    (hmem : st₁.memoryItems = st.memoryItems) (hlive : st₁.live = st.live) {r : Res}
    (hr : r = initFailureDataAndCallClbk st₁ env item .notProvided p n ft (st.captured env)) :
    Mirrors s r.st ∧ SameReports r (.report ft item p n) := by
  rw [initFailure_doNot st₁ env item .notProvided p n ft _ hft (href _)] at hr
  subst hr
  refine ⟨⟨fun a => ?_, ?_, h.idle⟩, fun ft' _ => ?_⟩
  · rw [h.records]
    show _ = Entries.lookup _ st₁.memoryItems
    rw [hmem]
    rfl
  · rw [h.live]
    exact hlive.symm
  · constructor
    · rintro ⟨d, a, hd, hkind⟩
      cases List.mem_singleton.mp hd
      rw [← hkind]
      rfl
    · intro hkind
      cases hkind
      exact ⟨_, _, List.mem_singleton_self _, rfl⟩

/-- What a registration leaves, once its two tables and the live blocks are known. -/
theorem Mirrors.registered {st₁ : Tracker.State} {ty : MemoryType} {p : Addr} {bt : BacktracePtr}
    (s₁ : State θ) (href : RefusesActions env) (hgrow : env.memoryItem = true)
    (hrec : ∀ a, s₁.memoryItems.lookup a = st₁.findMemoryItem a) (hlive : s₁.live = st₁.live)
    (hrun : (Tracker.addNewAllocatedMemoryAndCleanOldEntryNoLock st₁ env ty p bt).st.process =
      .running) {s' : State θ}
    (hmem : s'.memoryItems =
      addNewAllocatedMemoryAndCleanOldEntryNoLock s₁.memoryItems ty p bt)
    (hlive' : s'.live = s₁.live) (hidle : ∀ j, s'.pending j = .idle) :
    Mirrors s' (Tracker.addNewAllocatedMemoryAndCleanOldEntryNoLock st₁ env ty p bt).st := by
  refine ⟨fun a => ?_, ?_, hidle⟩
  · rw [hmem, addNew_find (Or.inl hgrow)]
    unfold addNewAllocatedMemoryAndCleanOldEntryNoLock
    split_ifs with ha
    · subst ha
      exact Finmap.lookup_insert ..
    · rw [Finmap.lookup_insert_of_ne _ ha]
      exact hrec a
  · rw [hlive', hlive]
    exact (addNew_live (acts_of_refuses href) rfl hrun).1.symm

variable [DecidableEq θ]

/-- A call whose two steps follow each other. -/
def undisturbed (s : State θ) (i : θ) (c : Call) (ans : Answers) : State θ :=
  (resume (enter s i ans c).1 i).1

theorem resume_idle (h : s.pending i = .idle) : (resume s i).1 = s := by
  simp [resume, h]

/-- A record is written alike in the table of the machine and in that of the tracker. -/
theorem lookup_insert_eq {m : MemoryItems} {p : Addr} {item : SMemoryItem}
    (hrec : ∀ a, m.lookup a = st.findMemoryItem a) (hsome : (st.findMemoryItem p).isSome)
    (a : Addr) : (m.insert p item).lookup a = (st.setMemoryItem p item).findMemoryItem a := by
  rw [findMemoryItem_setMemoryItem _ _ _ hsome]
  split_ifs with ha
  · rw [ha, Finmap.lookup_insert]
  · rw [Finmap.lookup_insert_of_ne _ ha, hrec]

theorem Mirrors.release (h : Mirrors s st) {p : Addr} {t : MemoryType}
    (hm : Mirrorable st (c, env)) (heff : c.effect = .release p t) :
    Mirrors (undisturbed s i c (answers st env)) (Tracker.call st env c).st ∧
      SameReports (Tracker.call st env c) (enter s i (answers st env) c).2 := by
  obtain ⟨item, hf⟩ := Option.isSome_iff_exists.mp (hm.issued.1 p t heff)
  have hf' : s.memoryItems.lookup p = some item := by rw [h.records, hf]
  have hp := (release_ne_zero heff).1
  have hrun := hm.running
  simp only [call_release hm.outermost heff] at hrun ⊢
  unfold undisturbed
  rw [enter_release s i _ heff]
  rcases Tracker.testOperatorDelete_cases env hm.outermost hp t with ⟨hn, -⟩ | ⟨it, hi, hst, hr⟩ |
    ⟨it, pr, -, -, hrem, hr⟩ | ⟨it, st₁, hi, hst, hrem, hty, hr⟩ |
    ⟨it, st₁, hi, hst, hrem, hty, hr⟩
  · rw [hf] at hn
    cases hn
  · rw [hf] at hi
    cases hi
    have henter : testOperatorDelete s i p t (answers st env) =
        (s, .report .doubleFree item p 0) := by
      simp [testOperatorDelete, hp, hf', hst]
    rw [henter, resume_idle (h.idle i)]
    exact h.report hm.refuses (st.capture env) (by simp) rfl rfl hr
  · rw [hr] at hrun
    exact absurd hrun (removeCorrespondingTrace_error hrem)
  · rw [hf] at hi
    cases hi
    have hframe := removeCorrespondingTrace_frame hrem
    have henter : testOperatorDelete s i p t (answers st env) =
        (s, .report .freeMissmatch item p 0) := by
      simp [testOperatorDelete, hp, hf', hst, hty]
    rw [henter, resume_idle (h.idle i)]
    exact h.report hm.refuses st₁ (by simp) (by rw [hframe]; rfl) (by rw [hframe]; rfl) hr
  · rw [hf] at hi
    cases hi
    have hframe := removeCorrespondingTrace_frame hrem
    set released : SMemoryItem := { item with
      status := .deallocated, deallocTrace := st.captured env } with hreleased
    have henter : testOperatorDelete s i p t (answers st env) =
        ({ s with memoryItems := s.memoryItems.insert p released }.await i
          (.freen item.realAddress), .released p item.realAddress) := by
      simp [testOperatorDelete, hp, hf', hst, hty, hreleased, answers]
    have hfind : ∀ a, st₁.findMemoryItem a = st.findMemoryItem a := by
      intro a
      rw [hframe]
      rfl
    rw [henter, hr]
    refine ⟨⟨fun a => ?_, ?_, fun j => ?_⟩, sameReports_of_silent rfl (by simp)⟩
    · have hleft : (resume ({ s with memoryItems := s.memoryItems.insert p released }.await i
          (.freen item.realAddress)) i).1.memoryItems = s.memoryItems.insert p released := by
        simp [resume, State.await]
      rw [hleft]
      exact lookup_insert_eq (fun b => by rw [h.records, hfind]) (by rw [hfind, hf]; rfl) a
    · simp only [resume, State.await, Function.update_self]
      show s.live.erase item.realAddress = st₁.live.erase item.realAddress
      rw [h.live, hframe]
      rfl
    · by_cases hj : j = i
      · subst hj
        simp [resume, State.await]
      · simp [resume, State.await, hj, h.idle j]

theorem Mirrors.allocate (h : Mirrors s st) {t : MemoryType} (hm : Mirrorable st (c, env))
    (heff : c.effect = .allocate t) :
    Mirrors (undisturbed s i c (answers st env)) (Tracker.call st env c).st ∧
      SameReports (Tracker.call st env c) (enter s i (answers st env) c).2 := by
  unfold undisturbed
  rw [enter_allocate s i _ heff]
  by_cases hraw : env.raw = 0
  · obtain ⟨hst, hev⟩ := call_allocate_null hm.outermost heff hraw
    rw [if_pos (by exact hraw), resume_idle (h.idle i), hst]
    refine ⟨h, sameReports_of_silent rfl fun d a hmem => ?_⟩
    exact absurd rfl (Event.isAllocation.ne_clbkFnc (hev _ hmem) d a)
  · rw [if_neg (by exact hraw)]
    have hrun := hm.running
    simp only [call_allocate_st hm.outermost heff hraw] at hrun ⊢
    refine ⟨?_, ?_⟩
    · refine Mirrors.registered { s with live := insert env.raw s.live } hm.refuses hm.grows
        ?_ ?_ hrun ?_ ?_ ?_
      · intro a
        show s.memoryItems.lookup a = (st.mallocn env.raw).findMemoryItem a
        rw [h.records, mallocn_eq]
        rfl
      · show insert env.raw s.live = (st.mallocn env.raw).live
        rw [mallocn_live _ _ hraw, h.live]
      · simp [resume, State.await, answers]
      · simp [resume, State.await, answers]
      · intro j
        by_cases hj : j = i
        · subst hj
          simp [resume, State.await]
        · simp [resume, State.await, hj, h.idle j]
    · refine sameReports_of_silent rfl fun d a hmem => ?_
      obtain ⟨e, he, hcall⟩ : ∃ e : Event, e.isAllocation = true ∧ _ :=
        call_allocate hm.outermost heff hraw
      rw [hcall] at hmem
      rcases List.mem_cons.mp hmem with hd | hd
      · exact absurd hd.symm (Event.isAllocation.ne_clbkFnc he d a)
      · exact addNew_events hd

theorem Mirrors.move (h : Mirrors s st) {p : Addr} {n : ℕ} (hm : Mirrorable st (c, env))
    (heff : c.effect = .move p n) :
    Mirrors (undisturbed s i c (answers st env)) (Tracker.call st env c).st ∧
      SameReports (Tracker.call st env c) (enter s i (answers st env) c).2 := by
  obtain ⟨item, hf⟩ := Option.isSome_iff_exists.mp (hm.issued.2 p n heff)
  have hf' : s.memoryItems.lookup p = some item := by rw [h.records, hf]
  obtain ⟨-, hp, hn⟩ := move_ne_zero heff
  have hrun := hm.running
  simp only [call_move heff] at hrun ⊢
  unfold undisturbed
  rw [enter_move s i _ heff]
  have hlive : (if env.raw = 0 then s.live else insert env.raw (s.live.erase item.realAddress)) =
      ((st.capture env).reallocn item.realAddress env.raw).live := by
    unfold Tracker.State.reallocn
    rw [h.live]
    split_ifs <;> rfl
  rcases Tracker.testOperatorReAlloc_cases env hm.outermost hp hn with ⟨hno, -⟩ |
    ⟨it, hi, hty, hr⟩ | ⟨it, hi, hty, hst, hr⟩ | ⟨it, hi, hty, hst, hraw, hr⟩ |
    ⟨it, pr, -, -, -, -, hrem, hr⟩ | ⟨it, st₁, r, hi, hty, hst, hraw, hrem, hrr, hr⟩
  · rw [hf] at hno
    cases hno
  · rw [hf] at hi
    cases hi
    have henter : testOperatorReAlloc s i p n (answers st env) =
        (s, .report .badReallocCreatedByWrongAlloc item p n) := by
      simp [testOperatorReAlloc, hp, hn, hf', hty]
    rw [henter, resume_idle (h.idle i)]
    exact h.report hm.refuses (st.capture env) (by simp) rfl rfl hr
  · rw [hf] at hi
    cases hi
    have henter : testOperatorReAlloc s i p n (answers st env) =
        (s, .report .badReallocDeletedMem item p n) := by
      simp [testOperatorReAlloc, hp, hn, hf', hty, hst]
    rw [henter, resume_idle (h.idle i)]
    exact h.report hm.refuses (st.capture env) (by simp) rfl rfl hr
  · rw [hf] at hi
    cases hi
    set kept : State θ := { s with
      live := if env.raw = 0 then s.live else insert env.raw (s.live.erase item.realAddress) }
      with hkept
    have henter : testOperatorReAlloc s i p n (answers st env) =
        (kept, .reallocn p item.realAddress env.raw) := by
      simp [testOperatorReAlloc, hp, hn, hf', hty, hst, hraw, hkept, answers]
    rw [henter, hr, resume_idle (s := kept) (h.idle i)]
    refine ⟨⟨fun a => ?_, ?_, h.idle⟩, sameReports_of_silent rfl (by simp)⟩
    · rw [h.records]
      show _ = Entries.lookup _ ((st.capture env).reallocn item.realAddress env.raw).memoryItems
      rw [reallocn_memoryItems]
      rfl
    · exact hlive
  · rw [hr] at hrun
    exact absurd hrun (removeCorrespondingTrace_error hrem)
  · rw [hf] at hi
    cases hi
    have hframe := removeCorrespondingTrace_frame hrem
    set moved : SMemoryItem := { item with status := .duringReallocChanged } with hmoved
    set unregistered : State θ := { s with
      live := if env.raw = 0 then s.live else insert env.raw (s.live.erase item.realAddress),
      memoryItems := s.memoryItems.insert p moved } with hun
    set done : State θ := { unregistered with
      memoryItems := addNewAllocatedMemoryAndCleanOldEntryNoLock unregistered.memoryItems .malloc
        env.raw (st.captured env) } with hdone
    have henter : testOperatorReAlloc s i p n (answers st env) =
        (done, .reallocn p item.realAddress env.raw) := by
      rcases testOperatorReAlloc_cases s i (answers st env) hp hn hf' with ⟨hty', -⟩ |
        ⟨-, hst', -⟩ | ⟨-, -, hraw', -⟩ | ⟨-, -, -, hr'⟩
      · exact absurd hty hty'
      · exact absurd hst hst'
      · exact absurd hraw' hraw
      · exact hr'
    rw [henter, resume_idle (s := done) (h.idle i), hr]
    rw [hr] at hrun
    subst hrr
    refine ⟨Mirrors.registered unregistered hm.refuses hm.grows (fun a => ?_) ?_ hrun rfl
      rfl h.idle, ?_⟩
    · have hfind : ∀ b, st₁.findMemoryItem b = st.findMemoryItem b := by
        intro b
        rw [hframe, reallocn_eq]
        rfl
      exact lookup_insert_eq (fun b => by rw [h.records, hfind]) (by rw [hfind, hf]; rfl) a
    · show _ = st₁.live
      rw [hframe]
      exact hlive
    · refine sameReports_of_silent rfl fun d a hmem => ?_
      rcases List.mem_cons.mp hmem with hd | hd
      · cases hd
      · exact addNew_events hd

/-- A call that is not disturbed does what the tracker does, and reports what it reports. -/
theorem Mirrors.call (h : Mirrors s st) (hm : Mirrorable st (c, env)) :
    Mirrors (undisturbed s i c (answers st env)) (Tracker.call st env c).st ∧
      SameReports (Tracker.call st env c) (enter s i (answers st env) c).2 := by
  cases heff : c.effect with
  | nothing =>
    obtain ⟨hst, hev⟩ : (Tracker.call st env c).st = st ∧ (Tracker.call st env c).events = [] :=
      call_nothing hm.outermost heff
    unfold undisturbed
    rw [enter_nothing s i _ heff, resume_idle (h.idle i), hst]
    exact ⟨h, sameReports_of_silent rfl (by simp [hev])⟩
  | setMax n =>
    obtain ⟨hst, hev⟩ : (Tracker.call st env c).st = _ ∧ (Tracker.call st env c).events = [] :=
      call_setMax heff
    unfold undisturbed
    rw [enter_setMax s i _ heff, resume_idle (h.idle i), hst]
    exact ⟨⟨h.records, h.live, h.idle⟩, sameReports_of_silent rfl (by simp [hev])⟩
  | allocate t => exact h.allocate hm heff
  | release p t => exact h.release hm heff
  | move p n => exact h.move hm heff

/-! ## Runs -/

/-- One thread and the tracker make the same call. -/
def pairedStep (i : θ) (s : State θ × Tracker.State) (c : Call × Env) : State θ × Tracker.State :=
  (undisturbed s.1 i c.1 (answers s.2 c.2), Tracker.step s.2 c)

/-- Along a run of undisturbed calls the machine mirrors the tracker. -/
theorem mirrors_run (i : θ) {cs : List (Call × Env)}
    (h : Runs.Along (pairedStep i) (fun s c => Mirrorable s.2 c) (.init, .init) cs) :
    Runs.Always (pairedStep i) (fun s => Mirrors s.1 s.2) (.init, .init) cs := by
  refine Runs.always_of_invariant (fun s c hI hm => ?_) ?_ h
  · obtain ⟨s, st⟩ := s
    obtain ⟨c, env⟩ := c
    show Mirrors _ (Tracker.step st (c, env))
    rw [Tracker.step_eq hm.outermost]
    exact (hI.call hm).1
  · exact ⟨fun _ => by simp [State.init, Tracker.State.init, Tracker.State.findMemoryItem], rfl,
      fun _ => rfl⟩

end

end CrashInvestigator.Detection
