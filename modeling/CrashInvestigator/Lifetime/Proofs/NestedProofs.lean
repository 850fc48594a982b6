import CrashInvestigator.Lifetime.Nested
import CrashInvestigator.Lifetime.Proofs.WorldProofs
import CrashInvestigator.Tracker.Proofs.NestingProofs

/-!
# Nested calls over the real tables

A nested call ends without a misuse, whatever it is: it comes to no table. So the run of the real tables
is that of the tracker as long as the outermost calls are clean, and the records stay truthful.
-/

namespace CrashInvestigator.Lifetime

open Library
open Tracker (BacktracePtr BlockLedger NestInv)

/-! ## Nested calls -/

/-- A call that finds the flag set leaves the tables alone. -/
theorem exportedCall_flagged (w : World) (c : Tracker.Call) (env : ExportedEnv) (t : BacktracePtr) :
    ∃ r n, exportedCall (w.withFlag true).st env (.plain c) = .ok r ∧
      r.st = { (w.withFlag true).st with unMaxNumberOfAllocFromTheSameStack := n } ∧
      r.events = (Tracker.call (w.withFlag true).abs (env.abs t) c).events ∧
      ((w.withFlag true).after r).abs = (Tracker.call (w.withFlag true).abs (env.abs t) c).st := by
  have hmallocn : ∀ (T : Tracker.State) n q, T.mallocn q =
      T.withLive (Tracker.Event.rawBlocks T.live (.mallocn n q)) := by
    intro T n q
    rw [← Tracker.mallocn_rawBlocks]
    exact Tracker.mallocn_eq T q
  have hreallocn : ∀ (T : Tracker.State) p n q, T.reallocn p q =
      T.withLive (Tracker.Event.rawBlocks T.live (.reallocn p n q)) := by
    intro T p n q
    rw [← Tracker.reallocn_rawBlocks]
    exact Tracker.reallocn_eq T p q
  cases c with
  | alloc count ty bThrow => exact ⟨_, _, rfl, rfl, rfl, (hmallocn (w.withFlag true).abs count env.raw).symm⟩
  | calloc nmemb size => exact ⟨_, _, rfl, rfl, rfl, (hmallocn (w.withFlag true).abs 0 env.raw).symm⟩
  | reAlloc p count => exact ⟨_, _, rfl, rfl, rfl, (hreallocn (w.withFlag true).abs p count env.raw).symm⟩
  | delete p ty =>
    by_cases hp : p = 0
    · subst hp
      exact ⟨_, _, rfl, rfl, rfl, rfl⟩
    · have hcall : Tracker.call (w.withFlag true).abs (env.abs t) (.delete p ty) =
          ⟨(w.withFlag true).abs.freen p, .returns 0, [.freen p]⟩ := if_neg hp
      rw [hcall]
      refine ⟨⟨(w.withFlag true).st, .returns 0, [.freen p]⟩, _, ?_, rfl, rfl, rfl⟩
      have hdelete : testOperatorDelete (w.withFlag true).st env.toEnv p ty =
          .ok ⟨(w.withFlag true).st, .returns 0, [.freen p]⟩ := if_neg hp
      simp only [exportedCall, hdelete]
      rfl
  | setMaxAllowedAllocInTheSameStack n => exact ⟨_, n, rfl, rfl, rfl, rfl⟩

/-- The answers to a call in the terms of the tracker; a nested call does not ask for the thread's item. -/
def answersWith (t : BacktracePtr) (c : Tracker.Call × ExportedEnv) : Tracker.Call × Tracker.Env :=
  (c.1, c.2.abs t)

/-- What a nested call or a run of them does to the ledger `l`. -/
structure Undisturbed (l l' : Ledger) : Prop where
  intact : Intact l.world.st → Intact l'.world.st
  process : l'.world.st.process = l.world.st.process
  note : l'.world.st.handlerTrace = l.world.st.handlerTrace

theorem nestedCall_mirrors (l : Ledger) (c : Tracker.Call × ExportedEnv) (t : BacktracePtr) :
    ∃ l', nestedCall (.ok l) c = .ok l' ∧ l'.abs = l.abs.nestedCall (answersWith t c) ∧
      Undisturbed l l' := by
  obtain ⟨r, n, hok, hst, hevents, habs⟩ := exportedCall_flagged l.world c.1 c.2 t
  have hworld : (World.withFlag (l.world.after r) l.world.st.bIsAllocingOrDeallocing).abs =
      { (Tracker.call (l.world.withFlag true).abs (c.2.abs t) c.1).st with
        bIsAllocingOrDeallocing := l.world.st.bIsAllocingOrDeallocing } := by
    rw [← habs]
    rfl
  have hfreed : r.freed = (Tracker.call (l.world.withFlag true).abs (c.2.abs t) c.1).freed :=
    congrArg (List.filterMap Tracker.Event.freed) hevents
  have hissued : r.issued = (Tracker.call (l.world.withFlag true).abs (c.2.abs t) c.1).issued :=
    congrArg (List.filterMap Tracker.Event.issued) hevents
  have hcall : nestedCall (.ok l) c = .ok
      { world := (l.world.after r).withFlag l.world.st.bIsAllocingOrDeallocing
        live := l.live \ r.freed.toFinset
        freedInside := (l.freedInside ∪ r.freed.toFinset) \ r.issued.toFinset } := by
    simp only [nestedCall, Except.bind, hok, Except.map]
  refine ⟨_, hcall, ?_, fun h => ?_, ?_, ?_⟩
  · show BlockLedger.mk _ _ _ = BlockLedger.mk _ _ _
    rw [hworld, hfreed, hissued]
    rfl
  · show Intact { r.st with bIsAllocingOrDeallocing := l.world.st.bIsAllocingOrDeallocing }
    rw [hst]
    exact h.congr h.note rfl
  · show r.st.process = _
    rw [hst]
    rfl
  · show r.st.handlerTrace = _
    rw [hst]
    rfl

/-- By induction on the calls. -/
theorem nestedCalls_mirror (l : Ledger) (cs : List (Tracker.Call × ExportedEnv)) (t : BacktracePtr) :
    ∃ l', Runs.final nestedCall (.ok l) cs = .ok l' ∧
      l'.abs = Runs.final BlockLedger.nestedCall l.abs (cs.map (answersWith t)) ∧
      Undisturbed l l' := by
  induction cs generalizing l with
  | nil => exact ⟨l, rfl, rfl, id, rfl, rfl⟩
  | cons c cs ih =>
    obtain ⟨l₁, hok, habs, hkept⟩ := nestedCall_mirrors l c t
    obtain ⟨l₂, hok', habs', hkept'⟩ := ih l₁
    refine ⟨l₂, ?_, ?_, fun h => hkept'.intact (hkept.intact h), hkept'.process.trans hkept.process,
      hkept'.note.trans hkept.note⟩
    · rw [Runs.final_cons, hok, hok']
    · rw [habs', habs]
      rfl

/-! ## Outermost calls -/

/-- The notes for the signal handler move no block. -/
theorem filterMap_filter_note {f : Tracker.Event → Option Tracker.Addr}
    (hf : ∀ item, f (.handlerMemoryInit item) = none) (events : List Tracker.Event) :
    (events.filter fun e => !isNote e).filterMap f = events.filterMap f := by
  induction events with
  | nil => rfl
  | cons e events ih =>
    cases e with
    | handlerMemoryInit item => rw [List.filter_cons_of_neg (by simp [isNote]), ih,
        List.filterMap_cons_none (hf item)]
    | _ => rw [List.filter_cons_of_pos (by simp [isNote]), List.filterMap_cons, List.filterMap_cons, ih]

theorem outermostCall_mirrors {l : Ledger} {c : Tracker.Call × ExportedEnv} (h : Intact l.world.st)
    (hrun : l.world.st.process = .running) (hC : Clean l.world.st (.plain c.1, c.2)) :
    ∃ l', outermostCall (.ok l) c = .ok l' ∧ Intact l'.world.st ∧
      l'.abs = l.abs.outermostCall (c.1, l.world.answers c.2) := by
  obtain ⟨r, hok, hintact, hmirrors, habs⟩ := World.call_mirrors h hrun hC
  have hcall : outermostCall (.ok l) c = .ok
      { world := l.world.after r
        live := l.live \ r.freed.toFinset ∪
          if r.out = .returns c.2.raw then
            (l.world.abs.registered (c.1, l.world.answers c.2)).toFinset
          else ∅
        freedInside := l.freedInside \ r.issued.toFinset } := by
    simp only [outermostCall, Except.bind, hok, Except.map]
  have hfreed : r.freed = (Tracker.call l.world.abs (l.world.answers c.2) c.1).freed := by
    rw [ExportedRes.freed, ← hmirrors.events]
    exact filterMap_filter_note (fun _ => rfl) _
  have hissued : r.issued = (Tracker.call l.world.abs (l.world.answers c.2) c.1).issued := by
    rw [ExportedRes.issued, ← hmirrors.events]
    exact filterMap_filter_note (fun _ => rfl) _
  refine ⟨_, hcall, hintact, ?_⟩
  show BlockLedger.mk _ _ _ = BlockLedger.mk _ _ _
  rw [habs, hfreed, hissued, ← hmirrors.out]
  rfl

/-! ## Runs -/

theorem running_iff {l : Ledger} : Ledger.running (.ok l) = false ↔ l.abs.st.process ≠ .running := by
  show decide (l.world.st.process = .running) = false ↔ l.world.st.process ≠ .running
  exact decide_eq_false_iff_not

variable {x : Except Misuse Ledger} {m : MixedCall}

/-- The calls before the raw request of the outermost call, and the outermost call. -/
theorem entered_mirrors (l : Ledger) (m : MixedCall) (h : Intact l.world.st) :
    ∃ l₁, entered (.ok l) m = .ok l₁ ∧ Intact l₁.world.st ∧
      l₁.abs = l.abs.entered (mirroredCall (.ok l) m) ∧
      l₁.world.st.process = l.world.st.process ∧
      l₁.world.st.handlerTrace = l.world.st.handlerTrace := by
  obtain ⟨l₁, hok, habs, hkept⟩ := nestedCalls_mirror l m.before l.world.st.handlerTrace
  exact ⟨l₁, hok, hkept.intact h, habs, hkept.process, hkept.note⟩

/-- A whole step whose outermost call is clean. -/
theorem mixedStep_mirrors {l : Ledger} (h : Intact l.world.st) (hm : KeepsTruth (.ok l) m) :
    ∃ l', mixedStep (.ok l) m = .ok l' ∧ Intact l'.world.st ∧
      l'.abs = l.abs.step (mirroredCall (.ok l) m) := by
  unfold mixedStep BlockLedger.step
  by_cases hrun : l.abs.st.process = .running
  · obtain ⟨l₁, hentered, hl₁, habs₁, hprocess, hnote⟩ := entered_mirrors l m h
    obtain ⟨l₂, hserved, hl₂, habs₂⟩ := outermostCall_mirrors hl₁ (hprocess.trans hrun)
      (hm.clean l₁ (congrArg Except.toOption hentered))
    have hserved' : served (.ok l) m = .ok l₂ := by rw [served, hentered, hserved]
    have habs : l₂.abs = l.abs.served (mirroredCall (.ok l) m) := by
      rw [habs₂, habs₁]
      unfold BlockLedger.served World.answers
      rw [hnote]
      rfl
    rw [if_neg (mt running_iff.mp (not_not.mpr hrun)), if_neg (not_not.mpr hrun), hserved', ← habs]
    by_cases hrun₂ : l₂.abs.st.process = .running
    · rw [if_neg (mt running_iff.mp (not_not.mpr hrun₂)), if_neg (not_not.mpr hrun₂)]
      obtain ⟨l₃, hok, habs₃, hkept⟩ := nestedCalls_mirror l₂ m.after l.world.st.handlerTrace
      exact ⟨l₃, hok, hkept.intact hl₂, habs₃⟩
    · rw [if_pos (running_iff.mpr hrun₂), if_pos hrun₂]
      exact ⟨l₂, rfl, hl₂, rfl⟩
  · rw [if_pos (running_iff.mpr hrun), if_pos hrun]
    exact ⟨l, rfl, h, rfl⟩

/-- Nothing was misused, and the tracker's invariant holds of the tables. -/
def TruthInv (x : Except Misuse Ledger) : Prop :=
  ∃ l, x = .ok l ∧ Intact l.world.st ∧ NestInv l.abs

theorem TruthInv.init : TruthInv (.ok (.init false)) := ⟨_, rfl, .init false, NestInv.init⟩

theorem TruthInv.truthful (h : TruthInv x) : TruthfulTables x := by
  obtain ⟨l, rfl, -, hl⟩ := h
  exact ⟨l, rfl, hl.truthful⟩

theorem TruthInv.step (h : TruthInv x) (hm : KeepsTruth x m) : TruthInv (mixedStep x m) := by
  obtain ⟨l, rfl, hintact, hl⟩ := h
  obtain ⟨l', hstep, hintact', habs⟩ := mixedStep_mirrors hintact hm
  refine ⟨l', hstep, hintact', ?_⟩
  rw [habs]
  exact hl.step (hm.tracked l rfl)

theorem TruthInv.reportsStaleCall (h : TruthInv x) (hm : KeepsTruth x m) : ReportsStaleCall x m := by
  obtain ⟨l, rfl, hintact, hl⟩ := h
  intro p t heff l₁ hmem hp
  obtain ⟨l₁', hentered, hl₁, habs₁, hprocess, hnote⟩ := entered_mirrors l m hintact
  rw [hentered] at hmem
  cases hmem
  have hclean := hm.clean l₁ (congrArg Except.toOption hentered)
  obtain ⟨r, hok, -, hmirrors, -⟩ := World.call_mirrors hl₁ (hprocess.trans hl.leak.outermost.1) hclean
  have hp' : p ∈ (l.abs.entered (mirroredCall (.ok l) m)).freedInside := by
    rw [← habs₁]
    exact hp
  have hstale := hl.reportsStaleRelease (hm.tracked l rfl) p t heff hp'
  have hanswers : (mirroredCall (.ok l) m).outermost =
      (m.outermost.1, l₁.world.answers m.outermost.2) := by
    unfold World.answers
    rw [hnote]
    rfl
  rw [hanswers, ← habs₁] at hstale
  obtain ⟨⟨d, a, hev, hkind⟩, hfreed⟩ := hstale
  refine ⟨r, hok, ⟨d, a, ?_, hkind⟩, ?_⟩
  · rw [← hmirrors.events]
    exact List.mem_filter.mpr ⟨hev, rfl⟩
  · rw [ExportedRes.freed, ← hmirrors.events, filterMap_filter_note (fun _ => rfl)]
    exact hfreed

/-- In every run whose outermost calls are clean and whose nested calls spare the recorded blocks the
records are those of the registered blocks, and the release of a block that was released inside is
reported. -/
theorem nested_releases_truthful {ms : List MixedCall}
    (h : Runs.Along mixedStep KeepsTruth (.ok (.init false)) ms) :
    Runs.Always mixedStep TruthfulTables (.ok (.init false)) ms ∧
      Runs.Along mixedStep ReportsStaleCall (.ok (.init false)) ms := by
  constructor
  · refine (Runs.always_of_invariant ?_ TruthInv.init h).mono fun x hx => hx.truthful
    exact fun x m hx hm => hx.step hm
  · refine Runs.along_of_invariant ?_ ?_ TruthInv.init h
    · exact fun x m hx hm => hx.step hm
    · exact fun x m hx hm => hx.reportsStaleCall hm

/-- The block of a deallocation has a record, and the limit that is set is positive. -/
def keepsCounting (st : Tracker.State) : Tracker.Effect → Bool
  | .release p _ => (st.findMemoryItem p).isSome
  | .setMax n => 0 < n
  | _ => true

/-- What is left to check of a step whose outermost call is answered by `Env.granting`. -/
theorem keepsTruth_granting {before after : List (Tracker.Call × ExportedEnv)} {c : Tracker.Call}
    {raw : Tracker.Addr} {frames : List ℕ} {k : ℕ} (hm : m =
      ⟨before, (c, ⟨.granting raw frames k k, none⟩), after⟩) (hraw : raw ≠ 0) (hframes : frames ≠ [])
    (h : ∀ l ∈ x.toOption,
      Runs.Along BlockLedger.nestedCall Tracker.SparesRecorded l.abs (mirroredCall x m).before ∧
      Runs.Along BlockLedger.nestedCall Tracker.SparesRecorded (l.abs.served (mirroredCall x m))
        (mirroredCall x m).after ∧
      keepsCounting (l.abs.entered (mirroredCall x m)).st c.effect = true ∧
      raw ∉ (l.abs.entered (mirroredCall x m)).st.live ∧
      ¬ Tracker.Mismatching (l.abs.entered (mirroredCall x m)).st c)
    (hclean : ∀ l ∈ (entered x m).toOption,
      Clean l.world.st (.plain c, ⟨.granting raw frames k k, none⟩)) : KeepsTruth x m := by
  subst hm
  refine ⟨fun l hl => ?_, hclean⟩
  obtain ⟨hbefore, hafter, hcounting, hlive, hmatching⟩ := h l hl
  refine ⟨hbefore, hafter, fun p t heff _ => ?_, ?_, fun n heff => ?_⟩
  · have heff' : c.effect = .release p t := heff
    rw [heff'] at hcounting
    exact hcounting
  · exact ⟨Or.inr (Or.inl hlive), fun _ _ _ => hraw, ⟨⟨frames⟩, rfl, hframes⟩, ⟨rfl, rfl⟩,
      fun _ => rfl, hmatching⟩
  · have heff' : c.effect = .setMax n := heff
    rw [heff'] at hcounting
    exact of_decide_eq_true hcounting

/-- A call whose raw request is answered by `raw`. -/
def answered (c : Tracker.Call) (raw : Tracker.Addr) (frames : List ℕ) (k : ℕ) :
    Tracker.Call × ExportedEnv :=
  (c, ⟨.granting raw frames k k, none⟩)

/-- A block that lives and dies inside a call, and one that is issued to a nested call after its record
was closed, released inside and released again. -/
def staleRun : List MixedCall :=
  [⟨[answered (.alloc 8 .malloc false) 64 [1] 1], answered (.alloc 8 .new true) 16 [1] 1,
      [answered (.reAlloc 64 16) 80 [1] 2, answered (.delete 80 .malloc) 96 [1] 2]⟩,
    ⟨[], answered (.delete 16 .new) 96 [2] 2, []⟩,
    ⟨[], answered (.alloc 8 .new true) 32 [3] 2,
      [answered (.alloc 8 .malloc false) 16 [1] 3, answered (.delete 16 .malloc) 96 [1] 3]⟩,
    ⟨[], answered (.delete 16 .new) 96 [4] 3, []⟩]

theorem nested_releases_truthful_staleRun :
    Runs.Always mixedStep TruthfulTables (.ok (.init false)) staleRun ∧
      Runs.Along mixedStep ReportsStaleCall (.ok (.init false)) staleRun := by
  refine nested_releases_truthful ⟨?_, ?_, ?_, ?_, trivial⟩ <;>
    exact keepsTruth_granting rfl (by decide) (by decide) (by decide) (by decide)

/-- The failure callback that is told of a possible leak releases the first block of that stack. -/
def releasedInCallback : List MixedCall :=
  [⟨[], answered (.setMaxAllowedAllocInTheSameStack 1) 96 [1] 1, []⟩,
    ⟨[], answered (.alloc 8 .malloc false) 16 [1] 1, []⟩,
    ⟨[], answered (.alloc 8 .malloc false) 32 [1] 2, [answered (.delete 16 .malloc) 96 [1] 3]⟩]

/-- A block that the failure callback released stays recorded as allocated, and its next release goes to
the raw allocator. -/
theorem released_in_callback_freed_twice :
    let x := Runs.final mixedStep (.ok (.init false)) releasedInCallback
    ¬ TruthfulTables x ∧
      ¬ ReportsStaleCall x ⟨[], answered (.delete 16 .malloc) 96 [2] 3, []⟩ := by
  intro x
  constructor
  · rintro ⟨l, hl, h⟩
    have hstale : ∀ l ∈ x.toOption, l.abs.st.RecordedAllocated 16 ∧ 16 ∉ l.abs.live := by decide
    obtain ⟨hrec, hlive⟩ := hstale l (congrArg Except.toOption hl)
    exact hlive ((h.recorded 16).mp hrec)
  · intro h
    have hrun : (∃ l, x = .ok l) ∧ ∀ l ∈ x.toOption, 16 ∈ l.freedInside ∧
        ∀ r ∈ (exportedCall l.world.st ⟨.granting 96 [2] 3 3, none⟩
          (.plain (.delete 16 .malloc))).toOption, 16 ∈ r.freed := by
      exact ⟨⟨_, rfl⟩, by decide⟩
    obtain ⟨⟨l, hl⟩, hfreed⟩ := hrun
    obtain ⟨hinside, hall⟩ := hfreed l (congrArg Except.toOption hl)
    obtain ⟨r, hok, -, hnot⟩ := h 16 .malloc (by decide) l (congrArg Except.toOption hl) hinside
    exact hnot (hall r (congrArg Except.toOption hok))

end CrashInvestigator.Lifetime
