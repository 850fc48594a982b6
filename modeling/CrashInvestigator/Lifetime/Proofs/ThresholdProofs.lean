import CrashInvestigator.Lifetime.Proofs.WorldProofs
import CrashInvestigator.Lifetime.Threshold
import CrashInvestigator.Tracker.Proofs.ThresholdProofs

/-!
# The leak threshold

Over clean runs the tables do not depend on the thresholds as long as no block of a known stack is
registered under a zero threshold in one run and a positive one in the other: the counter is incremented
inside the test of the threshold.
-/

namespace CrashInvestigator.Lifetime

open Library HashItems
open Reentry (bookkeeping)
open Tracker (Alike CountsKnownStack RefusesLeakActions SameLimit)

variable {s s' : State} {c : Tracker.Call} {env : ExportedEnv}

/-! ## The contents of the tables -/

/-- A key points to an object that holds its stack. -/
theorem Tables.contents_stackItems (h : Tables s) : s.contents.2 =
    s.abs.stackItems.map fun e => (⟨e.1, s.traces.data e.1⟩, e.2) := by
  show s.stackItems.entries.map (fun e => (e.key, e.value)) =
    (s.stackItems.entries.map fun e => (e.key.trace, e.value)).map _
  rw [List.map_map]
  refine List.map_congr_left fun k hk => ?_
  have hkey := (h.keys k.key (List.mem_map.mpr ⟨(k.key, k.value), List.mem_map.mpr ⟨k, hk, rfl⟩, rfl⟩)).2
  simp only [Function.comp_apply, ← hkey]

theorem stackItems_of_contents (h : s'.contents = s.contents) : s'.abs.stackItems = s.abs.stackItems := by
  have hsecond := congrArg (fun x => x.2.map fun e => (e.1.trace, e.2)) h
  simp only [State.contents, List.map_map] at hsecond
  exact hsecond

theorem Intact.sameContents (h : Intact s) (h' : Intact s') (halike : Alike s.abs s'.abs) :
    s'.contents = s.contents := by
  have hdata : s'.traces.data = s.traces.data := halike.data
  refine Prod.ext halike.memoryItems ?_
  rw [h.tables.contents_stackItems, h'.tables.contents_stackItems, halike.stackItems, hdata]

/-! ## Two processes -/

/-- Nothing was misused, and the processes differ in the thresholds and in the freed traces only. -/
def PairInv (x : Except Misuse State × Except Misuse State) : Prop :=
  ∃ s s', x.1 = .ok s ∧ x.2 = .ok s' ∧ Intact s ∧ Intact s' ∧ Alike s.abs s'.abs

theorem alike_bookkeeping {T T' : Tracker.State} (h : Alike T T') :
    Alike (bookkeeping T) (bookkeeping T') :=
  ⟨h.memoryItems, h.stackItems, h.flag, h.next, h.data, rfl, h.ndebug, h.process⟩

/-- The states after a call that both processes make, up to the raw blocks. -/
theorem exportedStep_ok {r : ExportedRes} (hrun : s.process = .running)
    (hok : exportedCall s env (.plain c) = .ok r) :
    exportedStep (.ok s) (.plain c, env) = .ok r.st := by
  simp only [exportedStep, if_pos hrun, hok, Except.map]

/-- The thread's item does not show in what a process does with its tables. -/
theorem alike_answers (h : Intact s) (hrun : s.process = .running) (c : Tracker.Call)
    (env : ExportedEnv) (t t' : Tracker.BacktracePtr) :
    Alike (Tracker.call s.abs (env.abs t) c).st (Tracker.call s.abs (env.abs t') c).st :=
  Tracker.alike_handlerMemory ⟨hrun, h.flag⟩ c (env.abs t').handlerMemory

theorem PairInv.sameTables {x : Except Misuse State × Except Misuse State} (h : PairInv x) :
    SameTables x := by
  obtain ⟨s, s', hx, hx', hs, hs', halike⟩ := h
  exact ⟨s, s', hx, hx', hs.sameContents hs' halike⟩

/-- A call of both processes whose thresholds do not matter to it. -/
theorem Intact.bothCall (hs : Intact s) (hs' : Intact s') (halike : Alike s.abs s'.abs)
    (hrun : s.process = .running) (hC : Clean s (.plain c, env)) (hC' : Clean s' (.plain c, env))
    (hleak : ∀ d, d.failureType = .possibilityOfMemoryLeak →
      env.clbkFnc d = .doNotMakeActionToPreventCrash)
    (hlimit : CountsKnownStack s.abs (c, env.abs s.handlerTrace) → SameLimit s.abs s'.abs) :
    PairInv (exportedStep (.ok s) (.plain c, env), exportedStep (.ok s') (.plain c, env)) := by
  have hrun' : s'.process = .running := halike.process.trans hrun
  obtain ⟨r, hok, hr, hmirrors⟩ := hs.mirrors hrun hC
  obtain ⟨r', hok', hr', hmirrors'⟩ := hs'.mirrors hrun' hC'
  refine ⟨r.st, r'.st, exportedStep_ok hrun hok, exportedStep_ok hrun' hok', hr, hr', ?_⟩
  have hrefuses : RefusesLeakActions (env.abs s.handlerTrace) := hleak
  have hcall := halike.call ⟨hrun, hs.flag⟩ hrefuses hlimit
  have hall := hcall.trans (alike_answers hs' hrun' c env s.handlerTrace s'.handlerTrace)
  rw [← hmirrors.st, ← hmirrors'.st]
  exact alike_bookkeeping hall

/-- A call of both processes that counts a block of a known stack in one of them only. -/
theorem Intact.bothCall_ne (hs : Intact s) (hs' : Intact s') (halike : Alike s.abs s'.abs)
    (hrun : s.process = .running) (hC : Clean s (.plain c, env)) (hC' : Clean s' (.plain c, env))
    (hleak : ∀ d, d.failureType = .possibilityOfMemoryLeak →
      env.clbkFnc d = .doNotMakeActionToPreventCrash)
    (hknown : CountsKnownStack s.abs (c, env.abs s.handlerTrace))
    (hlimit : ¬ SameLimit s.abs s'.abs) :
    ¬ SameTables (exportedStep (.ok s) (.plain c, env), exportedStep (.ok s') (.plain c, env)) := by
  have hrun' : s'.process = .running := halike.process.trans hrun
  obtain ⟨r, hok, -, hmirrors⟩ := hs.mirrors hrun hC
  obtain ⟨r', hok', -, hmirrors'⟩ := hs'.mirrors hrun' hC'
  rintro ⟨u, u', hu, hu', hsame⟩
  rw [exportedStep_ok hrun hok] at hu
  rw [exportedStep_ok hrun' hok'] at hu'
  cases hu
  cases hu'
  have hrefuses : RefusesLeakActions (env.abs s.handlerTrace) := hleak
  have hne := halike.call_ne ⟨hrun, hs.flag⟩ hrefuses hknown hlimit
  have hitems := stackItems_of_contents hsame
  rw [← hmirrors.st, ← hmirrors'.st] at hitems
  have halone := alike_answers hs' hrun' c env s'.handlerTrace s.handlerTrace
  exact hne (halone.stackItems.trans hitems)

theorem setMax_ok (s : State) (newNumber : ℕ) : ∃ s₁, setMax (.ok s) newNumber = .ok s₁ ∧
    (Intact s → Intact s₁) ∧ Alike s.abs s₁.abs := by
  by_cases hrun : s.process = .running
  · refine ⟨_, congrArg Except.ok (if_pos hrun), fun h => h.congr h.note rfl, ?_⟩
    exact ⟨rfl, rfl, rfl, rfl, rfl, rfl, rfl, rfl⟩
  · exact ⟨s, congrArg Except.ok (if_neg hrun), id, Alike.refl s.abs⟩

variable {x : Except Misuse State × Except Misuse State} {l : PairLabel}

theorem PairInv.step_good (h : PairInv x) (hV : CleanPair x l) (hC : ThresholdsAgree x l) :
    PairInv (pairStep x l) := by
  obtain ⟨x₁, x₂⟩ := x
  obtain ⟨s, s', rfl, rfl, hs, hs', halike⟩ := h
  cases l with
  | left n =>
    obtain ⟨s₁, hset, hs₁, halike₁⟩ := setMax_ok s n
    exact ⟨s₁, s', hset, rfl, hs₁ hs, hs', halike₁.symm.trans halike⟩
  | right n =>
    obtain ⟨s₁, hset, hs₁, halike₁⟩ := setMax_ok s' n
    exact ⟨s, s₁, rfl, hset, hs, hs₁ hs', halike.trans halike₁⟩
  | both c env =>
    obtain ⟨hleak, hclean, hclean'⟩ := hV
    by_cases hrun : s.process = .running
    · exact hs.bothCall hs' halike hrun (hclean s rfl hrun)
        (hclean' s' rfl (halike.process.trans hrun)) hleak (hC s rfl s' rfl hrun)
    · have hrun' : ¬ s'.process = .running := fun hr => hrun (halike.process.symm.trans hr)
      exact ⟨s, s', if_neg hrun, if_neg hrun', hs, hs', halike⟩

theorem PairInv.step_bad (h : PairInv x) (hV : CleanPair x l) (hC : ¬ ThresholdsAgree x l) :
    ¬ SameTables (pairStep x l) := by
  obtain ⟨x₁, x₂⟩ := x
  obtain ⟨s, s', rfl, rfl, hs, hs', halike⟩ := h
  cases l with
  | left n => exact absurd trivial hC
  | right n => exact absurd trivial hC
  | both c env =>
    obtain ⟨hleak, hclean, hclean'⟩ := hV
    have hcase : s.process = .running ∧ CountsKnownStack s.abs (c, env.abs s.handlerTrace) ∧
        ¬ SameLimit s.abs s'.abs := by
      by_contra hnot
      refine hC fun t ht t' ht' hrun hknown => ?_
      cases ht
      cases ht'
      by_contra hlimit
      exact hnot ⟨hrun, hknown, hlimit⟩
    obtain ⟨hrun, hknown, hlimit⟩ := hcase
    exact hs.bothCall_ne hs' halike hrun (hclean s rfl hrun)
      (hclean' s' rfl (halike.process.trans hrun)) hleak hknown hlimit

theorem PairInv.init (ndebug : Bool) :
    PairInv (.ok (State.init ndebug), .ok (State.init ndebug)) :=
  ⟨_, _, rfl, rfl, .init ndebug, .init ndebug, Alike.refl _⟩

/-! ## One process -/

/-- The label of the tracker's run. -/
def plainLabel (x : Except Misuse World) (c : Tracker.Call × ExportedEnv) :
    Tracker.Call × Tracker.Env :=
  (c.1, (worldLabel x (.plain c.1, c.2)).2)

variable {y : Except Misuse World} {T : Tracker.State} {a : Tracker.Call × ExportedEnv}

theorem Follows.plainStep (h : Follows y T) (hV : TrackedStep y a) :
    Follows (Lifetime.plainStep y a) (Tracker.step T (plainLabel y a)) :=
  h.step fun w hw hrun => (hV w hw hrun).1

theorem Follows.running_iff (h : Follows y T) : Running y ↔ T.process = .running := by
  obtain ⟨w, rfl, -, rfl⟩ := h
  constructor
  · rintro ⟨w', hw', hrun⟩
    cases hw'
    exact hrun
  · intro hrun
    exact ⟨w, rfl, hrun⟩

theorem Follows.countsBlocks_iff (h : Follows y T) :
    CountsBlocks y a ↔ Tracker.CountsEveryBlock T (plainLabel y a) := by
  obtain ⟨w, rfl, -, rfl⟩ := h
  constructor
  · intro hcounts hrun hknown
    exact hcounts w rfl hrun hknown
  · intro hcounts v hv hrun hknown
    cases hv
    exact hcounts hrun hknown

theorem Follows.tracked (h : Follows y T) (hV : TrackedStep y a) :
    Tracker.TrackedWhileRunning T (plainLabel y a) := by
  obtain ⟨w, rfl, -, rfl⟩ := h
  exact fun hrun => (hV w rfl hrun).2

/-- A program that releases all its blocks trips no assertion exactly when every block it registered
was counted. -/
theorem running_iff_countsBlocks {cs : List (Tracker.Call × ExportedEnv)}
    (hcs : Runs.Along plainStep TrackedStep (.ok (World.init false)) cs)
    (hfree : AllReleased (Runs.final plainStep (.ok (World.init false)) cs)) :
    Runs.Always plainStep Running (.ok (World.init false)) cs ↔
      Runs.Along plainStep CountsBlocks (.ok (World.init false)) cs := by
  have hstep : ∀ y T a, Follows y T → TrackedStep y a →
      Follows (plainStep y a) (Tracker.step T (plainLabel y a)) := fun y T a h hV => h.plainStep hV
  have hcs' : Runs.Along Tracker.step Tracker.TrackedWhileRunning .init
      (Simulation.translate plainStep plainLabel (.ok (World.init false)) cs) :=
    (Simulation.along_translate hstep (fun y T a h hV => iff_of_true hV (h.tracked hV))
      Follows.init hcs).mp hcs
  have hfinal := Simulation.final_translate hstep Follows.init hcs
  obtain ⟨w, hw, -, habs⟩ := hfinal
  rw [Simulation.always_translate hstep (fun y T h => h.running_iff) Follows.init hcs,
    Simulation.along_translate hstep (fun y T a h _ => h.countsBlocks_iff) Follows.init hcs]
  refine Tracker.no_assertion_iff hcs' fun hrun s => ?_
  rw [← habs] at hrun ⊢
  rw [hw] at hfree
  exact hfree w rfl hrun s

/-! ## Main result -/

/-- What is left to check of a call whose answers are `Env.granting`. -/
theorem trackedStep_granting {c : Tracker.Call} {raw : Tracker.Addr} {frames : List ℕ} {m k : ℕ}
    (hraw : raw ≠ 0) (hframes : frames ≠ [])
    (h : ∀ w ∈ y.toOption, w.st.process = .running →
      Clean w.st (.plain c, ⟨.granting raw frames m k, none⟩) ∧ raw ∉ w.live ∧
        ¬ Tracker.Mismatching w.abs c) :
    TrackedStep y (c, ⟨.granting raw frames m k, none⟩) := by
  intro w hw hrun
  obtain ⟨hclean, hlive, hmatching⟩ := h w hw hrun
  exact ⟨hclean, Or.inr (Or.inl hlive), fun _ _ _ => hraw, ⟨⟨frames⟩, rfl, hframes⟩, ⟨rfl, rfl⟩,
    fun _ => rfl, hmatching⟩

end CrashInvestigator.Lifetime
