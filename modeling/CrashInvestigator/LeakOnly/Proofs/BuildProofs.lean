import CrashInvestigator.LeakOnly.Builds

/-!
# Which builds abort

Every build does what the recovering analyzer does until one of its assertions fails. The assertion
of `TakeStackOut` never does, so what is left is the one of `AllocMem`: without the hook it fails
exactly when an address that is still recorded is issued again, and with the hook it never fails,
because then every recorded block is in use.
-/

namespace CrashInvestigator.LeakOnly

open Library
open Tracker (Addr Backtrace freeBacktraceData initBacktraceDataForCurrentStack)

/-! ## Each function of a build -/

namespace Build

variable {b : Build} {st : State}

theorem hook_called (ty : AllocType) (p : Addr) : b.crashInvestMemHook st true ty p = some st := by
  simp [crashInvestMemHook]

theorem hook_alloc (p : Addr) : b.crashInvestMemHook st false .hookAlloc p = some st := by
  simp [crashInvestMemHook]

theorem check_agrees {events : List Event}
    (hb : b.asserts = true → Event.stackNotFound ∉ events) : b.check st events = some st := by
  unfold check
  rw [if_neg]
  rintro ⟨ha, hmem⟩
  exact hb ha hmem

theorem freeMemAnalyze_agrees {p : Addr}
    (hb : b.asserts = true → Event.stackNotFound ∉ (LeakOnly.freeMemAnalyze st p).2) :
    b.freeMemAnalyze st p = some (LeakOnly.freeMemAnalyze st p).1 := check_agrees hb

theorem freeMem_agrees {p : Addr}
    (hb : b.asserts = true → Event.stackNotFound ∉ (LeakOnly.freeMem st p).events) :
    b.freeMem st p = some (LeakOnly.freeMem st p).st := by
  have hfree : b.freeMemAnalyze st p = some (LeakOnly.freeMemAnalyze st p).1 :=
    freeMemAnalyze_agrees fun ha hmem => hb ha (List.mem_append_left _ hmem)
  rw [freeMem, hfree, Option.bind_some, hook_called]
  rfl

theorem countStack_agrees {env : Env} {t : ℕ}
    (hb : b.asserts = true → Event.stackNotFound ∉ (LeakOnly.countStack st env env.raw t).events) :
    b.countStack st env t = some (LeakOnly.countStack st env env.raw t).st := check_agrees hb

theorem recoverMem_agrees {p : Addr} (hnew : b.asserts = true → st.findMem p = none) :
    b.recoverMem st p = some (LeakOnly.recoverMem st p).1 := by
  unfold recoverMem
  rw [if_neg (by rintro ⟨ha, hsome⟩; rw [hnew ha] at hsome; cases hsome)]
  refine check_agrees fun ha hmem => ?_
  simp [hnew ha] at hmem

/-- An asserting build stops at an address that is still recorded. -/
theorem recoverMem_stops (ha : b.asserts = true) {p : Addr} (hf : (st.findMem p).isSome) :
    b.recoverMem st p = none := if_pos ⟨ha, hf⟩

theorem tracked_of_not {env : Env}
    (h : ¬ (st.initOrExitOngoing ∨ 0 < env.isOngoing ∨ env.ignoreThisStack)) :
    st.initOrExitOngoing = false ∧ env.isOngoing = 0 ∧ env.ignoreThisStack = false := by
  simpa [not_or] using h

/-- `AllocMem` of a build, as long as no assertion fails. -/
theorem allocMem_agrees {env : Env} {size : ℕ}
    (hb : b.asserts = true → Event.stackNotFound ∉ (LeakOnly.allocMem st env size).events)
    (hnew : b.asserts = true → (∃ s, Records st (.allocMem size, env) s) →
      st.findMem env.raw = none) :
    b.allocMem st env = some (LeakOnly.allocMem st env size).st := by
  unfold allocMem LeakOnly.allocMem at *
  rw [hook_alloc, Option.bind_some]
  by_cases hout : st.initOrExitOngoing ∨ 0 < env.isOngoing ∨ env.ignoreThisStack
  · rw [if_pos hout, if_pos hout]
    rfl
  · by_cases hraw : env.raw = 0
    · rw [if_neg hout, if_neg hout, if_pos hraw, if_pos hraw]
    · rw [if_neg hout, if_neg hraw] at hb
      rw [if_neg hout, if_neg hout, if_neg hraw, if_neg hraw, recordMem]
      cases hstack : env.stack with
      | none => rfl
      | some s =>
        simp only [hstack, initBacktraceDataForCurrentStack] at hb ⊢
        obtain ⟨hidle, hongoing, hignored⟩ := tracked_of_not hout
        have hrecover : b.recoverMem (st.create s) env.raw =
            some (LeakOnly.recoverMem (st.create s) env.raw).1 := recoverMem_agrees fun ha =>
          hnew ha ⟨s, ⟨size, rfl⟩, hidle, hongoing, hignored, hraw, hstack⟩
        simp only [State.create, initBacktraceDataForCurrentStack] at hrecover
        rw [hrecover, Option.bind_some]
        refine countStack_agrees fun ha hmem => hb ha ?_
        exact List.mem_cons_of_mem _ (List.mem_append_right _ hmem)

/-- An asserting build does not record a block at an address that is still recorded. -/
theorem allocMem_stops (ha : b.asserts = true) {env : Env} {size : ℕ}
    (hrec : ∃ s, Records st (.allocMem size, env) s) (hf : (st.findMem env.raw).isSome) :
    b.allocMem st env = none := by
  obtain ⟨s, -, hidle, hongoing, hignored, hraw, hstack⟩ := hrec
  simp only at hongoing hignored hraw hstack
  have hrecover : b.recoverMem (st.create s) env.raw = none := recoverMem_stops ha hf
  simp only [State.create, initBacktraceDataForCurrentStack] at hrecover
  have hout : ¬ (st.initOrExitOngoing ∨ 0 < env.isOngoing ∨ env.ignoreThisStack) := by
    simp [hidle, hongoing, hignored]
  rw [allocMem, hook_alloc, Option.bind_some, if_neg hout, if_neg hraw, recordMem, hstack]
  simp only [initBacktraceDataForCurrentStack]
  rw [hrecover, Option.bind_none]

end Build

/-! ## One step -/

section Steps

variable {b : Build} {h : Host} {a : Action}

/-- A call of a build is the call of the analyzer that recovers, unless the build asserts that the
address is new and it is not. -/
theorem analyze_call (hs : Settled h.st) (hrun : h.st.process = .running) {c : Call} {env : Env}
    (ha : Sensible h (.call c env)) (hnew : b.asserts = true → ¬ Reissues h (.call c env)) :
    b.analyze h.st (.call c env) = some (call h.st env c).st := by
  have hfound := (hs.call (c := (c, env)) ⟨ha.1, ha.2⟩ hrun).2.found
  cases c with
  | freeMem p => exact Build.freeMem_agrees fun _ => hfound
  | allocMem size =>
    refine Build.allocMem_agrees (fun _ => hfound) fun hasserts hrec => ?_
    by_contra hsome
    exact hnew hasserts ⟨hrun, hrec, Option.ne_none_iff_isSome.mp hsome⟩

/-- A build without the hook does not see what the libraries do. -/
theorem analyze_unhooked (hb : b.hooks = false) (ha : ∀ c env, a ≠ .call c env) :
    b.analyze h.st a = some h.st := by
  cases a with
  | call c env => exact absurd rfl (ha c env)
  | libraryMalloc answer => simp [Build.analyze, Build.crashInvestMemHook, hb]
  | libraryFree p => simp [Build.analyze, Build.crashInvestMemHook, hb]
  | libraryRealloc p answer => simp [Build.analyze, Build.crashInvestMemHook, hb]

/-- An assertion fails where an asserting build is to record an address again. -/
theorem analyze_stops (hb : b.asserts = true) (hre : Reissues h a) : b.analyze h.st a = none := by
  cases a with
  | call c env =>
    obtain ⟨-, ⟨s, hrec⟩, hsome⟩ := hre
    obtain ⟨size, hsize⟩ := hrec.1
    simp only at hsize
    subst hsize
    exact Build.allocMem_stops hb ⟨s, hrec⟩ hsome
  | libraryMalloc answer => exact absurd hre id
  | libraryFree p => exact absurd hre id
  | libraryRealloc p answer => exact absurd hre id

theorem step_of_some (hrun : h.st.process = .running) {st : State}
    (hst : b.analyze h.st a = some st) : b.step h a = ⟨st, a.blocks h.blocks⟩ := by
  rw [Build.step, if_pos hrun, hst]
  rfl

theorem step_of_ended (hrun : h.st.process ≠ .running) : b.step h a = h := by
  rw [Build.step, if_neg hrun]

end Steps

/-! ## Builds without the hook -/

section Unhooked

variable {b : Build} {h : Host} {a : Action}

/-- A step of a build without the hook that no assertion stops. -/
theorem analyze_unhooked_settled (hb : b.hooks = false) (hs : Settled h.st)
    (hrun : h.st.process = .running) (ha : Sensible h a)
    (hnew : b.asserts = true → ¬ Reissues h a) :
    ∃ st, Settled st ∧ b.analyze h.st a = some st ∧
      Build.visualRelease.analyze h.st a = some st := by
  by_cases hcall : ∃ c env, a = .call c env
  · obtain ⟨c, env, rfl⟩ := hcall
    refine ⟨_, (hs.call (c := (c, env)) ⟨ha.1, ha.2⟩ hrun).1, analyze_call hs hrun ha hnew, ?_⟩
    exact analyze_call hs hrun ha (by simp [Build.asserts])
  · have hlib : ∀ c env, a ≠ .call c env := fun c env hc => hcall ⟨c, env, hc⟩
    exact ⟨h.st, hs, analyze_unhooked hb hlib, analyze_unhooked rfl hlib⟩

/-- A build that neither hooks nor recovers runs like the one that recovers as long as no address
that is still recorded is issued again, and aborts when one is. -/
theorem other_build_aborts_iff {max : ℕ} {time : ℤ} {as : List Action} (hmax : 1 ≤ max)
    (h : Runs.Along Build.visualRelease.step Sensible (.initRaw max time) as) :
    (Runs.Along Build.visualRelease.step (fun h a => ¬ Reissues h a) (.initRaw max time) as →
        Runs.final Build.other.step (.initRaw max time) as =
          Runs.final Build.visualRelease.step (.initRaw max time) as) ∧
      (¬ Runs.Along Build.visualRelease.step (fun h a => ¬ Reissues h a) (.initRaw max time) as →
        (Runs.final Build.other.step (.initRaw max time) as).st.process = .aborted) := by
  have hinit : Settled (Host.initRaw max time).st := Settled.init hmax time
  refine Runs.final_of_along (I := fun h => Settled h.st) (V := Sensible)
    (E := fun h => h.st.process = .aborted) ?_ ?_ ?_ ?_ hinit h
  · intro h a hs ha
    by_cases hrun : h.st.process = .running
    · obtain ⟨st, hst, hstep, -⟩ := analyze_unhooked_settled (b := .visualRelease) rfl hs hrun ha
        (by simp [Build.asserts])
      rw [step_of_some hrun hstep]
      exact hst
    · rw [step_of_ended hrun]
      exact hs
  · intro h a hs ha hnew
    by_cases hrun : h.st.process = .running
    · obtain ⟨st, -, hother, hrelease⟩ :=
        analyze_unhooked_settled (b := .other) rfl hs hrun ha fun _ => hnew
      rw [step_of_some hrun hother, step_of_some hrun hrelease]
    · rw [step_of_ended hrun, step_of_ended hrun]
  · intro h a hs ha hre
    rw [not_not] at hre
    have hrun : h.st.process = .running := by
      cases a with
      | call c env => exact hre.1
      | libraryMalloc answer => exact absurd hre id
      | libraryFree p => exact absurd hre id
      | libraryRealloc p answer => exact absurd hre id
    rw [Build.step, if_pos hrun, analyze_stops rfl hre]
    rfl
  · intro h a hend
    rw [step_of_ended (by rw [hend]; simp)]
    exact hend

end Unhooked

/-- A library releases block `10`, which is issued again. -/
def releasedByLibraryRun : List Action :=
  [.call (.allocMem 8) (.answering 10 [1]), .libraryFree 10,
    .call (.allocMem 8) (.answering 10 [1])]

theorem sensible_answering {h : Host} {c : Call} {raw : Addr} {frames : List ℕ} (hf : frames ≠ [])
    (ht : h.st.initTime ≤ 0) : Sensible h (.call c (.answering raw frames)) := by
  have hvalid : Valid h.st (c, .answering raw frames) := valid_answering hf ht
  exact ⟨hvalid.frames, hvalid.clock⟩

theorem other_build_aborts_iff_releasedByLibrary :
    (Runs.final Build.other.step (.initRaw 2 0) releasedByLibraryRun).st.process = .aborted := by
  have hsensible : Runs.Along Build.visualRelease.step Sensible (.initRaw 2 0)
      releasedByLibraryRun := by
    refine ⟨?_, trivial, ?_, trivial⟩
    · exact sensible_answering (by simp) (Int.le_refl 0)
    · exact sensible_answering (by simp) (Int.le_refl 0)
  refine (other_build_aborts_iff (by omega) hsensible).2 ?_
  rintro ⟨-, -, hnew, -⟩
  exact hnew ⟨rfl, ⟨⟨[1]⟩, ⟨8, rfl⟩, rfl, rfl, rfl, Nat.succ_ne_zero 9, rfl⟩, rfl⟩

/-! ## The build with the hook -/

section Hooked

variable {st : State} {h : Host} {a : Action}

theorem findMem_isSome_iff {p : Addr} : (st.findMem p).isSome ↔ ∃ e ∈ st.pMem, e.1 = p := by
  constructor
  · intro hsome
    obtain ⟨e, he⟩ := Option.isSome_iff_exists.mp hsome
    exact ⟨e, Entries.findEntry_mem he, by simpa using Entries.findEntry_test he⟩
  · rintro ⟨e, hmem, rfl⟩
    by_contra hnone
    rw [Option.not_isSome_iff_eq_none] at hnone
    simpa using Entries.findEntry_none_iff.mp hnone e hmem

/-- `FreeMemAnalyze` of any build takes the address out of the table, and nothing else. -/
theorem Settled.freeMemAnalyze (hs : Settled st) (hrun : st.process = .running) (b : Build)
    (p : Addr) : ∃ st₁, b.freeMemAnalyze st p = some st₁ ∧ Settled st₁ ∧ st₁.process = .running ∧
      ∀ q, (st₁.findMem q).isSome → q ≠ p ∧ (st.findMem q).isSome := by
  obtain ⟨st₁, hfree, hsame, hk, hle⟩ := hs.kept.freeMem p
  have hanalyze : (LeakOnly.freeMemAnalyze st p).1 = st₁ := congrArg Res.st hfree
  have hfound : Event.stackNotFound ∉ (LeakOnly.freeMemAnalyze st p).2 := by
    intro hmem
    have hev : Event.stackNotFound ∈ (LeakOnly.freeMem st p).events := List.mem_append_left _ hmem
    rw [hfree] at hev
    simp at hev
  refine ⟨st₁, ?_, ⟨hk, ?_, ?_⟩, hsame.process.trans hrun, ?_⟩
  · rw [Build.freeMemAnalyze_agrees fun _ => hfound, hanalyze]
  · rw [hsame.limit]
    exact hs.limit
  · intro _ s
    rw [hsame.limit]
    exact (hle s).trans (hs.within hrun s)
  · intro q hq
    cases hf : st.findMem p with
    | none =>
      have hst : st₁ = st := by
        rw [← hanalyze]
        simp [LeakOnly.freeMemAnalyze, hs.kept.idle, hf, hs.kept.leaveHandler]
      rw [hst] at hq
      refine ⟨?_, hq⟩
      rintro rfl
      rw [hf] at hq
      cases hq
    | some e =>
      obtain ⟨st₂, hremove, -, hpMem, hk₂⟩ := hs.kept.removeMem hf
      have hst : st₁ = st₂ := by
        rw [← hanalyze]
        simp [LeakOnly.freeMemAnalyze, hs.kept.idle, hf, hremove, hk₂.leaveHandler]
      rw [hst] at hq
      obtain ⟨x, hx, rfl⟩ := findMem_isSome_iff.mp hq
      rw [hpMem] at hx
      refine ⟨fun hkey => ?_, findMem_isSome_iff.mpr ⟨x, Entries.mem_of_mem_removeFirst hx, rfl⟩⟩
      have hself := (hs.kept.recorded p).lookup_removeFirst_self
      rw [Entries.lookup, Option.map_eq_none_iff] at hself
      simpa [hkey] using Entries.findEntry_none_iff.mp hself x hx

/-- Counting a block changes the other table only, unless it ends the process. -/
theorem countStack_pMem {env : Env} {p : Addr} {t : ℕ}
    (hrun : (countStack st env p t).st.process = .running) :
    (countStack st env p t).st.pMem = st.pMem := by
  unfold countStack at *
  cases hf : st.findStack t with
  | none => rfl
  | some e =>
    simp only [hf] at hrun ⊢
    split_ifs with hlimit
    · rw [if_pos hlimit] at hrun
      simp [reportLeak] at hrun
    · rfl

/-- An allocation at a new address records that address or nothing. -/
theorem allocMem_findMem {env : Env} {size : ℕ} (hnone : st.findMem env.raw = none)
    (hrun : (allocMem st env size).st.process = .running) {q : Addr}
    (hq : ((allocMem st env size).st.findMem q).isSome) :
    (q = env.raw ∧ env.raw ≠ 0) ∨ (st.findMem q).isSome := by
  unfold allocMem at hrun hq
  by_cases hout : st.initOrExitOngoing ∨ 0 < env.isOngoing ∨ env.ignoreThisStack
  · rw [if_pos hout] at hq
    exact Or.inr hq
  · by_cases hraw : env.raw = 0
    · rw [if_neg hout, if_pos hraw] at hq
      exact Or.inr hq
    · rw [if_neg hout, if_neg hraw] at hrun hq
      cases hstack : env.stack with
      | none =>
        rw [hstack] at hq
        exact Or.inr hq
      | some s =>
        have hrecover : ∀ traces, recoverMem { st with traces := traces } env.raw =
            ({ st with traces := traces }, []) := by
          intro traces
          have : State.findMem { st with traces := traces } env.raw = none := hnone
          simp [recoverMem, this]
        simp only [hstack, initBacktraceDataForCurrentStack, hrecover] at hrun hq
        rw [findMem_isSome_iff, countStack_pMem hrun] at hq
        obtain ⟨e, he, rfl⟩ := hq
        rcases List.mem_cons.mp he with rfl | hmem
        · exact Or.inl ⟨rfl, hraw⟩
        · exact Or.inr (findMem_isSome_iff.mpr ⟨e, hmem, rfl⟩)

/-- What the hook keeps: the tables, the process and that every recorded block is in use. -/
structure Host.Tracked (h : Host) : Prop where
  settled : Settled h.st
  noAbort : h.st.process ≠ .aborted
  inUse : h.st.process = .running → h.RecordsBlocks

theorem Host.Tracked.init {max : ℕ} (hmax : 1 ≤ max) (time : ℤ) :
    (Host.initRaw max time).Tracked := by
  refine ⟨Settled.init hmax time, ?_, ?_⟩
  · show Tracker.Process.running ≠ .aborted
    simp
  · intro _ p hp
    cases hp

/-- A release is seen, wherever it is made. -/
theorem Host.Tracked.released (ht : h.Tracked) (hrun : h.st.process = .running) (p : Addr)
    {st : State} (hst : Build.visualDebug.freeMemAnalyze h.st p = some st) {blocks : Finset Addr}
    (hblocks : h.blocks.erase p ⊆ blocks) : Host.Tracked ⟨st, blocks⟩ := by
  obtain ⟨st₁, hanalyze, hs, hrun₁, hfind⟩ := ht.settled.freeMemAnalyze hrun .visualDebug p
  rw [hst] at hanalyze
  cases hanalyze
  refine ⟨hs, by simp [hrun₁], fun _ q hq => ?_⟩
  obtain ⟨hne, hold⟩ := hfind q hq
  exact hblocks (Finset.mem_erase.mpr ⟨hne, ht.inUse hrun q hold⟩)

theorem subset_issue (blocks : Finset Addr) (answer : Addr) : blocks ⊆ issue blocks answer := by
  unfold issue
  split_ifs
  · exact Finset.Subset.refl _
  · exact Finset.subset_insert _ _

theorem erase_subset_reissue (blocks : Finset Addr) (p answer : Addr) :
    blocks.erase p ⊆ reissue blocks p answer := by
  unfold reissue
  split_ifs
  · exact Finset.erase_subset _ _
  · exact Finset.subset_insert _ _

/-- An allocation gets a block that is not recorded. -/
theorem Host.Tracked.allocated (ht : h.Tracked) (hrun : h.st.process = .running) {env : Env}
    {size : ℕ} (ha : Sensible h (.call (.allocMem size) env)) (hfresh : env.raw ∉ h.blocks) :
    (Build.visualDebug.step h (.call (.allocMem size) env)).Tracked := by
  have hnone : h.st.findMem env.raw = none := by
    by_contra hsome
    exact hfresh (ht.inUse hrun _ (Option.ne_none_iff_isSome.mp hsome))
  have hnew : ¬ Reissues h (.call (.allocMem size) env) := by
    rintro ⟨-, -, hsome⟩
    rw [hnone] at hsome
    cases hsome
  have hanalyze := analyze_call (b := .visualDebug) ht.settled hrun ha fun _ => hnew
  obtain ⟨hs, hexact⟩ := ht.settled.call (c := (.allocMem size, env)) ⟨ha.1, ha.2⟩ hrun
  rw [step_of_some hrun hanalyze]
  refine ⟨hs, ?_, ?_⟩
  · by_cases hex : ∃ s, Exceeds h.st (.allocMem size, env) s
    · simp [hexact.exits.mpr hex]
    · simp [hexact.runs.mpr hex]
  · intro hrun' q hq
    show q ∈ issue h.blocks env.raw
    rcases allocMem_findMem hnone hrun' hq with ⟨rfl, hraw⟩ | hold
    · rw [issue, if_neg hraw]
      exact Finset.mem_insert_self _ _
    · exact subset_issue _ _ (ht.inUse hrun q hold)

theorem Host.Tracked.step (ht : h.Tracked) (ha : Sensible h a ∧ IssuesFresh h a) :
    (Build.visualDebug.step h a).Tracked := by
  by_cases hrun : h.st.process = .running
  · -- the hook and `FreeMem` both go through `FreeMemAnalyze`
    have hreleases : ∀ p, ∃ st, Build.visualDebug.freeMemAnalyze h.st p = some st := fun p =>
      (ht.settled.freeMemAnalyze hrun .visualDebug p).imp fun _ hst => hst.1
    cases a with
    | call c env =>
      cases c with
      | allocMem size => exact ht.allocated hrun ha.1 ha.2
      | freeMem p =>
        obtain ⟨st, hst⟩ := hreleases p
        have hanalyze : Build.visualDebug.analyze h.st (.call (.freeMem p) env) = some st := by
          show Build.visualDebug.freeMem h.st p = some st
          rw [Build.freeMem, hst, Option.bind_some, Build.hook_called]
        rw [step_of_some hrun hanalyze]
        exact ht.released hrun p hst (Finset.Subset.refl _)
    | libraryMalloc answer =>
      have hanalyze : Build.visualDebug.analyze h.st (.libraryMalloc answer) = some h.st :=
        Build.hook_alloc 0
      rw [step_of_some hrun hanalyze]
      exact ⟨ht.settled, ht.noAbort, fun _ q hq => subset_issue _ _ (ht.inUse hrun q hq)⟩
    | libraryFree p =>
      obtain ⟨st, hst⟩ := hreleases p
      have hanalyze : Build.visualDebug.analyze h.st (.libraryFree p) = some st := hst
      rw [step_of_some hrun hanalyze]
      exact ht.released hrun p hst (Finset.Subset.refl _)
    | libraryRealloc p answer =>
      obtain ⟨st, hst⟩ := hreleases p
      have hanalyze : Build.visualDebug.analyze h.st (.libraryRealloc p answer) = some st := hst
      rw [step_of_some hrun hanalyze]
      exact ht.released hrun p hst (erase_subset_reissue _ _ _)
  · rw [step_of_ended hrun]
    exact ht

/-- The debug build of Visual Studio sees every release: no assertion fails, the tables stay
consistent and every recorded block is in use, whatever the libraries do with the C heap. -/
theorem hooked_build_never_asserts {max : ℕ} {time : ℤ} {as : List Action} (hmax : 1 ≤ max)
    (h : Runs.Along Build.visualDebug.step (fun h a => Sensible h a ∧ IssuesFresh h a)
      (.initRaw max time) as) :
    Runs.Always Build.visualDebug.step (fun h => h.st.process ≠ .aborted ∧ Consistent h.st ∧
      (h.st.process = .running → h.RecordsBlocks)) (.initRaw max time) as := by
  have hinv := Runs.always_of_invariant (I := Host.Tracked) (fun _ _ ht ha => ht.step ha)
    (Host.Tracked.init hmax time) h
  exact hinv.mono fun h ht => ⟨ht.noAbort, ht.settled.consistent, ht.inUse⟩

end Hooked

theorem hooked_build_never_asserts_releasedByLibrary :
    Runs.Always Build.visualDebug.step (fun h => h.st.process ≠ .aborted ∧ Consistent h.st ∧
      (h.st.process = .running → h.RecordsBlocks)) (.initRaw 2 0) releasedByLibraryRun := by
  refine hooked_build_never_asserts (by omega) ⟨⟨?_, ?_⟩, ⟨trivial, trivial⟩, ⟨?_, ?_⟩, trivial⟩
  · exact sensible_answering (by simp) (Int.le_refl 0)
  · exact Finset.notMem_empty 10
  · exact sensible_answering (by simp) (Int.le_refl 0)
  · show (10 : Addr) ∉ Finset.erase (insert 10 ∅) 10
    simp

end CrashInvestigator.LeakOnly
