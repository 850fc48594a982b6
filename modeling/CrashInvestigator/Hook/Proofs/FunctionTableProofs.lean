import CrashInvestigator.Hook.FunctionTable
import Mathlib.Algebra.Ring.Nat

/-!
# The table of allocation functions: what the calls do

The handle of the library is kept in a local variable and `s_cranLib` is never assigned, and the
exchange is tried on the first word of the table, a function pointer, instead of the variable
`s_pCrInvAllocFncsPtrs`. So the default table stays in use for ever, the cleanup does nothing, and each
initialization that finds the library leaves what it acquired.
-/

namespace CrashInvestigator.Hook

open Library

/-- The variables that decide about the table in use still have their first values. -/
structure State.Untouched (s : State) : Prop where
  noLibrary : s.s_cranLib = none
  default : s.s_fncsPointerCrInvAlloc = State.init.s_fncsPointerCrInvAlloc
  inUse : s.s_pCrInvAllocFncsPtrs = .fncsPointerCrInvAlloc

theorem State.Untouched.init : State.init.Untouched := ⟨rfl, rfl, rfl⟩

/-- The tables that an initialization leaves on the heap. -/
def Outcome.leftTables (o : Outcome) : List (ℕ × AllFreeFunctions) :=
  match o.loadLibraryA, o.heapAlloc with
  | some _, some block => [(block, o.functions)]
  | _, _ => []

/-- The references on the library that an initialization keeps. -/
def Outcome.leftReferences (o : Outcome) : ℕ :=
  match o.loadLibraryA, o.heapAlloc with
  | some _, some _ => if o.functions.Filled then 1 else 0
  | some _, none => 1
  | none, _ => 0

namespace State.Untouched

variable {s : State}

theorem pointsToTable (h : s.Untouched) : s.PointsToTable := by
  refine ⟨Or.inl h.inUse, s.s_fncsPointerCrInvAlloc, by rw [h.inUse]; rfl, ?_⟩
  rw [h.default]
  decide

/-- The first word of the default table is a function, never the address of the table. -/
theorem interlockedCompareExchangePointer (h : s.Untouched) (exchange : Address) :
    s.interlockedCompareExchangePointer s.s_pCrInvAllocFncsPtrs exchange .fncsPointerCrInvAlloc =
      some (s, .crInvAllocFree_free_default) := by
  have ht : s.tableAt s.s_pCrInvAllocFncsPtrs = some State.init.s_fncsPointerCrInvAlloc := by
    rw [h.inUse, ← h.default]
    rfl
  simp [State.interlockedCompareExchangePointer, ht, State.init]

theorem cleanup (h : s.Untouched) : crInvAllocFreeCleanupRoutineStatic s = s := by
  simp [crInvAllocFreeCleanupRoutineStatic, h.noLibrary]

/-- An initialization adds what it acquires to what is outstanding. -/
theorem initialization (h : s.Untouched) (o : Outcome) :
    ∃ s', crInvAllocFreeInitializationRoutineStatic s o = some s' ∧ s'.Untouched ∧
      s'.heapTables = o.leftTables ++ s.heapTables ∧
      s'.libraryReferences = s.libraryReferences + o.leftReferences := by
  obtain ⟨hlib, hdef, huse⟩ := h
  unfold crInvAllocFreeInitializationRoutineStatic Outcome.leftTables Outcome.leftReferences
  cases hload : o.loadLibraryA with
  | none =>
    simp only [hlib, Option.isSome_none, Option.isNone_none, Bool.false_eq_true, if_false, if_true]
    exact ⟨_, rfl, ⟨rfl, hdef, huse⟩, rfl, rfl⟩
  | some library =>
    simp only [hlib, Option.isSome_none, Option.isNone_some, Bool.false_eq_true, if_false]
    cases hheap : o.heapAlloc with
    | none => exact ⟨_, rfl, ⟨rfl, hdef, huse⟩, rfl, rfl⟩
    | some block =>
      by_cases hfilled : o.functions.Filled
      · have hcmp := interlockedCompareExchangePointer (s := { s with
          s_cranLib := none, cranLib := some library, libraryReferences := s.libraryReferences + 1,
          heapTables := (block, o.functions) :: s.heapTables }) ⟨rfl, hdef, huse⟩ (.heap block)
        simp only [hfilled, not_true_eq_false, if_false, if_true, hcmp, reduceCtorEq]
        split
        · exact ⟨_, rfl, ⟨rfl, hdef, huse⟩, rfl, rfl⟩
        · exact ⟨_, rfl, ⟨rfl, hdef, huse⟩, rfl, rfl⟩
      · simp only [hfilled, not_false_eq_true, if_true, if_false]
        exact ⟨_, rfl, ⟨rfl, hdef, huse⟩, rfl, rfl⟩

end State.Untouched

theorem step_cleanup {j : Journal} (h : j.st.Untouched) : j.step .cleanup = ⟨j.st, false⟩ := by
  simp [Journal.step, h.cleanup]

theorem step_initialization {j : Journal} (h : j.st.Untouched) (o : Outcome) :
    ∃ s, j.step (.initialization o) = ⟨s, j.installed || decide (AcquiresEverything j.st o)⟩ ∧
      s.Untouched ∧ s.heapTables = o.leftTables ++ j.st.heapTables ∧
      s.libraryReferences = j.st.libraryReferences + o.leftReferences := by
  obtain ⟨s, hs, hun, htables, hrefs⟩ := h.initialization o
  exact ⟨s, by simp [Journal.step, hs], hun, htables, hrefs⟩

theorem step_untouched {j : Journal} (h : j.st.Untouched) (c : Call) : (j.step c).st.Untouched := by
  cases c with
  | initialization o =>
    obtain ⟨s, hs, hun, -, -⟩ := step_initialization h o
    rw [hs]
    exact hun
  | cleanup =>
    rw [step_cleanup h]
    exact h

/-! ## Every run -/

/-- The default table stays in use, whatever the system answers. -/
theorem always_untouched (cs : List Call) :
    Runs.Always Journal.step (fun j => j.st.Untouched) .init cs :=
  Runs.always_of_invariant (C := fun _ _ => True) (fun _ c h _ => step_untouched h c)
    State.Untouched.init (Runs.along_of_forall (fun _ _ => trivial) _ _)

/-- So one part of the promise is kept by every run. -/
theorem always_pointsToTable (cs : List Call) :
    Runs.Always Journal.step (fun j => j.st.PointsToTable) .init cs :=
  (always_untouched cs).mono fun _ h => h.pointsToTable

/-- The functions of the hook call the default functions, each of which loads the library again. -/
theorem always_calls_default (cs : List Call) :
    Runs.Always Journal.step (fun j =>
      j.st.free = some .crInvAllocFree_free_default ∧
        j.st.malloc = some .crInvAllocFree_malloc_default ∧
        j.st.calloc = some .crInvAllocFree_calloc_default ∧
        j.st.realloc = some .crInvAllocFree_realloc_default) .init cs := by
  refine (always_untouched cs).mono fun j h => ?_
  simp [State.free, State.malloc, State.calloc, State.realloc, State.called, h.inUse, State.tableAt,
    h.default, State.init]

/-- What an initialization among the calls answers. -/
def Call.outcome? : Call → Option Outcome
  | .initialization o => some o
  | .cleanup => none

/-- The leak in full: what every initialization left is still there, and no cleanup counts. -/
theorem final_outstanding (cs : List Call) (j : Journal) (h : j.st.Untouched) :
    (Runs.final Journal.step j cs).st.heapTables =
        ((cs.filterMap Call.outcome?).reverse.flatMap Outcome.leftTables) ++ j.st.heapTables ∧
      (Runs.final Journal.step j cs).st.libraryReferences =
        j.st.libraryReferences + ((cs.filterMap Call.outcome?).map Outcome.leftReferences).sum := by
  induction cs generalizing j with
  | nil => simp
  | cons c cs ih =>
    obtain ⟨iht, ihr⟩ := ih (j.step c) (step_untouched h c)
    rw [Runs.final_cons, iht, ihr]
    cases c with
    | initialization o =>
      obtain ⟨s, hs, -, htables, hrefs⟩ := step_initialization h o
      have houtcome : Call.outcome? (.initialization o) = some o := rfl
      rw [hs, List.filterMap_cons_some houtcome]
      simp only [List.reverse_cons, List.flatMap_append, List.flatMap_singleton, htables, hrefs,
        List.map_cons, List.sum_cons, List.append_assoc, Nat.add_assoc, and_self]
    | cleanup =>
      rw [step_cleanup h, List.filterMap_cons_none (by rfl)]
      exact ⟨rfl, rfl⟩

/-! ## Exactly when the promise is kept -/

/-- Nothing happened that can be seen. -/
theorem sound_init : Journal.init.Sound where
  pointsToTable := State.Untouched.init.pointsToTable
  heapTable := by simp [Journal.init]
  oneTable := by simp [Journal.init, State.init]
  oneReference := by simp [Journal.init, State.init]

theorem step_findsNoLibrary {c : Call} (hc : FindsNoLibrary .init c) :
    Journal.init.step c = .init := by
  cases c with
  | initialization o =>
    have hload : o.loadLibraryA = none := hc
    simp [Journal.step, crInvAllocFreeInitializationRoutineStatic, AcquiresEverything, hload,
      Journal.init, State.init]
  | cleanup => rfl

theorem leavesNothing_findsNoLibrary {c : Call} (hc : FindsNoLibrary .init c) :
    LeavesNothing .init c := by
  cases c with
  | initialization o =>
    intro _
    rw [step_findsNoLibrary hc]
    exact ⟨rfl, rfl⟩
  | cleanup => exact ⟨rfl, rfl, rfl⟩

/-- An initialization that finds the library leaves something if it fails, and if it succeeds it does
not install its table. -/
theorem breaks_of_library {o : Outcome} (h : o.loadLibraryA ≠ none) :
    ¬ (Journal.init.step (.initialization o)).Sound ∨ ¬ LeavesNothing .init (.initialization o) := by
  obtain ⟨library, hload⟩ := Option.ne_none_iff_exists'.mp h
  obtain ⟨s, hs, hun, htables, hrefs⟩ :=
    step_initialization (j := Journal.init) State.Untouched.init o
  by_cases hall : AcquiresEverything Journal.init.st o
  · left
    intro hsound
    obtain ⟨n, hn⟩ := hsound.heapTable (by simp [hs, hall])
    rw [hs, hun.inUse] at hn
    cases hn
  · right
    intro hleaves
    obtain ⟨ht, hr⟩ := hleaves (Or.inl hall)
    rw [hs] at ht hr
    rw [htables] at ht
    rw [hrefs] at hr
    cases hheap : o.heapAlloc with
    | none => simp [Outcome.leftReferences, hload, hheap] at hr
    | some block => simp [Outcome.leftTables, hload, hheap] at ht

/-- The promise is kept exactly when no initialization finds the library. -/
theorem hook_kept_iff (cs : List Call) :
    (Runs.Always Journal.step Journal.Sound .init cs ∧ Runs.Along Journal.step LeavesNothing .init cs) ↔
      Runs.Along Journal.step FindsNoLibrary .init cs := by
  refine Runs.always_and_along_iff (I := fun j => j = Journal.init) (V := fun _ _ => True)
    ?_ ?_ ?_ ?_ rfl (Runs.along_of_forall (fun _ _ => trivial) _ _)
  · rintro j rfl
    exact sound_init
  · rintro j c rfl - hc
    exact step_findsNoLibrary hc
  · rintro j c rfl - hc
    exact leavesNothing_findsNoLibrary hc
  · rintro j c rfl - hc
    cases c with
    | initialization o => exact breaks_of_library hc
    | cleanup => exact absurd trivial hc

/-- One initialization that finds the library and everything in it. -/
def foundEverything : Outcome where
  loadLibraryA := some 0
  heapAlloc := some 0
  getProcAddress := fun _ => some 1

/-- After it the default table is still in use, and the cleanup gives nothing back. -/
theorem hook_table_not_installed :
    ¬ Runs.Always Journal.step Journal.Sound .init [.initialization foundEverything] ∧
      ¬ Runs.Along Journal.step LeavesNothing .init [.initialization foundEverything, .cleanup] := by
  constructor
  · intro h
    obtain ⟨n, hn⟩ := h.final.heapTable (by decide)
    have huse : (Runs.final Journal.step .init [.initialization foundEverything]).st.s_pCrInvAllocFncsPtrs =
      .fncsPointerCrInvAlloc := by decide
    rw [huse] at hn
    cases hn
  · intro h
    have hone : ((Journal.init.step (.initialization foundEverything)).step .cleanup).st.libraryReferences =
      1 := by decide
    obtain ⟨-, ⟨-, hrefs, -⟩, -⟩ := h
    rw [hone] at hrefs
    cases hrefs

end CrashInvestigator.Hook
