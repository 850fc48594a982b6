import Mathlib.Data.List.Basic
import Mathlib.Logic.Function.Iterate

/-!
# Captured stacks

Model of the `Backtrace` objects of `core/backtrace`. A `Backtrace*` is `none` when null; otherwise
it names an object of the `TraceHeap` by its identity, so an object that was released is never
confused with a later one. The heap keeps the frames of an object after its release and counts how
often `FreeBacktraceData` was called on it.
-/

namespace CrashInvestigator.Tracker

/-- `struct Backtrace`: the captured frames (`ppBuffer`), innermost first. -/
structure Backtrace where
  ppBuffer : List ℕ
  deriving DecidableEq, Repr

/-- The number of captured frames. -/
def Backtrace.stackDeepness (b : Backtrace) : ℕ := b.ppBuffer.length

/-- `Backtrace*`: null, or the identity of an object of the heap. -/
abbrev BacktracePtr := Option ℕ

/-- The `Backtrace` objects created so far are those below `next`. -/
structure TraceHeap where
  /-- The identity of the next object. -/
  next : ℕ
  /-- The frames of an object. -/
  data : ℕ → Backtrace
  /-- How often `FreeBacktraceData` was called on an object. -/
  frees : ℕ → ℕ

/-- No `Backtrace` has been created yet. -/
def TraceHeap.empty : TraceHeap := { next := 0, data := fun _ => ⟨[]⟩, frees := fun _ => 0 }

/-- `IsTheSameStack`: the depth is positive, the depths agree and `memcmp` finds the frames equal. -/
def isTheSameStack (stack1 stack2 : Backtrace) : Bool :=
  decide (0 < stack1.stackDeepness) && decide (stack1.stackDeepness = stack2.stackDeepness) &&
    decide (stack1.ppBuffer = stack2.ppBuffer)

/-- `FreeBacktraceData`: a null argument is ignored. -/
def freeBacktraceData (h : TraceHeap) : BacktracePtr → TraceHeap
  | none => h
  | some t => { h with frees := Function.update h.frees t (h.frees t + 1) }

/-- `InitBacktraceDataForCurrentStack`: a new object with the captured frames. `captured` is `none`
when one of its two raw requests failed; whatever was obtained is then given back. -/
def initBacktraceDataForCurrentStack (h : TraceHeap) (captured : Option Backtrace) :
    TraceHeap × BacktracePtr :=
  match captured with
  | none => (h, none)
  | some b => ({ h with next := h.next + 1, data := Function.update h.data h.next b }, some h.next)

/-- The frames `ConvertBacktraceToNames` writes into a report when `backtrace_symbols` has found their
names; nothing for a null `Backtrace`. -/
def convertBacktraceToNames (h : TraceHeap) : BacktracePtr → List ℕ
  | none => []
  | some t => (h.data t).ppBuffer

/-! ## Small lemmas -/

section

variable (h : TraceHeap) (p : BacktracePtr) (c : Option Backtrace)

@[simp] theorem freeBacktraceData_next : (freeBacktraceData h p).next = h.next := by
  cases p <;> rfl

@[simp] theorem freeBacktraceData_data : (freeBacktraceData h p).data = h.data := by
  cases p <;> rfl

@[simp] theorem freeBacktraceData_none : freeBacktraceData h none = h := rfl

@[simp] theorem freeBacktraceData_frees_some (t u : ℕ) :
    (freeBacktraceData h (some t)).frees u = if u = t then h.frees t + 1 else h.frees u := by
  simp [freeBacktraceData, Function.update_apply]

theorem freeBacktraceData_frees_of_ne {t : ℕ} (hp : p ≠ some t) :
    (freeBacktraceData h p).frees t = h.frees t := by
  cases p with
  | none => rfl
  | some u =>
    have hne : t ≠ u := fun e => hp (by rw [e])
    simp [hne]

@[simp] theorem iterate_freeBacktraceData_next (n : ℕ) :
    ((fun g => freeBacktraceData g p)^[n] h).next = h.next := by
  induction n generalizing h with
  | zero => rfl
  | succ n ih => rw [Function.iterate_succ_apply, ih, freeBacktraceData_next]

@[simp] theorem iterate_freeBacktraceData_data (n : ℕ) :
    ((fun g => freeBacktraceData g p)^[n] h).data = h.data := by
  induction n generalizing h with
  | zero => rfl
  | succ n ih => rw [Function.iterate_succ_apply, ih, freeBacktraceData_data]

theorem iterate_freeBacktraceData_frees (n u : ℕ) :
    ((fun g => freeBacktraceData g p)^[n] h).frees u =
      if p = some u then h.frees u + n else h.frees u := by
  induction n generalizing h with
  | zero => simp
  | succ n ih =>
    rw [Function.iterate_succ_apply, ih]
    split_ifs with hp
    · rw [hp, freeBacktraceData_frees_some, if_pos rfl]
      omega
    · exact freeBacktraceData_frees_of_ne h p hp

@[simp] theorem initBacktrace_frees :
    (initBacktraceDataForCurrentStack h c).1.frees = h.frees := by
  cases c <;> rfl

theorem initBacktrace_next_le : h.next ≤ (initBacktraceDataForCurrentStack h c).1.next := by
  cases c with
  | none => exact Nat.le_refl _
  | some b => exact Nat.le_succ _

theorem initBacktrace_data_of_lt {t : ℕ} (ht : t < h.next) :
    (initBacktraceDataForCurrentStack h c).1.data t = h.data t := by
  cases c with
  | none => rfl
  | some b => exact Function.update_of_ne (Nat.ne_of_lt ht) _ _

end

/-- The names are those of the frames. -/
theorem convertBacktraceToNames_congr {h h' : TraceHeap} (hdata : h'.data = h.data) :
    convertBacktraceToNames h' = convertBacktraceToNames h := by
  funext p
  cases p with
  | none => rfl
  | some t => simp [convertBacktraceToNames, hdata]

theorem isTheSameStack_iff {a b : Backtrace} :
    isTheSameStack a b = true ↔ a.ppBuffer ≠ [] ∧ a = b := by
  cases a with
  | mk p =>
    cases b with
    | mk q =>
      simp only [isTheSameStack, Backtrace.stackDeepness, Bool.and_eq_true, decide_eq_true_eq,
        Backtrace.mk.injEq, List.length_pos_iff]
      constructor
      · rintro ⟨⟨h1, -⟩, h2⟩
        exact ⟨h1, h2⟩
      · rintro ⟨h1, h2⟩
        exact ⟨⟨h1, by simp [h2]⟩, h2⟩

end CrashInvestigator.Tracker
