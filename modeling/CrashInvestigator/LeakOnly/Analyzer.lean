import CrashInvestigator.Library.Runs
import CrashInvestigator.Tracker.State

/-!
# The leak-only analyzer

Model of `crash_investigator_analyze_leak_only_new_delete.cpp`, where `operator new` and
`operator delete` are replaced and every tracked block is counted under the stack of its allocation.
The two `cpputils` tables are entry lists, `s_pMem` searched by address and `s_pStack` with
`BackTrcEql`. A call is atomic in the tables, as it is under `s_pMutex`. `AllocMem` is the variant
that recovers from an address which is still recorded.

The tables are those between `InitRaw` and the exit of the process.
-/

namespace CrashInvestigator.LeakOnly

open Library
open Tracker (Addr Backtrace BacktracePtr TraceHeap Process freeBacktraceData
  initBacktraceDataForCurrentStack convertBacktraceToNames)

/-- `CRASH_INVEST_INIT_TIME`, in seconds. -/
def crashInvestInitTime : ℤ := 0

structure State where
  /-- `s_pMem`: the backtrace of every recorded block. -/
  pMem : List (Addr × ℕ)
  /-- `s_pStack`: the number of recorded blocks of a stack. -/
  pStack : List (ℕ × ℕ)
  traces : TraceHeap
  unMaxNumberOfAllocInTheStack : ℕ
  /-- `s_init_time`. -/
  initTime : ℤ
  initOrExitOngoing : Bool
  process : Process

/-- The state that `InitRaw` leaves behind. -/
def State.initRaw (max : ℕ) (time : ℤ) : State where
  pMem := []
  pStack := []
  traces := .empty
  unMaxNumberOfAllocInTheStack := max
  initTime := time
  initOrExitOngoing := false
  process := .running

inductive Call where
  | allocMem (size : ℕ)
  | freeMem (ptr : Addr)
  deriving DecidableEq, Repr

/-- What code outside the file answers during one call. -/
structure Env where
  /-- The answer of `malloc`, `0` when it fails. -/
  raw : Addr
  /-- The captured stack, `none` when `InitBacktraceDataForCurrentStack` returns null. -/
  stack : Option Backtrace
  /-- The answer of `time`. -/
  currentTime : ℤ
  /-- `s_isOngoing` of the calling thread. -/
  isOngoing : ℕ
  /-- `g_bIgnoreThisStack` of the calling thread. -/
  ignoreThisStack : Bool
  /-- The calls of `AllocMem` and `FreeMem` that `ConvertBacktraceToNames` makes for its vector and
  strings, each with the answer of its `malloc`. -/
  nested : List (Call × Addr)

/-- What a call does outside the tables, in order. -/
inductive Event where
  | malloc (size : ℕ) (answer : Addr)
  | free (ptr : Addr)
  /-- `TakeStackOut` does not find the stack and returns. -/
  | stackNotFound
  /-- The frames printed under `possible place of memory leak`. -/
  | leakReport (frames : List ℕ)
  deriving DecidableEq, Repr

/-- The result of a call: the new state, the returned pointer (`0` for `FreeMem`) and the events. -/
structure Res where
  st : State
  ret : Addr
  events : List Event

/-! ## The two tables -/

/-- `BackTrcEql`. -/
def backTrcEql (lhs rhs : Backtrace) : Bool :=
  decide (0 < lhs.stackDeepness) && decide (lhs.stackDeepness = rhs.stackDeepness) &&
    decide (lhs.ppBuffer = rhs.ppBuffer)

/-- `s_pMem->find(a_ptr)`. -/
def State.findMem (st : State) (ptr : Addr) : Option (Addr × ℕ) :=
  Entries.findEntry (fun k => decide (k = ptr)) st.pMem

/-- The key test of `s_pStack->find(t)`. -/
def stackTest (h : TraceHeap) (t : ℕ) : ℕ → Bool := fun k => backTrcEql (h.data k) (h.data t)

/-- `s_pStack->find(t)`. -/
def State.findStack (st : State) (t : ℕ) : Option (ℕ × ℕ) :=
  Entries.findEntry (stackTest st.traces t) st.pStack

/-- Assignment through the iterator that `s_pStack->find(t)` returned. -/
def State.setStack (st : State) (t second : ℕ) : State :=
  { st with pStack := Entries.setFirst (stackTest st.traces t) second st.pStack }

/-! ## The operations -/

/-- `CloneBackTrace` when its two raw requests succeed: a new object with the frames of `t`. -/
def cloneBackTrace (h : TraceHeap) (t : ℕ) : TraceHeap × ℕ :=
  ({ h with next := h.next + 1, data := Function.update h.data h.next (h.data t) }, h.next)

/-- `TakeStackOut` on the backtrace of an entry of `s_pMem`. -/
def takeStackOut (st : State) (t : ℕ) : State × List Event :=
  match st.findStack t with
  | none => (st, [.stackNotFound])
  | some (pBacktrace2, second) =>
    if second = 1 then
      ({ st with
          pStack := Entries.removeFirst (stackTest st.traces t) st.pStack
          traces := freeBacktraceData st.traces (some pBacktrace2) }, [])
    else (st.setStack t (second - 1), [])

/-- An entry of `s_pMem` is taken out with its count and its backtrace. -/
def removeMem (st : State) (entry : Addr × ℕ) : State × List Event :=
  let (st₁, events) := takeStackOut st entry.2
  ({ st₁ with
      pMem := Entries.removeFirst (fun k => decide (k = entry.1)) st₁.pMem
      traces := freeBacktraceData st₁.traces (some entry.2) }, events)

/-- `~IntHandler`. -/
def State.leaveHandler (st : State) : State := { st with initOrExitOngoing := false }

/-- `FreeMemAnalyze`. -/
def freeMemAnalyze (st : State) (ptr : Addr) : State × List Event :=
  if st.initOrExitOngoing then (st, [])
  else
    match st.findMem ptr with
    | none => (st.leaveHandler, [])
    | some entry =>
      let (st₁, events) := removeMem st entry
      (st₁.leaveHandler, events)

/-- `FreeMem`. -/
def freeMem (st : State) (ptr : Addr) : Res :=
  let (st₁, events) := freeMemAnalyze st ptr
  ⟨st₁, 0, events ++ [.free ptr]⟩

/-- The first return of `AllocMem`: the block is not tracked. -/
def allocUntracked (st : State) (size : ℕ) (raw : Addr) : Res := ⟨st, raw, [.malloc size raw]⟩

/-- A call that `ConvertBacktraceToNames` makes. `s_isOngoing` is positive, so an allocation is not
tracked. -/
def nestedCall (r : Res) (c : Call × Addr) : Res :=
  let next := match c.1 with
    | .allocMem size => allocUntracked r.st size c.2
    | .freeMem ptr => freeMem r.st ptr
  ⟨next.st, r.ret, r.events ++ next.events⟩

/-- The leak report of `AllocMem`, which ends in `exit(1)`. -/
def reportLeak (st : State) (env : Env) (t : ℕ) : Res :=
  let r := env.nested.foldl nestedCall ⟨st, 0, []⟩
  ⟨{ r.st with process := .exited 1 }, 0,
    r.events ++ [.leakReport (convertBacktraceToNames st.traces (some t))]⟩

/-- The count of the stack of a block that was just recorded. -/
def countStack (st : State) (env : Env) (ptr : Addr) (t : ℕ) : Res :=
  match st.findStack t with
  | none =>
    let (traces, pBacktrace2) := cloneBackTrace st.traces t
    ⟨{ st with pStack := (pBacktrace2, 1) :: st.pStack, traces := traces }.leaveHandler, ptr, []⟩
  | some (_, second) =>
    let st₁ := st.setStack t (second + 1)
    if st.unMaxNumberOfAllocInTheStack < second + 1 ∧
        crashInvestInitTime ≤ env.currentTime - st.initTime then
      reportLeak st₁ env t
    else ⟨st₁.leaveHandler, ptr, []⟩

/-- A block that is still recorded was released behind the tracker's back: its entry is removed. -/
def recoverMem (st : State) (ptr : Addr) : State × List Event :=
  match st.findMem ptr with
  | none => (st, [])
  | some entry => removeMem st entry

/-- `AllocMem`. -/
def allocMem (st : State) (env : Env) (size : ℕ) : Res :=
  if st.initOrExitOngoing ∨ 0 < env.isOngoing ∨ env.ignoreThisStack then
    allocUntracked st size env.raw
  else if env.raw = 0 then ⟨st.leaveHandler, 0, [.malloc size 0]⟩
  else
    match initBacktraceDataForCurrentStack st.traces env.stack with
    | (_, none) => ⟨st.leaveHandler, env.raw, [.malloc size env.raw]⟩
    | (traces, some pBacktrace) =>
      let (st₁, events₁) := recoverMem { st with traces := traces } env.raw
      let r := countStack { st₁ with pMem := (env.raw, pBacktrace) :: st₁.pMem } env env.raw
        pBacktrace
      ⟨r.st, r.ret, .malloc size env.raw :: events₁ ++ r.events⟩

/-- One call. -/
def call (st : State) (env : Env) : Call → Res
  | .allocMem size => allocMem st env size
  | .freeMem ptr => freeMem st ptr

/-- A process that has ended makes no further call. -/
def step (st : State) (c : Call × Env) : State :=
  if st.process = .running then (call st c.2 c.1).st else st

/-! ## Small lemmas -/

theorem backTrcEql_iff {a b : Backtrace} : backTrcEql a b = true ↔ a.ppBuffer ≠ [] ∧ a = b :=
  Tracker.isTheSameStack_iff

/-- A nested allocation is a call of `AllocMem` that is not tracked. -/
theorem allocMem_nested (st : State) (env : Env) (size : ℕ) (h : 0 < env.isOngoing) :
    allocMem st env size = allocUntracked st size env.raw := by
  simp [allocMem, h]

end CrashInvestigator.LeakOnly
