import CrashInvestigator.Tracker.Chronicle
import CrashInvestigator.Tracker.DefaultCallback
import CrashInvestigator.Tracker.Accounting
import Mathlib.Data.Set.Card

/-!
# The monitor

What the tool is for, when its failure callback is the default one: the program runs until its first
error, and the error is reported. The monitor keeps, for every address, what the program did there last;
it knows nothing of tables, counters or `Backtrace` objects. The tracker is compared with it over whole
runs.
-/

namespace CrashInvestigator.Tracker

open Library

/-- The last registration of an address, and what released the block, if something did. A realloc that
moved the block left no stack. -/
structure Entry where
  type : MemoryType
  stack : Backtrace
  released : Option (List ℕ)

/-- What was done at every address. -/
abbrev Books := Addr → Option Entry

namespace Books

/-- The number of blocks that are allocated from a stack. -/
noncomputable def count (b : Books) (s : Backtrace) : ℕ :=
  Set.ncard {p | ∃ e, b p = some e ∧ e.released = none ∧ e.stack = s}

def register (b : Books) (p : Addr) (memoryType : MemoryType) (stack : Backtrace) : Books :=
  Function.update b p (some ⟨memoryType, stack, none⟩)

def release (b : Books) (p : Addr) (stack : List ℕ) : Books :=
  Function.update b p ((b p).map fun e => { e with released := some stack })

/-- A call without an error. -/
def after (b : Books) (c : Call) (env : Env) : Books :=
  match c.effect with
  | .allocate memoryType =>
    if env.raw = 0 then b else b.register env.raw memoryType (env.stack.getD ⟨[]⟩)
  | .release p _ => b.release p env.frames
  | .move p _ =>
    if (b p).isNone ∨ env.raw = p then b
    else (b.release p []).register env.raw .malloc (env.stack.getD ⟨[]⟩)
  | _ => b

end Books

/-- The stack of the release, for the failures that show it. -/
def Entry.stackFree (e : Entry) : FailureType → List ℕ
  | .doubleFree | .badReallocDeletedMem => e.released.getD []
  | _ => []

/-- What has to be reported about an address. -/
def Entry.report (e : Entry) (env : Env) (p : Addr) (count : ℕ) (failureType : FailureType) :
    FailureData where
  failureType := failureType
  allocType := e.type
  freeType := if failureType = .possibilityOfMemoryLeak then e.type else .notProvided
  reserved01 := 0
  clbkData := env.userData
  failureAddress := p
  badReallocSecondArg := count
  stackAlloc := e.stack.ppBuffer
  stackFree := e.stackFree failureType
  analizeStack := if failureType = .possibilityOfMemoryLeak then [] else env.frames

namespace Books

/-- The report that too many blocks of one stack are allocated, the one just registered included. -/
noncomputable def leak (b : Books) (max : ℕ) (memoryType : MemoryType) (env : Env) :
    Option FailureData :=
  if max < b.count (env.stack.getD ⟨[]⟩) then
    some (Entry.report ⟨memoryType, env.stack.getD ⟨[]⟩, none⟩ env env.raw 0
      .possibilityOfMemoryLeak)
  else none

/-- The error of a call, if it is one. -/
noncomputable def error (b : Books) (max : ℕ) (c : Call) (env : Env) : Option FailureData :=
  match c.effect with
  | .allocate memoryType => if env.raw = 0 then none else (b.after c env).leak max memoryType env
  | .release p typeExpected =>
    (b p).bind fun e =>
      if e.released.isSome then some (e.report env p 0 .doubleFree)
      else if e.type ≠ typeExpected then some (e.report env p 0 .freeMissmatch)
      else none
  | .move p count =>
    (b p).bind fun e =>
      if e.type ≠ .malloc then some (e.report env p count .badReallocCreatedByWrongAlloc)
      else if e.released.isSome then some (e.report env p count .badReallocDeletedMem)
      else if env.raw = p then none
      else (b.after c env).leak max .malloc env
  | _ => none

end Books

/-- The threshold after a call. -/
def Call.nextMax (c : Call) (max : ℕ) : ℕ :=
  match c.effect with
  | .setMax newNumber => newNumber
  | _ => max

/-- The monitor stops at the first error. -/
structure Monitor where
  books : Books
  max : ℕ
  failure : Option FailureData

def Monitor.init : Monitor := ⟨fun _ => none, 10, none⟩

noncomputable def Monitor.step (m : Monitor) (c : Call × Env) : Monitor :=
  if m.failure.isSome then m
  else
    match m.books.error m.max c.1 c.2 with
    | some data => { m with failure := some data }
    | none =>
      { m with
        books := m.books.after c.1 c.2
        max := c.1.nextMax m.max }

/-! ## The run of a process -/

/-- The tracker with the data of its reports, and the monitor. -/
structure Monitored where
  st : State
  reports : List FailureData
  monitor : Monitor

def Monitored.init : Monitored := ⟨.init, [], .init⟩

noncomputable def Monitored.step (w : Monitored) (c : Call × Env) : Monitored where
  st := Tracker.step w.st c
  reports :=
    if w.st.process = .running then w.reports ++ reported (call w.st c.2 c.1).events else w.reports
  monitor := w.monitor.step c

/-- What was written to `stderr`. -/
def Monitored.stderr (symbols : Addr → StackItem) (w : Monitored) : List Char :=
  w.reports.flatMap fun data => (defaultFailureClbk symbols data).1

/-- `backtrace_symbols` does not fail. -/
def FindsNames (env : Env) : Prop := ∀ t, env.backtraceSymbols t = true

/-- The assumptions on one call of a process that leaves the callback alone. The raw allocator issues
only addresses that are not live and its `reallocn` does not fail, a stack is captured, the tables can
grow, and the names of a stack are found. -/
structure Unconfigured (symbols : Addr → StackItem) (st : State) (c : Call × Env) : Prop where
  callback : c.2.IsDefault symbols
  fresh : RawIssuesFresh st c
  succeeds : RawReallocSucceeds c
  captured : StackCaptured c.2
  grow : TablesGrow c.2
  names : FindsNames c.2
  threshold : SetsPositiveMax c.1

/-- The process runs as long as the monitor has seen no error. At the first one it exits with code 1, and
it has reported this error and nothing else. -/
structure Obeys (w : Monitored) : Prop where
  process : w.st.process = if w.monitor.failure.isSome then .exited 1 else .running
  reports : w.reports = w.monitor.failure.toList

end CrashInvestigator.Tracker
