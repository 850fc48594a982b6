import CrashInvestigator.Lifetime.World

/-!
# The leak threshold: statements

Two processes that make the same calls with the same answers, while each of them sets its threshold when
it likes, and one process whose threshold changes during the run.
-/

namespace CrashInvestigator.Lifetime

open Library HashItems
open Tracker (Addr CountsKnownStack SMemoryItem Tracked)

/-! ## Two processes -/

/-- What two processes do together, and what each of them does alone. -/
inductive PairLabel where
  | both (c : Tracker.Call) (env : ExportedEnv)
  | left (newNumber : ℕ)
  | right (newNumber : ℕ)

/-- `SetMaxAllowedAllocInTheSameStack` in a running process. -/
def setMax (x : Except Misuse State) (newNumber : ℕ) : Except Misuse State :=
  x.map fun s =>
    if s.process = .running then { s with unMaxNumberOfAllocFromTheSameStack := newNumber } else s

/-- One step of a pair of runs. -/
def pairStep (x : Except Misuse State × Except Misuse State) :
    PairLabel → Except Misuse State × Except Misuse State
  | .both c env => (exportedStep x.1 (.plain c, env), exportedStep x.2 (.plain c, env))
  | .left newNumber => (setMax x.1 newNumber, x.2)
  | .right newNumber => (x.1, setMax x.2 newNumber)

/-- The contents of `m_memoryItems` and of `m_stackItems`. -/
def State.contents (s : State) : List (Addr × SMemoryItem) × List (StackKey × ℕ) :=
  (s.memoryItems.entries.map fun e => (e.key, e.value),
    s.stackItems.entries.map fun e => (e.key, e.value))

/-- Nothing was misused, and the tables of the two processes have the same contents. -/
def SameTables (x : Except Misuse State × Except Misuse State) : Prop :=
  ∃ s s', x.1 = .ok s ∧ x.2 = .ok s' ∧ s'.contents = s.contents

/-- The leak callbacks leave the state alone, and the call is clean in both processes. -/
def CleanPair (x : Except Misuse State × Except Misuse State) : PairLabel → Prop
  | .both c env =>
    (∀ d, d.failureType = .possibilityOfMemoryLeak →
      env.clbkFnc d = .doNotMakeActionToPreventCrash) ∧
    CleanStep x.1 (.plain c, env) ∧ CleanStep x.2 (.plain c, env)
  | _ => True

/-- A block of a known stack is registered under thresholds that are both zero or both positive. -/
def ThresholdsAgree (x : Except Misuse State × Except Misuse State) : PairLabel → Prop
  | .both c env => ∀ s ∈ x.1.toOption, ∀ s' ∈ x.2.toOption, s.process = .running →
    CountsKnownStack s.abs (c, env.abs s.handlerTrace) →
      (s.unMaxNumberOfAllocFromTheSameStack = 0 ↔ s'.unMaxNumberOfAllocFromTheSameStack = 0)
  | _ => True

/-! ## One process -/

/-- One step of a process that calls the routines of the first part. -/
def plainStep (x : Except Misuse World) (c : Tracker.Call × ExportedEnv) : Except Misuse World :=
  worldStep x (.plain c.1, c.2)

/-- A clean call of an otherwise correct program. -/
def TrackedStep (x : Except Misuse World) (c : Tracker.Call × ExportedEnv) : Prop :=
  ∀ w ∈ x.toOption, w.st.process = .running →
    Clean w.st (.plain c.1, c.2) ∧ Tracked w.abs (c.1, w.answers c.2)

/-- No block of a known stack is registered under a zero threshold. -/
def CountsBlocks (x : Except Misuse World) (c : Tracker.Call × ExportedEnv) : Prop :=
  ∀ w ∈ x.toOption, w.st.process = .running → CountsKnownStack w.abs (c.1, w.answers c.2) →
    0 < w.st.unMaxNumberOfAllocFromTheSameStack

/-- No block is recorded `Allocated`. -/
def AllReleased (x : Except Misuse World) : Prop :=
  ∀ w ∈ x.toOption, w.st.process = .running → ∀ s, w.abs.allocatedCount s = 0

end CrashInvestigator.Lifetime
