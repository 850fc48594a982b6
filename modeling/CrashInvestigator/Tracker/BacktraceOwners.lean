import CrashInvestigator.Library.Ownership
import CrashInvestigator.Tracker.Proofs.StepProofs

/-!
# Who owns the captured stacks

The program with the thread-local `m_handlerMemory` of its threads, each of which makes its calls. A
`Backtrace` belongs to the record that points to it, or to the note for the signal handler of a thread.
-/

namespace CrashInvestigator.Tracker

open Library

/-- The tracker with the items of `m_handlerMemory`. -/
structure Program where
  st : State
  handlerMemory : ℕ → Option CMemoryItem

def Program.init : Program := ⟨.init, fun _ => none⟩

/-- A thread keeps the item that a call initializes. -/
def keepHandlerItem (thread : ℕ) (items : ℕ → Option CMemoryItem) : Event → ℕ → Option CMemoryItem
  | .handlerMemoryInit item => Function.update items thread (some item)
  | _ => items

/-- One call of a thread. -/
def Program.step (w : Program) (l : ℕ × Call × Env) : Program :=
  if w.st.process = .running then
    let r := call w.st l.2.2 l.2.1
    ⟨r.st, r.events.foldl (keepHandlerItem l.1) w.handlerMemory⟩
  else w

/-- A record of `m_memoryItems` or the item of a thread owns the trace. -/
def Program.Owns (w : Program) (t : ℕ) : Prop :=
  (∃ e ∈ w.st.memoryItems, e.2.allocTrace = some t ∨ e.2.deallocTrace = some t) ∨
    ∃ thread item, w.handlerMemory thread = some item ∧ item.deallocTrace = some t

/-- In a process that goes on, every trace that was created and not freed is owned. -/
def Program.NoneLost (w : Program) : Prop :=
  w.st.process = .running → Covered w.st.traces.next w.st.traces.frees {t | w.Owns t}

/-- The item of the thread is the one that it kept, and the scope cleaner runs. -/
def AnswersFor (w : Program) (l : ℕ × Call × Env) : Prop :=
  l.2.2.handlerMemory = w.handlerMemory l.1 ∧ 1 ≤ l.2.2.inScopeCleanerRuns

/-- A record for the new block cannot be added to `m_memoryItems`. -/
def Unrecordable (st : State) (env : Env) : Prop :=
  st.findMemoryItem env.raw = none ∧ env.memoryItem = false

instance (st : State) (env : Env) : Decidable (Unrecordable st env) := by
  unfold Unrecordable
  infer_instance

/-- The calls that leave after the capture without a word about the captured stack: the pool takes an
address without a record, or the registration of a new block throws. -/
def ForgetsBacktrace (st : State) (env : Env) (c : Call) : Prop :=
  match c.effect with
  | .release ptr _ => st.findMemoryItem ptr = none ∧ env.initialDealloc = true
  | .move ptr _ =>
    match st.findMemoryItem ptr with
    | none => env.initialRealloc.isSome
    | some item =>
      item.type = .malloc ∧ item.status = .allocated ∧ env.raw ≠ ptr ∧
        (removeCorrespondingTrace ((st.capture env).reallocn item.realAddress env.raw)
          item.allocTrace).isOk = true ∧
        Unrecordable st env
  | .allocate _ => env.raw ≠ 0 ∧ Unrecordable st env
  | .nothing | .setMax _ => False

instance (st : State) (env : Env) (c : Call) : Decidable (ForgetsBacktrace st env c) := by
  unfold ForgetsBacktrace
  split
  · infer_instance
  · split <;> infer_instance
  · infer_instance
  · infer_instance
  · infer_instance

/-- A call that captures a stack does not forget it. -/
def KeepsBacktrace (w : Program) (l : ℕ × Call × Env) : Prop :=
  w.st.process = .running → l.2.2.stack.isSome → ¬ ForgetsBacktrace w.st l.2.2 l.2.1

instance (w : Program) : DecidablePred (KeepsBacktrace w) := fun l =>
  inferInstanceAs (Decidable (w.st.process = .running → l.2.2.stack.isSome →
    ¬ ForgetsBacktrace w.st l.2.2 l.2.1))

end CrashInvestigator.Tracker
