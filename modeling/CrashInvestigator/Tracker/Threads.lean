import CrashInvestigator.Tracker.Proofs.LeakReportProofs

/-!
# Leak accounting by several threads

The exported routines with both tables, as the steps of any number of threads. As in the detection
machine, `TestOperatorAlloc` and `TestOperatorCalloc` are a raw request and, later, a locked
registration, `TestOperatorDelete` is a locked part and, later, a raw `freen`, and
`TestOperatorReAlloc` is one locked step. The tables are those of the sequential tracker,
`m_stackItems` included. A report belongs to the step that finds the failure.
-/

namespace CrashInvestigator.Tracker.Threads

open Library

/-- What a thread has still to do after its last step. -/
inductive Pending where
  | idle
  /-- `AddNewAllocatedMemoryAndCleanOldEntry` waits for the lock. -/
  | addNewAllocatedMemory (memoryType : MemoryType) (ptr : Addr)
  /-- `TestOperatorDelete` has left the lock with this `pToDelete`. -/
  | freen (pToDelete : Addr)

/-- The block a thread is about to register or to free. -/
def Pending.address : Pending → Option Addr
  | .idle => none
  | .addNewAllocatedMemory _ ptr => some ptr
  | .freen pToDelete => some pToDelete

/-- The tables, which the threads share, and what every thread has still to do. -/
structure State (θ : Type*) where
  tables : Tracker.State
  pending : θ → Pending

def State.init {θ : Type*} : State θ := ⟨.init, fun _ => .idle⟩

/-- A thread enters a routine, or goes on with the one it is in. -/
inductive Action (θ : Type*) where
  | enter (thread : θ) (c : Call) (env : Env)
  | resume (thread : θ) (env : Env)

/-! ## The parts of the routines -/

/-- `TestOperatorDelete` up to the end of the lock. -/
def deleteLocked (st : Tracker.State) (env : Env) (ptr : Addr) (typeExpected : MemoryType) :
    Res × Pending :=
  match (st.capture env).findMemoryItem ptr with
  | none => (deleteUntracked (st.capture env) env ptr (st.captured env), .idle)
  | some item =>
    if item.status ≠ .allocated then
      (initFailureDataAndCallClbk (st.capture env) env item .notProvided ptr 0 .doubleFree
        (st.captured env), .idle)
    else
      match removeCorrespondingTrace (st.capture env) item.allocTrace with
      | .error pr => ((st.capture env).ends pr [], .idle)
      | .ok st₁ =>
        if item.type ≠ typeExpected then
          (initFailureDataAndCallClbk st₁ env item .notProvided ptr 0 .freeMissmatch
            (st.captured env), .idle)
        else
          (⟨st₁.setMemoryItem ptr { item with
              status := .deallocated, deallocTrace := st.captured env }, .returns 0, []⟩,
            .freen item.realAddress)

/-- The first step of a call. The raw request of an allocation is not among the events. -/
def enter (st : Tracker.State) (env : Env) (c : Call) : Res × Pending :=
  match c.effect with
  | .allocate memoryType =>
    if env.raw = 0 then (⟨st, .returns 0, []⟩, .idle)
    else (⟨st.mallocn env.raw, .returns env.raw, []⟩, .addNewAllocatedMemory memoryType env.raw)
  | .release ptr typeExpected => deleteLocked st env ptr typeExpected
  | _ => (call st env c, .idle)

/-- The second step of a call. -/
def resume (st : Tracker.State) (env : Env) : Pending → Res
  | .idle => ⟨st, .returns 0, []⟩
  | .addNewAllocatedMemory memoryType ptr =>
    addNewAllocatedMemoryAndCleanOldEntry st env memoryType ptr
  | .freen pToDelete => ⟨st.freen pToDelete, .returns 0, [.freen pToDelete]⟩

section Steps

variable {θ : Type*} [DecidableEq θ]

/-- The tables after a step with the events of the step, and what its thread has still to do. A
thread enters one routine at a time. -/
def result (s : State θ) : Action θ → θ × Res × Pending
  | .enter i c env =>
    match s.pending i with
    | .idle => (i, (enter s.tables env c).1, (enter s.tables env c).2)
    | p => (i, ⟨s.tables, .returns 0, []⟩, p)
  | .resume i env => (i, resume s.tables env (s.pending i), .idle)

def act (s : State θ) (a : Action θ) : State θ :=
  if s.tables.process = .running then
    let (i, r, p) := result s a
    ⟨r.st, Function.update s.pending i p⟩
  else s

/-- The program passes no address before a call has returned it. -/
def PassesReturned (s : State θ) (c : Call) : Prop :=
  ∀ i memoryType ptr, s.pending i = .addNewAllocatedMemory memoryType ptr →
    (∀ t, c.effect ≠ .release ptr t) ∧ ∀ n, c.effect ≠ .move ptr n

/-- The assumptions on a step: those of the sequential accounting on the calls, which are made with
returned addresses, and on what the tool asks for when a call goes on. -/
def Admissible (s : State θ) : Action θ → Prop
  | .enter _ c env => Tracked s.tables (c, env) ∧ SetsPositiveMax c ∧ PassesReturned s c
  | .resume i env => ∀ memoryType ptr, s.pending i = .addNewAllocatedMemory memoryType ptr →
    StackCaptured env ∧ TablesGrow env ∧ RefusesActions env

/-- The step registers a block: the end of an allocation, or a realloc that moves an allocated
block. -/
def Registers (s : State θ) : Action θ → Prop
  | .enter i c env =>
    s.pending i = .idle ∧ ∃ p n, c.effect = .move p n ∧ RegistersBlock s.tables (c, env)
  | .resume i _ => ∃ memoryType ptr, s.pending i = .addNewAllocatedMemory memoryType ptr

/-- What the tool is told in a step. -/
def Action.env : Action θ → Env
  | .enter _ _ env => env
  | .resume _ env => env

/-- A possible leak is reported by the registration of a block whose stack then has more allocated
blocks than allowed, and by nothing else. -/
def ReportsLeaks (s : State θ) (a : Action θ) : Prop :=
  (result s a).2.1.Reports .possibilityOfMemoryLeak ↔
    Registers s a ∧ ∃ stack, a.env.stack = some stack ∧
      s.tables.unMaxNumberOfAllocFromTheSameStack < (act s a).tables.allocatedCount stack

end Steps

end CrashInvestigator.Tracker.Threads
