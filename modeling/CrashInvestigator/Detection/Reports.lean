import CrashInvestigator.Detection.Machine
import CrashInvestigator.Library.Places
import CrashInvestigator.Library.Runs

/-!
# Reports beside other threads

A report leaves `s_mutexForMap` before it is made: `InitFailureDataAndCallClbk` gets a copy of the
record and reads the backtraces that the copy points to, while other threads go on. The machine has
the steps of the atomic one and keeps the `Backtrace` objects: those of the records, the one that a
thread has in hand, and the one in the note that a thread leaves for the signal handler. Captures do
not fail. `m_stackItems` is left out: whether the counter of a stack is above the threshold, so that a
registration reports a possible leak, is an answer from outside.
-/

namespace CrashInvestigator.Detection.Reports

open Tracker

/-- What a thread has still to do after its last step. -/
inductive Pending where
  | idle
  /-- `AddNewAllocatedMemoryAndCleanOldEntry` waits for the lock. -/
  | addNewAllocatedMemory (memoryType : MemoryType) (ptr : Addr) (pBacktrace : BacktracePtr)
  | freen (pToDelete : Addr)
  /-- `InitFailureDataAndCallClbk` with the copy `aItem` of the record of `ptr`. -/
  | report (failureType : FailureType) (aItem : SMemoryItem) (ptr : Addr)
      (pAnalizeTrace : BacktracePtr)
  /-- The last two lines of `TestOperatorReAlloc`. -/
  | freeBacktraceData (pAnalizeTrace : BacktracePtr)
  deriving DecidableEq

/-- The backtrace that a thread has in hand. A leak report has that of the record, and holds none. -/
def Pending.trace : Pending → BacktracePtr
  | .idle | .freen _ => none
  | .addNewAllocatedMemory _ _ pBacktrace => pBacktrace
  | .report .possibilityOfMemoryLeak _ _ _ => none
  | .report _ _ _ pAnalizeTrace => pAnalizeTrace
  | .freeBacktraceData pAnalizeTrace => pAnalizeTrace

/-- The thread is in a leak report. -/
def Pending.leak : Pending → Bool
  | .report .possibilityOfMemoryLeak _ _ _ => true
  | _ => false

structure State (θ : Type*) where
  memoryItems : MemoryItems
  traces : TraceHeap
  pending : θ → Pending
  /-- `m_handlerMemory`: the `deallocTrace` of a thread's note. -/
  note : θ → BacktracePtr

def State.init {θ : Type*} : State θ where
  memoryItems := ∅
  traces := .empty
  pending := fun _ => .idle
  note := fun _ => none

/-- What code outside the file answers during a step. -/
structure Answers where
  raw : Addr
  stack : Backtrace
  /-- The result of `SystemSpecificLibInitialDealloc` or `SystemSpecificLibInitialRealloc`. -/
  initial : Bool
  /-- The counter of the stack is above the threshold when `TestOperatorReAlloc` has counted it. -/
  leak : Bool

/-- A thread enters a routine, or goes on with the one it is in. If that is a registration, `leak` says
that the counter of its stack is above the threshold. -/
inductive Action (θ : Type*) where
  | enter (thread : θ) (c : Call) (answers : Answers)
  | resume (thread : θ) (leak : Bool)

section Routines

variable {θ : Type*} [DecidableEq θ]

/-- The next step of thread `i`. -/
def State.await (st : State θ) (i : θ) (p : Pending) : State θ :=
  { st with pending := Function.update st.pending i p }

/-- `InitBacktraceDataForCurrentStack`. -/
def State.capture (st : State θ) (stack : Backtrace) : State θ × BacktracePtr :=
  let c := initBacktraceDataForCurrentStack st.traces (some stack)
  ({ st with traces := c.1 }, c.2)

/-- `FreeBacktraceData`. -/
def State.free (st : State θ) (p : BacktracePtr) : State θ :=
  { st with traces := freeBacktraceData st.traces p }

/-- The record `item` of `ptr`, and the backtraces of the one that it replaces. -/
def addNewItem (st : State θ) (ptr : Addr) (item : SMemoryItem) : State θ :=
  match st.memoryItems.lookup ptr with
  | none => { st with memoryItems := st.memoryItems.insert ptr item }
  | some old =>
    let st₁ := (st.free old.deallocTrace).free old.allocTrace
    { st₁ with memoryItems := st₁.memoryItems.insert ptr item }

/-- `AddNewAllocatedMemoryAndCleanOldEntryNoLock` on the table and the backtraces of its records. A
leak report gives the lock back and gets the new record and its own `allocTrace`. -/
def addNewAllocatedMemoryAndCleanOldEntryNoLock (st : State θ) (i : θ) (memoryType : MemoryType)
    (ptr : Addr) (pBacktrace : BacktracePtr) (leak : Bool) : State θ :=
  let item : SMemoryItem := ⟨memoryType, .allocated, ptr, pBacktrace, none⟩
  (addNewItem st ptr item).await i
    (if leak then .report .possibilityOfMemoryLeak item ptr pBacktrace else .idle)

/-- `TestOperatorAlloc` up to the lock, for a positive size. -/
def testOperatorAlloc (st : State θ) (i : θ) (memoryType : MemoryType) (ans : Answers) : State θ :=
  if ans.raw = 0 then st
  else
    let c := st.capture ans.stack
    c.1.await i (.addNewAllocatedMemory memoryType ans.raw c.2)

/-- An address without a record. The early pool takes it, and the backtrace is lost; or the thread's
note is written, and libc takes it. -/
def untracked (st : State θ) (i : θ) (pAnalizeTrace : BacktracePtr) (ans : Answers) : State θ :=
  if ans.initial then st
  else
    let st₁ := st.free (st.note i)
    { st₁ with note := Function.update st₁.note i pAnalizeTrace }

/-- `TestOperatorDelete` up to the end of the lock, for an address that is not null. -/
def testOperatorDelete (st : State θ) (i : θ) (ptr : Addr) (typeExpected : MemoryType)
    (ans : Answers) : State θ :=
  let c := st.capture ans.stack
  match c.1.memoryItems.lookup ptr with
  | none => untracked c.1 i c.2 ans
  | some item =>
    if item.status ≠ .allocated then c.1.await i (.report .doubleFree item ptr c.2)
    else if item.type ≠ typeExpected then c.1.await i (.report .freeMissmatch item ptr c.2)
    else
      let released : SMemoryItem := { item with status := .deallocated, deallocTrace := c.2 }
      { c.1 with memoryItems := c.1.memoryItems.insert ptr released }.await i
        (.freen item.realAddress)

/-- `TestOperatorReAlloc`, for an address that is not null and a positive size. -/
def testOperatorReAlloc (st : State θ) (i : θ) (ptr : Addr) (ans : Answers) : State θ :=
  let c := st.capture ans.stack
  match c.1.memoryItems.lookup ptr with
  | none => untracked c.1 i c.2 ans
  | some item =>
    if item.type ≠ .malloc then c.1.await i (.report .badReallocCreatedByWrongAlloc item ptr c.2)
    else if item.status ≠ .allocated then c.1.await i (.report .badReallocDeletedMem item ptr c.2)
    else if ans.raw = ptr then c.1.await i (.freeBacktraceData c.2)
    else
      let moved : SMemoryItem := { item with status := .duringReallocChanged }
      addNewAllocatedMemoryAndCleanOldEntryNoLock
        { c.1 with memoryItems := c.1.memoryItems.insert ptr moved } i .malloc ans.raw c.2 ans.leak

/-- The step of a thread that is outside all routines. -/
def enter (st : State θ) (i : θ) (ans : Answers) : Call → State θ
  | .alloc count memoryType _ => if count = 0 then st else testOperatorAlloc st i memoryType ans
  | .calloc nmemb size =>
    if nmemb * size % sizeModulus = 0 then st else testOperatorAlloc st i .malloc ans
  | .reAlloc ptr count =>
    if ptr = 0 then if count = 0 then st else testOperatorAlloc st i .malloc ans
    else if count = 0 then testOperatorDelete st i ptr .malloc ans
    else testOperatorReAlloc st i ptr ans
  | .delete ptr typeExpected =>
    if ptr = 0 then st else testOperatorDelete st i ptr typeExpected ans
  | .setMaxAllowedAllocInTheSameStack _ => st

/-- The step of a thread that is inside a routine. A report is over when its cleaner has freed the
analysis trace, which is the `allocTrace` of the record where the report is about a leak. -/
def resume (st : State θ) (i : θ) (leak : Bool) : State θ :=
  match st.pending i with
  | .idle => st
  | .addNewAllocatedMemory memoryType ptr pBacktrace =>
    addNewAllocatedMemoryAndCleanOldEntryNoLock st i memoryType ptr pBacktrace leak
  | .freen _ => st.await i .idle
  | .report _ _ _ pAnalizeTrace => (st.free pAnalizeTrace).await i .idle
  | .freeBacktraceData pAnalizeTrace => (st.free pAnalizeTrace).await i .idle

/-- One step of the system. A thread inside a routine enters no other one. -/
def act (st : State θ) : Action θ → State θ
  | .enter i c ans => if st.pending i = .idle then enter st i ans c else st
  | .resume i leak => resume st i leak

end Routines

/-! ## Statements -/

section Statements

variable {θ : Type*}

/-- The backtraces that a report on a copy of a record may read. -/
def Reads (item : SMemoryItem) (t : ℕ) : Prop :=
  item.allocTrace = some t ∨ item.deallocTrace = some t

/-- Nothing is freed twice, the backtraces of the records are not freed, and those that a report in
progress reads are not freed as long as the address has not got another record. -/
structure ReportsReadLive (st : State θ) : Prop where
  once : ∀ t, st.traces.frees t ≤ 1
  records : ∀ p item t, st.memoryItems.lookup p = some item → Reads item t →
    st.traces.frees t = 0
  reports : ∀ i failureType item p bt, st.pending i = .report failureType item p bt →
    ((∀ t, Reads item t → st.traces.frees t = 0) ↔
      ∃ current, st.memoryItems.lookup p = some current ∧
        current.allocTrace = item.allocTrace)

/-- The step does not end a leak report. -/
def EndsNoLeakReport (st : State θ) : Action θ → Prop
  | .enter _ _ _ => True
  | .resume i _ => (st.pending i).leak = false

instance (st : State θ) : ∀ a : Action θ, Decidable (EndsNoLeakReport st a)
  | .enter _ _ _ => inferInstanceAs (Decidable True)
  | .resume i _ => inferInstanceAs (Decidable ((st.pending i).leak = false))

end Statements

end CrashInvestigator.Detection.Reports
