import CrashInvestigator.Tracker.Operations
import Mathlib.Data.Finmap

/-!
# Detection by several threads

The exported routines as atomic steps of any number of threads. `TestOperatorAlloc` and
`TestOperatorCalloc` are a raw request and, later, a registration under `s_mutexForMap`;
`TestOperatorDelete` is a lookup, a decision and a change of status under that lock and, later, a raw
`freen`; `TestOperatorReAlloc` is one locked step. Between the two steps of a thread the others may
take any number of steps. `m_stackItems` is left out, `m_memoryItems` is a finite map, and every
callback answers `DoNotMakeActionToPreventCrash`, so that a report has no further effect.
-/

namespace CrashInvestigator.Detection

open Tracker

/-- `m_memoryItems`. -/
abbrev MemoryItems := Finmap fun _ : Addr => SMemoryItem

/-- What a thread has still to do after its last step. -/
inductive Pending where
  | idle
  /-- `AddNewAllocatedMemoryAndCleanOldEntry` waits for the lock. -/
  | addNewAllocatedMemory (memoryType : MemoryType) (ptr : Addr) (backtrace : BacktracePtr)
  /-- `TestOperatorDelete` has left the lock with this `pToDelete`. -/
  | freen (pToDelete : Addr)
  deriving DecidableEq

/-- The address a thread is about to register or to free. -/
def Pending.address : Pending → Option Addr
  | .idle => none
  | .addNewAllocatedMemory _ ptr _ => some ptr
  | .freen pToDelete => some pToDelete

/-- The table, the live blocks of the raw allocator, and what every thread has still to do. -/
structure State (θ : Type*) where
  memoryItems : MemoryItems
  live : Finset Addr
  pending : θ → Pending

/-- No block was issued and no thread is inside a routine. -/
def State.init {θ : Type*} : State θ where
  memoryItems := ∅
  live := ∅
  pending := fun _ => .idle

/-- What the raw allocator and the stack capture answer during a step. -/
structure Answers where
  raw : Addr
  backtrace : BacktracePtr

/-- A thread enters a routine, or goes on with the one it is in. -/
inductive Action (θ : Type*) where
  | enter (thread : θ) (c : Call) (answers : Answers)
  | resume (thread : θ)

/-- What a step does outside the table. -/
inductive Output where
  | nothing
  | mallocn (answer : Addr)
  /-- The table has got a record for a block that is now handed to the program. -/
  | registered (memoryType : MemoryType) (ptr : Addr)
  /-- The record of `ptr` is marked `Deallocated`; `pToDelete` will be freed. -/
  | released (ptr pToDelete : Addr)
  | freen (ptr : Addr)
  /-- Raw `reallocn` of `realAddress` for a call on `ptr`. -/
  | reallocn (ptr realAddress answer : Addr)
  /-- `InitFailureDataAndCallClbk` with a copy of the record. -/
  | report (failureType : FailureType) (item : SMemoryItem) (failureAddress : Addr) (count : ℕ)
  /-- `ptr` has no record and is passed to the early pool or to libc. -/
  | untracked (ptr : Addr)
  deriving DecidableEq

section Routines

variable {θ : Type*} [DecidableEq θ]

/-- The next step of thread `i`. -/
def State.await (st : State θ) (i : θ) (p : Pending) : State θ :=
  { st with pending := Function.update st.pending i p }

/-- `AddNewAllocatedMemoryAndCleanOldEntryNoLock` on the table: the record is added or replaced. -/
def addNewAllocatedMemoryAndCleanOldEntryNoLock (memoryItems : MemoryItems)
    (memoryType : MemoryType) (ptr : Addr) (backtrace : BacktracePtr) : MemoryItems :=
  memoryItems.insert ptr ⟨memoryType, .allocated, ptr, backtrace, none⟩

/-- `TestOperatorAlloc` up to the lock. A size of zero and a failed request return at once. -/
def testOperatorAlloc (st : State θ) (i : θ) (count : ℕ) (memoryType : MemoryType)
    (ans : Answers) : State θ × Output :=
  if count = 0 then (st, .nothing)
  else if ans.raw = 0 then (st, .nothing)
  else
    ({ st with live := insert ans.raw st.live }.await i
      (.addNewAllocatedMemory memoryType ans.raw ans.backtrace), .mallocn ans.raw)

/-- `TestOperatorCalloc` up to the lock. -/
def testOperatorCalloc (st : State θ) (i : θ) (nmemb size : ℕ) (ans : Answers) :
    State θ × Output :=
  if nmemb * size % sizeModulus = 0 then (st, .nothing)
  else if ans.raw = 0 then (st, .nothing)
  else
    ({ st with live := insert ans.raw st.live }.await i
      (.addNewAllocatedMemory .malloc ans.raw ans.backtrace), .mallocn ans.raw)

/-- `TestOperatorDelete` up to the end of the lock. -/
def testOperatorDelete (st : State θ) (i : θ) (ptr : Addr) (typeExpected : MemoryType)
    (ans : Answers) : State θ × Output :=
  if ptr = 0 then (st, .nothing)
  else
    match st.memoryItems.lookup ptr with
    | none => (st, .untracked ptr)
    | some item =>
      if item.status ≠ .allocated then (st, .report .doubleFree item ptr 0)
      else if item.type ≠ typeExpected then (st, .report .freeMissmatch item ptr 0)
      else
        let released : SMemoryItem :=
          { item with status := .deallocated, deallocTrace := ans.backtrace }
        ({ st with memoryItems := st.memoryItems.insert ptr released }.await i
          (.freen item.realAddress), .released ptr item.realAddress)

/-- `TestOperatorReAlloc`: another routine's step, or a single locked one. -/
def testOperatorReAlloc (st : State θ) (i : θ) (ptr : Addr) (count : ℕ) (ans : Answers) :
    State θ × Output :=
  if ptr = 0 then testOperatorAlloc st i count .malloc ans
  else if count = 0 then testOperatorDelete st i ptr .malloc ans
  else
    match st.memoryItems.lookup ptr with
    | none => (st, .untracked ptr)
    | some item =>
      if item.type ≠ .malloc then
        (st, .report .badReallocCreatedByWrongAlloc item ptr count)
      else if item.status ≠ .allocated then (st, .report .badReallocDeletedMem item ptr count)
      else
        let live := if ans.raw = 0 then st.live
          else insert ans.raw (st.live.erase item.realAddress)
        let output := Output.reallocn ptr item.realAddress ans.raw
        if ans.raw = ptr then ({ st with live := live }, output)
        else
          let moved : SMemoryItem := { item with status := .duringReallocChanged }
          let memoryItems := addNewAllocatedMemoryAndCleanOldEntryNoLock
            (st.memoryItems.insert ptr moved) .malloc ans.raw ans.backtrace
          ({ st with live := live, memoryItems := memoryItems }, output)

/-- The step of a thread that is outside all routines. -/
def enter (st : State θ) (i : θ) (ans : Answers) : Call → State θ × Output
  | .alloc count memoryType _ => testOperatorAlloc st i count memoryType ans
  | .calloc nmemb size => testOperatorCalloc st i nmemb size ans
  | .reAlloc ptr count => testOperatorReAlloc st i ptr count ans
  | .delete ptr typeExpected => testOperatorDelete st i ptr typeExpected ans
  | .setMaxAllowedAllocInTheSameStack _ => (st, .nothing)

/-- The step of a thread that is inside a routine. -/
def resume (st : State θ) (i : θ) : State θ × Output :=
  match st.pending i with
  | .idle => (st, .nothing)
  | .addNewAllocatedMemory memoryType ptr backtrace =>
    let memoryItems :=
      addNewAllocatedMemoryAndCleanOldEntryNoLock st.memoryItems memoryType ptr backtrace
    ({ st with memoryItems := memoryItems }.await i .idle, .registered memoryType ptr)
  | .freen pToDelete =>
    ({ st with live := st.live.erase pToDelete }.await i .idle, .freen pToDelete)

/-- One step of the system. -/
def act (st : State θ) : Action θ → State θ × Output
  | .enter i c ans => enter st i ans c
  | .resume i => resume st i

end Routines

end CrashInvestigator.Detection
