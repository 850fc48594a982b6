import CrashInvestigator.Library.Entries
import CrashInvestigator.Tracker.Backtrace
import Mathlib.Data.Finset.Basic

/-!
# State of the tracker

The data of `crash_investigator_alloc_dealloc_analyze.cpp`: the table of memory items, the table of
stacks, the leak threshold and the nesting flag, with the objects behind the pointers (`TraceHeap`)
and the blocks of the program that are live in the raw allocator. The two `HashItemsByPtr` tables
are entry lists searched with the key equality of their instantiation, newest entry first.

Everything a call asks of code outside the file (raw allocator, stack capture, user callback, pool,
thread-local storage, scope cleaner) is an answer in its `Env`.
-/

namespace CrashInvestigator.Tracker

open Library

/-- A machine address; `0` is the null pointer. -/
abbrev Addr := ℕ

/-- `sizeof(size_t)` is 8: sizes are computed modulo `2 ^ 64`. -/
def sizeModulus : ℕ := 2 ^ 64

inductive MemoryType where
  | notProvided
  | new
  | newArr
  | malloc
  deriving DecidableEq, Repr

inductive MemoryStatus where
  | doesNotExistAtAll
  | allocated
  | deallocated
  deriving DecidableEq, Repr

/-- `DuringReallocChanged` has the value of `Deallocated`. -/
def MemoryStatus.duringReallocChanged : MemoryStatus := .deallocated

inductive FailureAction where
  | unknown
  | makeAction
  | doNotMakeActionToPreventCrash
  | exitApp
  deriving DecidableEq, Repr

inductive FailureType where
  | unknown
  | deallocOfNonExistingMemory
  | doubleFree
  | badReallocMemNotExist
  | badReallocDeletedMem
  | badReallocCreatedByWrongAlloc
  | freeMissmatch
  | possibilityOfMemoryLeak
  | sigSegvHandler
  deriving DecidableEq, Repr

/-- A record of `m_memoryItems`. -/
structure SMemoryItem where
  type : MemoryType
  status : MemoryStatus
  realAddress : Addr
  allocTrace : BacktracePtr
  deallocTrace : BacktracePtr
  deriving DecidableEq, Repr

/-- The note left for the signal handler before an untracked address is handed to libc. -/
structure CMemoryItem extends SMemoryItem where
  failureType : FailureType
  count : ℕ
  deriving DecidableEq, Repr

/-- What a failure callback is given. A stack is the list of its frame addresses. -/
structure FailureData where
  failureType : FailureType
  allocType : MemoryType
  freeType : MemoryType
  reserved01 : ℕ
  clbkData : Addr
  failureAddress : Addr
  badReallocSecondArg : ℕ
  stackAlloc : List ℕ
  stackFree : List ℕ
  analizeStack : List ℕ
  deriving DecidableEq, Repr

/-- Whether the traced process still runs. -/
inductive Process where
  | running
  | exited (code : ℕ)
  | aborted
  | crashed
  deriving DecidableEq, Repr

/-- The global state. `live` holds the blocks that raw requests made for the program and that were
not released; the tool's own raw blocks are not in it. -/
structure State where
  memoryItems : List (Addr × SMemoryItem)
  stackItems : List (ℕ × ℕ)
  unMaxNumberOfAllocFromTheSameStack : ℕ
  /-- `s_bIsAllocingOrDeallocing` of the calling thread. -/
  bIsAllocingOrDeallocing : Bool
  traces : TraceHeap
  live : Finset Addr
  /-- Whether the file was compiled with `NDEBUG`; no call changes it. -/
  ndebug : Bool
  process : Process

/-- The state at the start of `main`. -/
def State.init : State where
  memoryItems := []
  stackItems := []
  unMaxNumberOfAllocFromTheSameStack := 10
  bIsAllocingOrDeallocing := false
  traces := .empty
  live := ∅
  ndebug := false
  process := .running

/-- The answers that code outside the file gives during one call. -/
structure Env where
  /-- The result of the raw request for the program's block (`0` when it fails). -/
  raw : Addr
  /-- The captured stack, `none` when `InitBacktraceDataForCurrentStack` returns null. -/
  stack : Option Backtrace
  /-- Whether `mallocn(sizeof(Item))` succeeds when `m_memoryItems` grows. -/
  memoryItem : Bool
  /-- Whether `mallocn(sizeof(Item))` succeeds when `m_stackItems` grows. -/
  stackItem : Bool
  /-- `s_clbkData.clbkFnc`. -/
  clbkFnc : FailureData → FailureAction
  /-- `s_clbkData.userData`. -/
  userData : Addr
  /-- The result of `SystemSpecificLibInitialDealloc`. -/
  initialDealloc : Bool
  /-- The block `SystemSpecificLibInitialRealloc` answers with, when it accepts the address. -/
  initialRealloc : Option Addr
  /-- The result of `m_handlerMemory.get()`. -/
  handlerMemory : Option CMemoryItem
  /-- How often an `InScopeCleaner` runs its function when its scope is left by a return. -/
  inScopeCleanerRuns : ℕ
  /-- Whether `backtrace_symbols` succeeds for an object. -/
  backtraceSymbols : ℕ → Bool := fun _ => true

/-- What a call does outside the tables, in order. -/
inductive Event where
  | mallocn (count : ℕ) (answer : Addr)
  | callocn (nmemb size : ℕ) (answer : Addr)
  | reallocn (ptr : Addr) (count : ℕ) (answer : Addr)
  | freen (ptr : Addr)
  | systemSpecificGlibcRealloc (ptr : Addr) (count : ℕ) (answer : Addr)
  | systemSpecificGlibcDealloc (ptr : Addr)
  | handlerMemoryInit (item : CMemoryItem)
  | clbkFnc (data : FailureData) (answer : FailureAction)
  deriving DecidableEq

inductive Outcome where
  | returns (ptr : Addr)
  | throwsBadAlloc
  | processEnds
  deriving DecidableEq, Repr

/-- The result of a call. -/
structure Res where
  st : State
  out : Outcome
  events : List Event

/-! ## The two tables -/

/-- `m_memoryItems.FindEntry(a_ptr, _)`. -/
def State.findMemoryItem (st : State) (ptr : Addr) : Option SMemoryItem :=
  Entries.lookup (fun k => decide (k = ptr)) st.memoryItems

/-- Assignment through the iterator that `FindEntry(a_ptr, _)` returned. -/
def State.setMemoryItem (st : State) (ptr : Addr) (item : SMemoryItem) : State :=
  { st with memoryItems := Entries.setFirst (fun k => decide (k = ptr)) item st.memoryItems }

/-- The key test of `m_stackItems.FindEntry(t, _)`. -/
def TraceHeap.sameStackAs (h : TraceHeap) (t : ℕ) : ℕ → Bool :=
  fun k => isTheSameStack (h.data k) (h.data t)

/-- `m_stackItems.FindEntry(t, _)`. -/
def State.findStackItem (st : State) (t : ℕ) : Option (ℕ × ℕ) :=
  Entries.findEntry (st.traces.sameStackAs t) st.stackItems

/-- Assignment through the iterator that `m_stackItems.FindEntry(t, _)` returned. -/
def State.setStackItem (st : State) (t second : ℕ) : State :=
  { st with stackItems := Entries.setFirst (st.traces.sameStackAs t) second st.stackItems }

/-- `m_stackItems.RemoveEntry` of the iterator that `FindEntry(t, _)` returned. -/
def State.removeStackItem (st : State) (t : ℕ) : State :=
  { st with stackItems := Entries.removeFirst (st.traces.sameStackAs t) st.stackItems }

/-! ## Raw allocator -/

/-- `freen` on a block of the program. -/
def State.freen (st : State) (ptr : Addr) : State := { st with live := st.live.erase ptr }

/-- `mallocn` or `callocn` for the program; the null answer allocates nothing. -/
def State.mallocn (st : State) (answer : Addr) : State :=
  if answer = 0 then st else { st with live := insert answer st.live }

/-- `reallocn`: the null answer leaves the old block valid. -/
def State.reallocn (st : State) (ptr answer : Addr) : State :=
  if answer = 0 then st else { st with live := insert answer (st.live.erase ptr) }

end CrashInvestigator.Tracker
