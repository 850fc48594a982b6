import CrashInvestigator.HashItems.Entries
import CrashInvestigator.Reentry.Routines

/-!
# The routines over the real tables

`TestOperatorAlloc`, `TestOperatorDelete`, the constructor and the destructor of
`CrashInvestAnalizerInit` on the two `HashItemsByPtr` tables themselves, with their bucket heads and
links. Every read of an `Item` and every use of a `Backtrace` is checked, and one that was freed
ends the routine with a `Misuse`. `std::mutex` and the signal handler are left out.
-/

namespace CrashInvestigator.Lifetime

open HashItems
open Tracker (Addr Backtrace BacktracePtr CMemoryItem FailureAction FailureData FailureType
  MemoryType Outcome Process SMemoryItem TraceHeap initBacktraceDataForCurrentStack isTheSameStack)
open Reentry (convertedStacks)

/-- What must not happen: a fault of a table, or the use of a `Backtrace` that was freed. -/
inductive Misuse where
  | item (f : Fault)
  | backtrace
  deriving DecidableEq, Repr

/-- A key of `m_stackItems`: the pointer, and the frames of the object it points to. -/
structure StackKey where
  trace : ℕ
  stack : Backtrace
  deriving DecidableEq, Repr

/-- `HashOfTheStack`, in the arithmetic of `size_t`. -/
def hashOfTheStack (stack : Backtrace) : UInt64 :=
  (stack.ppBuffer.foldl
    (fun (a : UInt64 × UInt64) frame => (a.1 + UInt64.ofNat frame * a.2, a.2 * 1000)) (0, 1)).1

/-- `BackTrcHasher`. -/
instance : Hashable StackKey := ⟨fun k => hashOfTheStack k.stack⟩

/-- `BackTrcEql`. -/
instance : BEq StackKey := ⟨fun k k' => isTheSameStack k.stack k'.stack⟩

/-- `s_crashInvestAnalizerInit`, the globals of its file, and what belongs to the thread. -/
structure State where
  memoryItems : Session Addr SMemoryItem
  stackItems : Session StackKey ℕ
  unMaxNumberOfAllocFromTheSameStack : ℕ
  bIsAllocingOrDeallocing : Bool
  traces : TraceHeap
  /-- The `deallocTrace` of the thread's `CMemoryItem`. -/
  handlerTrace : BacktracePtr
  ndebug : Bool
  process : Process

/-- Static storage is zero before any constructor runs. -/
def State.init (ndebug : Bool) : State where
  memoryItems := .init
  stackItems := .init
  unMaxNumberOfAllocFromTheSameStack := 10
  bIsAllocingOrDeallocing := false
  traces := .empty
  handlerTrace := none
  ndebug := ndebug
  process := .running

/-- What code outside the file answers during one call. An `InScopeCleaner` runs its function once. -/
structure Env where
  /-- The result of the raw request for the program's block. -/
  raw : Addr
  /-- The captured stack, `none` when `InitBacktraceDataForCurrentStack` returns null. -/
  stack : Option Backtrace
  /-- The results of `mallocn(sizeof(Item))`, for each of the two tables. -/
  memoryItem : Option ℕ
  stackItem : Option ℕ
  clbkFnc : FailureData → FailureAction
  userData : Addr
  /-- The result of `SystemSpecificLibInitialDealloc`. -/
  initialDealloc : Bool
  /-- Whether `m_handlerMemory.get()` answers the item that was stored last. -/
  handlerMemory : Bool
  /-- Whether `backtrace_symbols` succeeds for an object. -/
  backtraceSymbols : ℕ → Bool := fun _ => true

inductive Event where
  | mallocn (count : ℕ) (answer : Addr)
  | freen (ptr : Addr)
  | systemSpecificLibInitialDealloc (ptr : Addr) (answer : Bool)
  | systemSpecificGlibcDealloc (ptr : Addr)
  | clbkFnc (data : FailureData) (answer : FailureAction)
  deriving DecidableEq

/-- The result of a call. -/
structure Res where
  st : State
  out : Outcome
  events : List Event

/-- The call ends the process. -/
def State.ends (s : State) (p : Process) (events : List Event) : Res :=
  ⟨{ s with process := p }, .processEnds, events⟩

/-! ## Checked uses -/

/-- An access to the items of a table. -/
def checked {α : Type*} : Except Fault α → Except Misuse α
  | .ok a => .ok a
  | .error f => .error (.item f)

/-- `FreeBacktraceData` of an object that was not freed. -/
def freeBacktraceData (h : TraceHeap) : BacktracePtr → Except Misuse TraceHeap
  | none => .ok h
  | some t => if h.frees t = 0 then .ok (Tracker.freeBacktraceData h (some t)) else .error .backtrace

/-- The contents of an object that was not freed. -/
def readBacktrace (h : TraceHeap) (t : ℕ) : Except Misuse StackKey :=
  if h.frees t = 0 then .ok ⟨t, h.data t⟩ else .error .backtrace

/-- `ConvertBacktraceToNames` for each of some stacks. -/
def convertBacktraces (h : TraceHeap) : List BacktracePtr → Except Misuse Unit
  | [] => .ok ()
  | none :: ts => convertBacktraces h ts
  | some t :: ts => do
    let _ ← readBacktrace h t
    convertBacktraces h ts

section Tables

variable {κ ν : Type*}

/-- `iter->second`. -/
def second (s : Session κ ν) (iter : ℕ) : Except Misuse ν :=
  checked ((s.table.read iter).map Item.second)

/-- A change of a table. -/
def perform [BEq κ] [Hashable κ] (s : Session κ ν) (op : Op κ ν) : Except Misuse (Session κ ν) :=
  match (HashItems.step s op).fault with
  | none => .ok (HashItems.step s op)
  | some f => .error (.item f)

/-- The destructor of a table. The heads of the buckets and `m_pFirstItem` stay as they are. -/
def destroy (s : Session κ ν) : Except Misuse (Session κ ν) := do
  let r ← checked (s.table.destroy (s.entries.length + 1) s.table.pFirstItem)
  .ok { s with table := r.1, entries := [] }

end Tables

/-- `m_memoryItems.FindEntry(a_ptr,&unHash)`. -/
def State.findMemoryItem (s : State) (ptr : Addr) : Except Misuse (Option ℕ × ℕ) :=
  checked (s.memoryItems.table.findEntry (s.memoryItems.entries.length + 1) ptr)

/-- The loop of `FindEntryRaw` on `m_stackItems`: `BackTrcEql` reads the key of each item. -/
def walkStackItems (h : TraceHeap) (t : Table StackKey ℕ) (a_key : StackKey) :
    ℕ → Option ℕ → Except Misuse (Option ℕ)
  | 0, _ => .error (.item .walkDoesNotEnd)
  | _ + 1, none => .ok none
  | fuel + 1, some pItem =>
    match t.items pItem with
    | none => .error (.item .useAfterFree)
    | some item => do
      let _ ← readBacktrace h item.first.trace
      if item.first == a_key then .ok (some pItem) else walkStackItems h t a_key fuel item.next

/-- `m_stackItems.FindEntry(a_pBacktrace,&unHash)`, with the key instead of its hash. -/
def State.findStackItem (s : State) (t : ℕ) : Except Misuse (Option ℕ × StackKey) := do
  let a_key ← readBacktrace s.traces t
  let iter ← walkStackItems s.traces s.stackItems.table a_key (s.stackItems.entries.length + 1)
    (s.stackItems.table.ppItems (unSize a_key))
  .ok (iter, a_key)

/-! ## Reports -/

/-- The state of the tracker model, whose tables are entry lists. -/
def State.abs (s : State) : Tracker.State where
  memoryItems := s.memoryItems.entries.map fun e => (e.key, e.value)
  stackItems := s.stackItems.entries.map fun e => (e.key.trace, e.value)
  unMaxNumberOfAllocFromTheSameStack := s.unMaxNumberOfAllocFromTheSameStack
  bIsAllocingOrDeallocing := s.bIsAllocingOrDeallocing
  traces := s.traces
  live := ∅
  ndebug := s.ndebug
  process := s.process

/-- The answers in the terms of the tracker model. -/
def Env.abs (env : Env) (handlerTrace : BacktracePtr) : Tracker.Env where
  raw := env.raw
  stack := env.stack
  memoryItem := env.memoryItem.isSome
  stackItem := env.stackItem.isSome
  clbkFnc := env.clbkFnc
  userData := env.userData
  initialDealloc := env.initialDealloc
  initialRealloc := none
  handlerMemory :=
    if env.handlerMemory then some { CMemoryItem.default with deallocTrace := handlerTrace }
    else none
  inScopeCleanerRuns := 1
  backtraceSymbols := env.backtraceSymbols

/-- `InitFailureDataAndCallClbk`, for the kinds of failure that these routines report: the
`MakeAction` of each of them is a `freen`. -/
def initFailureDataAndCallClbk (s : State) (env : Env) (item : SMemoryItem) (freeType : MemoryType)
    (failureAddress : Addr) (failureType : FailureType) (analizeTrace : BacktracePtr) :
    Except Misuse Res := do
  convertBacktraces s.traces (convertedStacks item analizeTrace failureType)
  let data := Tracker.failureData s.abs (env.abs s.handlerTrace) item freeType failureAddress 0
    failureType analizeTrace
  let clbkRet := env.clbkFnc data
  match clbkRet with
  | .makeAction => do
    let traces ← freeBacktraceData s.traces analizeTrace
    .ok ⟨{ s with traces := traces }, .returns 0, [.clbkFnc data clbkRet, .freen failureAddress]⟩
  | .doNotMakeActionToPreventCrash => do
    let traces ← freeBacktraceData s.traces analizeTrace
    .ok ⟨{ s with traces := traces }, .returns 0, [.clbkFnc data clbkRet]⟩
  | _ => .ok (s.ends (.exited 1) [.clbkFnc data clbkRet])

/-! ## Registration -/

/-- The first half of `AddNewAllocatedMemoryAndCleanOldEntryNoLock`, `none` when the table cannot
grow. -/
def registerMemoryItem (s : State) (env : Env) (ptr : Addr) (item : SMemoryItem) :
    Except Misuse (Option State) := do
  let found ← s.findMemoryItem ptr
  match found.1 with
  | none =>
    match env.memoryItem with
    | none => .ok none
    | some pItem => do
      let memoryItems ← perform s.memoryItems
        (.addEntryWithKnownHash ptr found.2 item (some pItem))
      .ok (some { s with memoryItems := memoryItems })
  | some iter => do
    let old ← second s.memoryItems iter
    let traces ← freeBacktraceData s.traces old.deallocTrace
    let traces ← freeBacktraceData traces old.allocTrace
    let memoryItems ← perform s.memoryItems (.setSecond iter item)
    .ok (some { s with memoryItems := memoryItems, traces := traces })

/-- The second half. -/
def registerStackItem (s : State) (env : Env) (item : SMemoryItem) (ptr : Addr) :
    BacktracePtr → Except Misuse Res
  | none => .ok (s.ends .crashed [])  -- `HashOfTheStack` dereferences the null pointer
  | some t => do
    let found ← s.findStackItem t
    match found.1 with
    | none =>
      match env.stackItem with
      | none => .ok ⟨s, .throwsBadAlloc, []⟩
      | some pItem => do
        let stackItems ← perform s.stackItems
          (.addEntryWithKnownHash found.2 (unSize found.2) 1 (some pItem))
        .ok ⟨{ s with stackItems := stackItems }, .returns ptr, []⟩
    | some iter =>
      if 0 < s.unMaxNumberOfAllocFromTheSameStack then do
        let n ← second s.stackItems iter
        let stackItems ← perform s.stackItems (.setSecond iter (n + 1))
        let s₁ : State := { s with stackItems := stackItems }
        if s.unMaxNumberOfAllocFromTheSameStack < n + 1 then do
          let r ← initFailureDataAndCallClbk s₁ env item item.type ptr .possibilityOfMemoryLeak
            (some t)
          .ok (if r.st.process = .running then ⟨r.st, .returns ptr, r.events⟩ else r)
        else .ok ⟨s₁, .returns ptr, []⟩
      else .ok ⟨s, .returns ptr, []⟩

/-- `AddNewAllocatedMemoryAndCleanOldEntry`. -/
def addNewAllocatedMemoryAndCleanOldEntry (s : State) (env : Env) (memoryType : MemoryType)
    (ptr : Addr) : Except Misuse Res := do
  let c := initBacktraceDataForCurrentStack s.traces env.stack
  let s₀ : State := { s with traces := c.1 }
  let item : SMemoryItem := ⟨memoryType, .allocated, ptr, c.2, none⟩
  let registered ← registerMemoryItem s₀ env ptr item
  match registered with
  | none => .ok ⟨s₀, .throwsBadAlloc, []⟩
  | some s₁ => registerStackItem s₁ env item ptr c.2

/-- The removal of a record's stack in `TestOperatorDelete`. -/
def removeCorrespondingTrace (s : State) : BacktracePtr → Except Misuse (Except Process State)
  | none => .ok (.error .crashed)
  | some t => do
    let found ← s.findStackItem t
    match found.1 with
    | none => .ok (.error (if s.ndebug then .crashed else .aborted))
    | some iter => do
      let n ← second s.stackItems iter
      if s.ndebug then
        if n = 0 then do
          let stackItems ← perform s.stackItems (.removeEntry (some iter))
          .ok (.ok { s with stackItems := stackItems })
        else .ok (.ok s)
      else if n = 0 then .ok (.error .aborted)
      else if n - 1 = 0 then do
        let stackItems ← perform s.stackItems (.removeEntry (some iter))
        .ok (.ok { s with stackItems := stackItems })
      else do
        let stackItems ← perform s.stackItems (.setSecond iter (n - 1))
        .ok (.ok { s with stackItems := stackItems })

/-! ## The exported routines -/

/-- The end of `TestOperatorDelete` for an address without a record: `CMemoryItem::Init` frees the
trace that the thread's item held. -/
def deleteUntracked (s : State) (env : Env) (ptr : Addr) (analizeTrace : BacktracePtr) :
    Except Misuse Res :=
  let asked := Event.systemSpecificLibInitialDealloc ptr env.initialDealloc
  if env.initialDealloc then .ok ⟨s, .returns 0, [asked]⟩
  else do
    let traces ← freeBacktraceData s.traces (if env.handlerMemory then s.handlerTrace else none)
    .ok ⟨{ s with traces := traces, handlerTrace := analizeTrace }, .returns 0,
      [asked, .systemSpecificGlibcDealloc ptr]⟩

/-- `TestOperatorDelete`. -/
def testOperatorDelete (s : State) (env : Env) (ptr : Addr) (typeExpected : MemoryType) :
    Except Misuse Res :=
  if ptr = 0 then .ok ⟨s, .returns 0, []⟩
  else if s.bIsAllocingOrDeallocing then .ok ⟨s, .returns 0, [.freen ptr]⟩
  else do
    let c := initBacktraceDataForCurrentStack s.traces env.stack
    let s₀ : State := { s with traces := c.1 }
    let found ← s₀.findMemoryItem ptr
    match found.1 with
    | none => deleteUntracked s₀ env ptr c.2
    | some iter => do
      let item ← second s₀.memoryItems iter
      if item.status ≠ .allocated then
        initFailureDataAndCallClbk s₀ env item .notProvided ptr .doubleFree c.2
      else
        let removed ← removeCorrespondingTrace s₀ item.allocTrace
        match removed with
        | .error p => .ok (s₀.ends p [])
        | .ok s₁ =>
          if item.type ≠ typeExpected then
            initFailureDataAndCallClbk s₁ env item .notProvided ptr .freeMissmatch c.2
          else do
            let memoryItems ← perform s₁.memoryItems
              (.setSecond iter { item with status := .deallocated, deallocTrace := c.2 })
            .ok ⟨{ s₁ with memoryItems := memoryItems }, .returns 0, [.freen item.realAddress]⟩

/-- `CRASH_INVEST_ANALIZE_COUNT_0` and the null check after a raw request. -/
def nullOrThrow (s : State) (bThrow : Bool) (events : List Event) : Res :=
  ⟨s, if bThrow then .throwsBadAlloc else .returns 0, events⟩

/-- `TestOperatorAlloc`. -/
def testOperatorAlloc (s : State) (env : Env) (count : ℕ) (memoryType : MemoryType)
    (bThrow : Bool) : Except Misuse Res :=
  if s.bIsAllocingOrDeallocing then .ok ⟨s, .returns env.raw, [.mallocn count env.raw]⟩
  else if count = 0 then .ok (nullOrThrow s bThrow [])
  else if env.raw = 0 then .ok (nullOrThrow s bThrow [.mallocn count 0])
  else do
    let r ← addNewAllocatedMemoryAndCleanOldEntry s env memoryType env.raw
    .ok { r with events := .mallocn count env.raw :: r.events }

/-- The calls of `malloc` and `new`, and of `free` and `delete`. -/
inductive Call where
  | alloc (count : ℕ) (memoryType : MemoryType) (bThrow : Bool)
  | delete (ptr : Addr) (typeExpected : MemoryType)
  deriving DecidableEq, Repr

def call (s : State) (env : Env) : Call → Except Misuse Res
  | .alloc count memoryType bThrow => testOperatorAlloc s env count memoryType bThrow
  | .delete ptr typeExpected => testOperatorDelete s env ptr typeExpected

/-! ## Construction and destruction -/

/-- The constructor: those of the two tables set all heads to null, and nothing leads any more to an
item that was added before. -/
def State.construct (s : State) : State := { s with memoryItems := .init, stackItems := .init }

/-- The loop over the records in `~CrashInvestAnalizerInit`. -/
def freeRecordTraces (memoryItems : Session Addr SMemoryItem) :
    List ℕ → TraceHeap → Except Misuse TraceHeap
  | [], h => .ok h
  | iter :: iters, h => do
    let item ← second memoryItems iter
    let h₁ ← freeBacktraceData h item.deallocTrace
    let h₂ ← freeBacktraceData h₁ item.allocTrace
    freeRecordTraces memoryItems iters h₂

/-- The destructor, and those of the members in the reverse order of their declaration. -/
def State.destruct (s : State) : Except Misuse State := do
  let iters ← checked (s.memoryItems.table.iterate (s.memoryItems.entries.length + 1)
    s.memoryItems.table.begin)
  let traces ← freeRecordTraces s.memoryItems iters s.traces
  let stackItems ← destroy s.stackItems
  let memoryItems ← destroy s.memoryItems
  .ok { s with traces := traces, stackItems := stackItems, memoryItems := memoryItems }

end CrashInvestigator.Lifetime
