import CrashInvestigator.Library.Runs
import CrashInvestigator.Tracker.State

/-!
# The tracked operations

The bodies of `InitFailureDataAndCallClbk`, `AddNewAllocatedMemoryAndCleanOldEntryNoLock`,
`TestOperatorDelete`, `TestOperatorAlloc`, `TestOperatorCalloc` and `TestOperatorReAlloc`, as
functions from a state and the answers of the environment to a result. An assertion that fails ends
the process unless `ndebug` is set, and then its expression is not evaluated at all.
-/

namespace CrashInvestigator.Tracker

open Library

/-- The call ends the process. -/
def State.ends (st : State) (p : Process) (events : List Event) : Res :=
  ⟨{ st with process := p }, .processEnds, events⟩

/-! ## Reports -/

/-- The stack that `ConvertBacktraceToNames` leaves in a report, empty when `backtrace_symbols` fails. -/
def Env.names (env : Env) (h : TraceHeap) : BacktracePtr → List ℕ
  | none => []
  | some t => if env.backtraceSymbols t then convertBacktraceToNames h (some t) else []

/-- The `FailureData` that `InitFailureDataAndCallClbk` assembles for each kind of failure. -/
def failureData (st : State) (env : Env) (item : SMemoryItem) (freeType : MemoryType)
    (failureAddress : Addr) (count : ℕ) (failureType : FailureType) (analizeTrace : BacktracePtr) :
    FailureData where
  failureType := failureType
  allocType :=
    match failureType with
    | .deallocOfNonExistingMemory | .badReallocMemNotExist => .notProvided
    | _ => item.type
  freeType :=
    match failureType with
    | .badReallocMemNotExist | .badReallocCreatedByWrongAlloc => .notProvided
    | _ => freeType
  reserved01 := 0
  clbkData := env.userData
  failureAddress := failureAddress
  badReallocSecondArg :=
    match failureType with
    | .badReallocMemNotExist | .badReallocDeletedMem | .badReallocCreatedByWrongAlloc => count
    | _ => 0
  stackAlloc :=
    match failureType with
    | .doubleFree | .badReallocDeletedMem | .badReallocCreatedByWrongAlloc | .freeMissmatch
    | .possibilityOfMemoryLeak => env.names st.traces item.allocTrace
    | _ => []
  stackFree :=
    match failureType with
    | .doubleFree | .badReallocDeletedMem => env.names st.traces item.deallocTrace
    | _ => []
  analizeStack :=
    match failureType with
    | .possibilityOfMemoryLeak => []
    | _ => env.names st.traces analizeTrace

/-- The failure kinds whose `MakeAction` is a `reallocn`; that of the others is a `freen`. -/
def FailureType.actionIsRealloc : FailureType → Bool
  | .badReallocMemNotExist | .badReallocDeletedMem | .badReallocCreatedByWrongAlloc => true
  | _ => false

/-- `aCleaner` of `InitFailureDataAndCallClbk`: the analysis trace is freed when the scope is left. -/
def State.leaveScope (st : State) (env : Env) (analizeTrace : BacktracePtr) : State :=
  { st with traces := (fun h => freeBacktraceData h analizeTrace)^[env.inScopeCleanerRuns] st.traces }

/-- `InitFailureDataAndCallClbk`. -/
def initFailureDataAndCallClbk (st : State) (env : Env) (item : SMemoryItem) (freeType : MemoryType)
    (failureAddress : Addr) (count : ℕ) (failureType : FailureType) (analizeTrace : BacktracePtr) :
    Res :=
  match failureType with
  | .unknown =>
    if st.ndebug then ⟨st.leaveScope env analizeTrace, .returns 0, []⟩ else st.ends .aborted []
  | _ =>
    let data := failureData st env item freeType failureAddress count failureType analizeTrace
    let clbkRet := env.clbkFnc data
    match clbkRet with
    | .makeAction =>
      if failureType.actionIsRealloc then
        ⟨(st.reallocn failureAddress env.raw).leaveScope env analizeTrace, .returns env.raw,
          [.clbkFnc data clbkRet, .reallocn failureAddress count env.raw]⟩
      else
        ⟨(st.freen failureAddress).leaveScope env analizeTrace, .returns 0,
          [.clbkFnc data clbkRet, .freen failureAddress]⟩
    | .doNotMakeActionToPreventCrash =>
      ⟨st.leaveScope env analizeTrace, .returns 0, [.clbkFnc data clbkRet]⟩
    | _ => st.ends (.exited 1) [.clbkFnc data clbkRet]

/-! ## Registration -/

/-- The first half of `AddNewAllocatedMemoryAndCleanOldEntryNoLock`: the record of `ptr` is added or
replaced, and the traces of a replaced record are freed. `none` when the table cannot grow. -/
def registerMemoryItem (st : State) (env : Env) (ptr : Addr) (item : SMemoryItem) : Option State :=
  match st.findMemoryItem ptr with
  | none =>
    if env.memoryItem then some { st with memoryItems := (ptr, item) :: st.memoryItems } else none
  | some old =>
    let traces := freeBacktraceData (freeBacktraceData st.traces old.deallocTrace) old.allocTrace
    some ({ st with traces := traces }.setMemoryItem ptr item)

/-- The second half: the block is counted under its stack. The counter is incremented inside the
short-circuit test of the threshold, so not at all when the threshold is `0`. -/
def registerStackItem (st : State) (env : Env) (item : SMemoryItem) (ptr : Addr)
    (backtrace : BacktracePtr) : Res :=
  match backtrace with
  | none => st.ends .crashed []  -- `HashOfTheStack` dereferences the null pointer
  | some t =>
    match st.findStackItem t with
    | none =>
      if env.stackItem then ⟨{ st with stackItems := (t, 1) :: st.stackItems }, .returns ptr, []⟩
      else ⟨st, .throwsBadAlloc, []⟩
    | some e =>
      if 0 < st.unMaxNumberOfAllocFromTheSameStack then
        let second := e.2 + 1
        let st₁ := st.setStackItem t second
        if st.unMaxNumberOfAllocFromTheSameStack < second then
          let r := initFailureDataAndCallClbk st₁ env item item.type ptr 0 .possibilityOfMemoryLeak
            backtrace
          if r.st.process = .running then ⟨r.st, .returns ptr, r.events⟩ else r
        else ⟨st₁, .returns ptr, []⟩
      else ⟨st, .returns ptr, []⟩

/-- `AddNewAllocatedMemoryAndCleanOldEntryNoLock`. -/
def addNewAllocatedMemoryAndCleanOldEntryNoLock (st : State) (env : Env) (memoryType : MemoryType)
    (ptr : Addr) (backtrace : BacktracePtr) : Res :=
  let item : SMemoryItem := ⟨memoryType, .allocated, ptr, backtrace, none⟩
  match registerMemoryItem st env ptr item with
  | none => ⟨st, .throwsBadAlloc, []⟩
  | some st₁ => registerStackItem st₁ env item ptr backtrace

/-- `AddNewAllocatedMemoryAndCleanOldEntry`. -/
def addNewAllocatedMemoryAndCleanOldEntry (st : State) (env : Env) (memoryType : MemoryType)
    (ptr : Addr) : Res :=
  let c := initBacktraceDataForCurrentStack st.traces env.stack
  addNewAllocatedMemoryAndCleanOldEntryNoLock { st with traces := c.1 } env memoryType ptr c.2

/-- The removal of a record's stack, as in `TestOperatorDelete` and `TestOperatorReAlloc`:
`FindEntry`, then the assertion whose expression decrements the counter, then `RemoveEntry` when the
counter is `0`. Under `NDEBUG` the expression is gone, and an end iterator is dereferenced. -/
def removeCorrespondingTrace (st : State) (allocTrace : BacktracePtr) : Except Process State :=
  match allocTrace with
  | none => .error .crashed
  | some t =>
    match st.findStackItem t with
    | none => .error (if st.ndebug then .crashed else .aborted)
    | some e =>
      if st.ndebug then
        if e.2 = 0 then .ok (st.removeStackItem t) else .ok st
      else if e.2 = 0 then .error .aborted
      else if e.2 - 1 = 0 then .ok (st.removeStackItem t)
      else .ok (st.setStackItem t (e.2 - 1))

/-! ## Untracked addresses -/

/-- The note for the signal handler: `CMemoryItem::Init` on the thread's item, which is created with
the default constructor when the thread has none. -/
def CMemoryItem.default : CMemoryItem :=
  { type := .notProvided, status := .doesNotExistAtAll, realAddress := 0, allocTrace := none,
    deallocTrace := none, failureType := .unknown, count := 0 }

/-- `CMemoryItem::Init`. -/
def CMemoryItem.init (item : CMemoryItem) (count : ℕ) (failureType : FailureType)
    (realAddress : Addr) (analizeTrace : BacktracePtr) : CMemoryItem :=
  { item with
    deallocTrace := analizeTrace, realAddress := realAddress, failureType := failureType,
    count := count }

/-- The end of `TestOperatorDelete` for an address without a record. -/
def deleteUntracked (st : State) (env : Env) (ptr : Addr) (analizeTrace : BacktracePtr) : Res :=
  if env.initialDealloc then ⟨st, .returns 0, []⟩
  else
    let item := env.handlerMemory.getD .default
    let st₁ : State := { st with traces := freeBacktraceData st.traces item.deallocTrace }
    ⟨st₁.freen ptr, .returns 0,
      [.handlerMemoryInit (item.init 0 .deallocOfNonExistingMemory ptr analizeTrace),
        .systemSpecificGlibcDealloc ptr]⟩

/-- The end of `TestOperatorReAlloc` for an address without a record. -/
def reAllocUntracked (st : State) (env : Env) (ptr : Addr) (count : ℕ)
    (analizeTrace : BacktracePtr) : Res :=
  match env.initialRealloc with
  | some q => ⟨st, .returns q, []⟩
  | none =>
    let item := env.handlerMemory.getD .default
    let st₁ : State := { st with traces := freeBacktraceData st.traces item.deallocTrace }
    ⟨st₁.reallocn ptr env.raw, .returns env.raw,
      [.handlerMemoryInit (item.init count .badReallocMemNotExist ptr analizeTrace),
        .systemSpecificGlibcRealloc ptr count env.raw]⟩

/-! ## The exported routines -/

/-- `TestOperatorDelete`. -/
def testOperatorDelete (st : State) (env : Env) (ptr : Addr) (typeExpected : MemoryType) : Res :=
  if ptr = 0 then ⟨st, .returns 0, []⟩
  else if st.bIsAllocingOrDeallocing then ⟨st.freen ptr, .returns 0, [.freen ptr]⟩
  else
    let c := initBacktraceDataForCurrentStack st.traces env.stack
    let st₀ : State := { st with traces := c.1 }
    match st₀.findMemoryItem ptr with
    | none => deleteUntracked st₀ env ptr c.2
    | some item =>
      if item.status ≠ .allocated then
        initFailureDataAndCallClbk st₀ env item .notProvided ptr 0 .doubleFree c.2
      else
        match removeCorrespondingTrace st₀ item.allocTrace with
        | .error p => st₀.ends p []
        | .ok st₁ =>
          if item.type ≠ typeExpected then
            initFailureDataAndCallClbk st₁ env item .notProvided ptr 0 .freeMissmatch c.2
          else
            let released : SMemoryItem := { item with status := .deallocated, deallocTrace := c.2 }
            ⟨(st₁.setMemoryItem ptr released).freen item.realAddress, .returns 0,
              [.freen item.realAddress]⟩

/-- `CRASH_INVEST_ANALIZE_COUNT_0` and the null check after a raw request. -/
def nullOrThrow (st : State) (bThrow : Bool) (events : List Event) : Res :=
  ⟨st, if bThrow then .throwsBadAlloc else .returns 0, events⟩

/-- `TestOperatorAlloc`. -/
def testOperatorAlloc (st : State) (env : Env) (count : ℕ) (memoryType : MemoryType)
    (bThrow : Bool) : Res :=
  if st.bIsAllocingOrDeallocing then
    ⟨st.mallocn env.raw, .returns env.raw, [.mallocn count env.raw]⟩
  else if count = 0 then nullOrThrow st bThrow []
  else if env.raw = 0 then nullOrThrow st bThrow [.mallocn count 0]
  else
    let r := addNewAllocatedMemoryAndCleanOldEntry (st.mallocn env.raw) env memoryType env.raw
    { r with events := .mallocn count env.raw :: r.events }

/-- `TestOperatorCalloc`. The product is that of `size_t`. -/
def testOperatorCalloc (st : State) (env : Env) (nmemb size : ℕ) : Res :=
  if st.bIsAllocingOrDeallocing then
    ⟨st.mallocn env.raw, .returns env.raw, [.callocn nmemb size env.raw]⟩
  else if nmemb * size % sizeModulus = 0 then nullOrThrow st false []
  else if env.raw = 0 then nullOrThrow st false [.callocn nmemb size 0]
  else
    let r := addNewAllocatedMemoryAndCleanOldEntry (st.mallocn env.raw) env .malloc env.raw
    { r with events := .callocn nmemb size env.raw :: r.events }

/-- `TestOperatorReAlloc`. -/
def testOperatorReAlloc (st : State) (env : Env) (ptr : Addr) (count : ℕ) : Res :=
  if st.bIsAllocingOrDeallocing then
    ⟨st.reallocn ptr env.raw, .returns env.raw, [.reallocn ptr count env.raw]⟩
  else if ptr = 0 then testOperatorAlloc st env count .malloc false
  else if count = 0 then testOperatorDelete st env ptr .malloc
  else
    let c := initBacktraceDataForCurrentStack st.traces env.stack
    let st₀ : State := { st with traces := c.1 }
    match st₀.findMemoryItem ptr with
    | none => reAllocUntracked st₀ env ptr count c.2
    | some item =>
      if item.type ≠ .malloc then
        initFailureDataAndCallClbk st₀ env item .notProvided ptr count
          .badReallocCreatedByWrongAlloc c.2
      else if item.status ≠ .allocated then
        initFailureDataAndCallClbk st₀ env item .notProvided ptr count .badReallocDeletedMem c.2
      else
        let call := Event.reallocn item.realAddress count env.raw
        let st₁ := st₀.reallocn item.realAddress env.raw
        if env.raw = ptr then
          ⟨{ st₁ with traces := freeBacktraceData st₁.traces c.2 }, .returns env.raw, [call]⟩
        else
          match removeCorrespondingTrace st₁ item.allocTrace with
          | .error p => st₁.ends p [call]
          | .ok st₂ =>
            let moved : SMemoryItem := { item with status := .duringReallocChanged }
            let r := addNewAllocatedMemoryAndCleanOldEntryNoLock (st₂.setMemoryItem ptr moved) env
              .malloc env.raw c.2
            { r with events := call :: r.events }

/-! ## Runs of calls -/

/-- The calls of the traced program. -/
inductive Call where
  | alloc (count : ℕ) (memoryType : MemoryType) (bThrow : Bool)
  | calloc (nmemb size : ℕ)
  | reAlloc (ptr : Addr) (count : ℕ)
  | delete (ptr : Addr) (typeExpected : MemoryType)
  | setMaxAllowedAllocInTheSameStack (newNumber : ℕ)
  deriving DecidableEq, Repr

/-- One call in a running process. -/
def call (st : State) (env : Env) : Call → Res
  | .alloc count memoryType bThrow => testOperatorAlloc st env count memoryType bThrow
  | .calloc nmemb size => testOperatorCalloc st env nmemb size
  | .reAlloc ptr count => testOperatorReAlloc st env ptr count
  | .delete ptr typeExpected => testOperatorDelete st env ptr typeExpected
  | .setMaxAllowedAllocInTheSameStack newNumber =>
    ⟨{ st with unMaxNumberOfAllocFromTheSameStack := newNumber },
      .returns st.unMaxNumberOfAllocFromTheSameStack, []⟩

/-- One step of a run; a process that has ended does nothing more. -/
def step (st : State) (c : Call × Env) : State :=
  if st.process = .running then (call st c.2 c.1).st else st

/-- A tracker state that some run of calls reaches, whatever the environment answers. -/
def Reachable (st : State) : Prop := ∃ cs, st = Runs.final step .init cs

end CrashInvestigator.Tracker
