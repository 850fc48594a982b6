import CrashInvestigator.Library.Reentrant
import CrashInvestigator.Tracker.Aligned

/-!
# The routines as re-entrant programs

The exported routines on one thread, with every raw request, library call and callback as a point where
control is outside and may come back through the routines themselves. What the tables hold is that of
`Tracker.State`; the locals of a routine with a destructor (`IsAllocingHandler`, `unique_lock`,
`InScopeCleaner`, the strings of a `FailureData`) are cleanups. An assertion that fails and a null
dereference end the process. The addresses of the tool's own blocks are symbolic.
-/

namespace CrashInvestigator.Reentry

open Library.Reentrant
open Tracker (Addr BacktracePtr MemoryType MemoryStatus SMemoryItem CMemoryItem FailureAction
  FailureType)

/-- `s_once_control`. -/
inductive Once where
  | notStarted
  | running
  | done
  deriving DecidableEq, Repr

/-- The state of the thread and of the tracker. -/
structure State where
  tables : Tracker.State
  /-- Whether the thread holds `s_mutexForMap`. -/
  isLocked : Bool
  isInitFunction : Bool
  isNotInited : Bool
  onceControl : Once

/-- No call was made yet. `ndebug` tells how the file was compiled. -/
def State.init (ndebug : Bool) : State where
  tables := { Tracker.State.init with ndebug := ndebug }
  isLocked := false
  isInitFunction := false
  isNotInited := true
  onceControl := .notStarted

/-- `s_bIsAllocingOrDeallocing`. -/
def State.isAllocing (s : State) : Bool := s.tables.bIsAllocingOrDeallocing

/-- What must not happen. -/
inductive Violation where
  | lockWhileHeld
  | callbackUnderLock
  | initReentered
  deriving DecidableEq, Repr

/-- A block passed to an allocator: one of the program, or one of the tool by what it is part of. -/
inductive Block where
  | program (ptr : Addr)
  | backtrace (t : ℕ)
  | ppBuffer (t : ℕ)
  | stackItem
  | ppStrings
  deriving DecidableEq, Repr

/-- What is asked of the code outside. -/
inductive Query where
  | poolAlloc (count : ℕ)
  | poolCalloc (nmemb size : ℕ)
  | poolRealloc (ptr : Addr) (count : ℕ)
  | poolDealloc (block : Block)
  | origMalloc (count : ℕ)
  | origCalloc (nmemb size : ℕ)
  | origRealloc (ptr : Addr) (count : ℕ)
  | origFree (block : Block)
  | dlsym
  | fprintf
  | backtrace
  | backtraceSymbols
  /-- The vector and the strings of a `FailureData` grow or are destroyed. -/
  | stackItems
  | clbkFnc (failureType : FailureType) (item : SMemoryItem) (freeType : MemoryType)
      (failureAddress : Addr) (count : ℕ)
  | errorClbk
  | handlerMemory
  /-- How often an `InScopeCleaner` runs its function. -/
  | inScopeCleaner
  deriving DecidableEq

/-- An answer from outside; each question reads the fields it needs. -/
structure Answer where
  addr : Addr
  accepted : Bool
  frames : List ℕ
  action : FailureAction
  handlerMemory : Option CMemoryItem
  runs : ℕ

abbrev Act (α : Type) := Prog State Query Answer Violation α

/-- A question that is answered at once. -/
def question (q : Query) : Act Answer := .ask q .ret

/-- A question to code that may call the routines. -/
def outside (q : Query) : Act Answer := .leave q .ret

/-- An update of the tables. -/
def update (f : Tracker.State → Tracker.State) : Act Unit :=
  Prog.modify fun s => { s with tables := f s.tables }

/-! ## Scopes -/

def setAllocing (b : Bool) : Act Unit := update fun t => { t with bIsAllocingOrDeallocing := b }

/-- The scope of an `IsAllocingHandler`. -/
def isAllocingHandler {α : Type} (p : Act α) : Act α := do
  let s ← Prog.read
  if s.isAllocing then p
  else do
    setAllocing true
    p.withCleanup (setAllocing false)

/-- `lock` of the mutex. -/
def lock : Act Unit := do
  let s ← Prog.read
  if s.isLocked then .fault .lockWhileHeld
  else Prog.modify fun s => { s with isLocked := true }

/-- `unlock`; the destructor of a `unique_lock` that still owns the mutex does the same. -/
def unlock : Act Unit := Prog.modify fun s => { s with isLocked := false }

/-- The scope of a `unique_lock`. -/
def uniqueLock {α : Type} (p : Act α) : Act α := do
  lock
  p.withCleanup unlock

/-! ## The Unix backend -/

/-- The end of `InitFunction`: the process ends if an original function was not found. -/
def finishInit (origMalloc origRealloc origFree : Addr) : Act Unit :=
  if origMalloc = 0 ∨ origRealloc = 0 ∨ origFree = 0 then do
    let _ ← outside .fprintf
    .exit
  else Prog.modify fun s => { s with isInitFunction := false, isNotInited := false }

/-- `InitFunction`. -/
def initFunction : Act Unit := do
  Prog.modify fun s => { s with isInitFunction := true }
  let origMalloc ← outside .dlsym
  let _ ← outside .dlsym
  let origRealloc ← outside .dlsym
  let origFree ← outside .dlsym
  finishInit origMalloc.addr origRealloc.addr origFree.addr

/-- `pthread_once(&s_once_control, &InitFunction)`. -/
def pthreadOnce : Act Unit := do
  let s ← Prog.read
  match s.onceControl with
  | .notStarted => do
    Prog.modify fun s => { s with onceControl := .running }
    initFunction
    Prog.modify fun s => { s with onceControl := .done }
  | .running => .fault .initReentered
  | .done => pure ()

/-- `if(s_isNotInited){pthread_once(..);}` -/
def initOnce : Act Unit := do
  let s ← Prog.read
  if s.isNotInited then pthreadOnce else pure ()

/-- The common shape of the raw requests: the pool while `InitFunction` runs, libc after it. -/
def rawRequest (pool libc : Query) : Act Answer := do
  let s ← Prog.read
  if s.isInitFunction then question pool
  else do
    initOnce
    outside libc

def mallocn (count : ℕ) : Act Addr := do
  let w ← rawRequest (.poolAlloc count) (.origMalloc count)
  pure w.addr

def callocn (nmemb size : ℕ) : Act Addr := do
  let w ← rawRequest (.poolCalloc nmemb size) (.origCalloc nmemb size)
  pure w.addr

def reallocn (ptr : Addr) (count : ℕ) : Act Addr := do
  let w ← rawRequest (.poolRealloc ptr count) (.origRealloc ptr count)
  pure w.addr

def freen (block : Block) : Act Unit := do
  let _ ← rawRequest (.poolDealloc block) (.origFree block)
  pure ()

/-! ## Captured stacks -/

/-- `FreeBacktraceData`. -/
def freeBacktraceData : BacktracePtr → Act Unit
  | none => pure ()
  | some t => do
    freen (.ppBuffer t)
    freen (.backtrace t)
    update fun st => { st with traces := Tracker.freeBacktraceData st.traces (some t) }

/-- `sizeof(Backtrace)`. -/
def sizeofBacktrace : ℕ := 16

/-- `InitBacktraceDataForCurrentStack`. -/
def initBacktraceDataForCurrentStack : Act BacktracePtr := do
  let s ← Prog.read
  let t := s.tables.traces.next
  let pReturn ← mallocn sizeofBacktrace
  if pReturn = 0 then pure none
  else do
    let w ← outside .backtrace
    let ppBuffer ← mallocn (w.frames.length * Tracker.sizeofVoidPtr)
    if ppBuffer = 0 then do
      freen (.backtrace t)
      pure none
    else do
      update fun st =>
        { st with traces := (Tracker.initBacktraceDataForCurrentStack st.traces (some ⟨w.frames⟩)).1 }
      pure (some t)

/-- `ConvertBacktraceToNames`. -/
def convertBacktraceToNames : BacktracePtr → Act Unit
  | none => pure ()
  | some _ => do
    let ppStrings ← outside .backtraceSymbols
    if ppStrings.addr = 0 then pure ()
    else do
      let _ ← outside .stackItems
      freen .ppStrings

/-! ## Reports -/

/-- The stacks that are converted for a report of each kind. -/
def convertedStacks (item : SMemoryItem) (analizeTrace : BacktracePtr) :
    FailureType → List BacktracePtr
  | .unknown => []
  | .deallocOfNonExistingMemory | .badReallocMemNotExist | .sigSegvHandler => [analizeTrace]
  | .doubleFree | .badReallocDeletedMem => [item.allocTrace, item.deallocTrace, analizeTrace]
  | .badReallocCreatedByWrongAlloc | .freeMissmatch => [item.allocTrace, analizeTrace]
  | .possibilityOfMemoryLeak => [item.allocTrace]

def convertAll : List BacktracePtr → Act Unit
  | [] => pure ()
  | t :: ts => do
    convertBacktraceToNames t
    convertAll ts

/-- A call of one of the functions in `s_clbkData`. -/
def callback (q : Query) : Act Answer := do
  let s ← Prog.read
  if s.isLocked then .fault .callbackUnderLock else outside q

/-- What follows the answer of `clbkFnc`. -/
def takeAction (failureType : FailureType) (failureAddress : Addr) (count : ℕ) :
    FailureAction → Act Addr
  | .makeAction =>
    if failureType.actionIsRealloc then reallocn failureAddress count
    else do
      freen (.program failureAddress)
      pure 0
  | .doNotMakeActionToPreventCrash => pure 0
  | .exitApp => .exit
  | .unknown => do
    let _ ← callback .errorClbk
    .exit

/-- The switch of `InitFailureDataAndCallClbk`. -/
def reportFailure (item : SMemoryItem) (freeType : MemoryType) (failureAddress : Addr) (count : ℕ)
    (failureType : FailureType) (analizeTrace : BacktracePtr) : Act Addr := do
  convertAll (convertedStacks item analizeTrace failureType)
  let w ← callback (.clbkFnc failureType item freeType failureAddress count)
  takeAction failureType failureAddress count w.action

/-- `aCleaner`. -/
def scopeCleaner (analizeTrace : BacktracePtr) : Act Unit := do
  let w ← question .inScopeCleaner
  (freeBacktraceData analizeTrace).replicate w.runs

/-- `InitFailureDataAndCallClbk`. -/
def initFailureDataAndCallClbk (item : SMemoryItem) (freeType : MemoryType) (failureAddress : Addr)
    (count : ℕ) (failureType : FailureType) (analizeTrace : BacktracePtr) : Act Addr :=
  ((reportFailure item freeType failureAddress count failureType analizeTrace).withCleanup
    (scopeCleaner analizeTrace)).withCleanup (do
      let _ ← outside .stackItems
      pure ())

/-! ## The tables -/

/-- `sizeof(Item)` of `m_memoryItems` and of `m_stackItems`. -/
def sizeofMemoryItem : ℕ := 80

def sizeofStackItem : ℕ := 56

/-- `AddEntryWithKnownHash` of either table: the item is requested first. -/
def addEntryWithKnownHash (sizeofItem : ℕ) (add : Tracker.State → Tracker.State) : Act Unit := do
  let pItem ← mallocn sizeofItem
  if pItem = 0 then .throw else update add

/-- The record of `AddNewAllocatedMemoryAndCleanOldEntryNoLock`. -/
def registerMemoryItem (ptr : Addr) (item : SMemoryItem) : Act Unit := do
  let s ← Prog.read
  match s.tables.findMemoryItem ptr with
  | none => addEntryWithKnownHash sizeofMemoryItem fun st =>
      { st with memoryItems := (ptr, item) :: st.memoryItems }
  | some old => do
    freeBacktraceData old.deallocTrace
    freeBacktraceData old.allocTrace
    update fun st => st.setMemoryItem ptr item

/-- The counter of `AddNewAllocatedMemoryAndCleanOldEntryNoLock`. -/
def registerStackItem (item : SMemoryItem) (ptr : Addr) : BacktracePtr → Act Unit
  | none => .exit  -- `HashOfTheStack` dereferences the null pointer
  | some t => do
    let s ← Prog.read
    match s.tables.findStackItem t with
    | none => addEntryWithKnownHash sizeofStackItem fun st =>
        { st with stackItems := (t, 1) :: st.stackItems }
    | some e =>
      if 0 < s.tables.unMaxNumberOfAllocFromTheSameStack then do
        update fun st => st.setStackItem t (e.2 + 1)
        if s.tables.unMaxNumberOfAllocFromTheSameStack < e.2 + 1 then do
          unlock
          let _ ← initFailureDataAndCallClbk item item.type ptr 0 .possibilityOfMemoryLeak (some t)
          pure ()
        else pure ()
      else pure ()

/-- `AddNewAllocatedMemoryAndCleanOldEntryNoLock`. -/
def addNewAllocatedMemoryAndCleanOldEntryNoLock (memoryType : MemoryType) (ptr : Addr)
    (backtrace : BacktracePtr) : Act Addr := do
  let item : SMemoryItem := ⟨memoryType, .allocated, ptr, backtrace, none⟩
  registerMemoryItem ptr item
  registerStackItem item ptr backtrace
  pure ptr

/-- `AddNewAllocatedMemoryAndCleanOldEntry`. -/
def addNewAllocatedMemoryAndCleanOldEntry (memoryType : MemoryType) (ptr : Addr) : Act Addr := do
  let backtrace ← initBacktraceDataForCurrentStack
  uniqueLock (addNewAllocatedMemoryAndCleanOldEntryNoLock memoryType ptr backtrace)

/-- The removal of a record's stack; `RemoveEntry` frees the item when it removes one. -/
def removeCorrespondingTrace (allocTrace : BacktracePtr) : Act Unit := do
  let s ← Prog.read
  match Tracker.removeCorrespondingTrace s.tables allocTrace with
  | .error _ => .exit
  | .ok tables => do
    update fun _ => tables
    if tables.stackItems.length < s.tables.stackItems.length then freen .stackItem else pure ()

/-- `sizeof(CMemoryItem)`. -/
def sizeofCMemoryItem : ℕ := 48

/-- The note for the signal handler. -/
def initHandlerMemory : Act Unit := do
  let w ← outside .handlerMemory
  match w.handlerMemory with
  | some item => freeBacktraceData item.deallocTrace
  | none => do
    -- `new CMemoryItem` is a nested `TestOperatorAlloc`
    let _ ← mallocn sizeofCMemoryItem
    let _ ← outside .handlerMemory
    pure ()

/-! ## The exported routines -/

/-- `CRASH_INVEST_ANALIZE_COUNT_0` and the null check after a raw request. -/
def nullOrThrow (bThrow : Bool) : Act Addr := if bThrow then .throw else pure 0

/-- `TestOperatorAlloc`. -/
def testOperatorAlloc (count : ℕ) (memoryType : MemoryType) (bThrow : Bool) : Act Addr := do
  let s ← Prog.read
  if s.isAllocing then mallocn count
  else isAllocingHandler do
    if count = 0 then nullOrThrow bThrow
    else do
      let pReturn ← mallocn count
      if pReturn = 0 then nullOrThrow bThrow
      else addNewAllocatedMemoryAndCleanOldEntry memoryType pReturn

/-- `TestOperatorCalloc`. -/
def testOperatorCalloc (nmemb size : ℕ) : Act Addr := do
  let s ← Prog.read
  if s.isAllocing then callocn nmemb size
  else isAllocingHandler do
    if nmemb * size % Tracker.sizeModulus = 0 then nullOrThrow false
    else do
      let pReturn ← callocn nmemb size
      if pReturn = 0 then nullOrThrow false
      else addNewAllocatedMemoryAndCleanOldEntry .malloc pReturn

/-- The end of `TestOperatorDelete` for an address without a record. -/
def deleteUntracked (ptr : Addr) : Act Unit := do
  let w ← question (.poolDealloc (.program ptr))
  if w.accepted then pure ()
  else do
    initHandlerMemory
    let _ ← outside (.origFree (.program ptr))
    pure ()

/-- The locked block of `TestOperatorDelete`: the address that is left to be freed, if any. -/
def deleteLocked (ptr : Addr) (typeExpected : MemoryType) (analizeTrace : BacktracePtr) :
    Act (Option Addr) := do
  let s ← Prog.read
  match s.tables.findMemoryItem ptr with
  | none => do
    unlock
    deleteUntracked ptr
    pure none
  | some item =>
    if item.status ≠ .allocated then do
      unlock
      let _ ← initFailureDataAndCallClbk item .notProvided ptr 0 .doubleFree analizeTrace
      pure none
    else do
      removeCorrespondingTrace item.allocTrace
      if item.type ≠ typeExpected then do
        unlock
        let _ ← initFailureDataAndCallClbk item .notProvided ptr 0 .freeMissmatch analizeTrace
        pure none
      else do
        update fun st =>
          st.setMemoryItem ptr { item with status := .deallocated, deallocTrace := analizeTrace }
        pure (some item.realAddress)

/-- The last statement of `TestOperatorDelete`. -/
def freeReleased : Option Addr → Act Addr
  | none => pure 0
  | some pToDelete => do
    freen (.program pToDelete)
    pure 0

/-- `TestOperatorDelete`. -/
def testOperatorDelete (ptr : Addr) (typeExpected : MemoryType) : Act Addr := do
  let s ← Prog.read
  if ptr = 0 then pure 0
  else if s.isAllocing then do
    freen (.program ptr)
    pure 0
  else isAllocingHandler do
    let analizeTrace ← initBacktraceDataForCurrentStack
    let pToDelete ← uniqueLock (deleteLocked ptr typeExpected analizeTrace)
    freeReleased pToDelete

/-- The end of `TestOperatorReAlloc` for an address without a record. -/
def reAllocUntracked (ptr : Addr) (count : ℕ) : Act Addr := do
  let w ← question (.poolRealloc ptr count)
  if w.accepted then pure w.addr
  else do
    initHandlerMemory
    let w ← outside (.origRealloc ptr count)
    pure w.addr

/-- The locked block of `TestOperatorReAlloc`: the result, or none if the address was kept. -/
def reAllocLocked (ptr : Addr) (count : ℕ) (analizeTrace : BacktracePtr) : Act (Option Addr) := do
  let s ← Prog.read
  match s.tables.findMemoryItem ptr with
  | none => do
    unlock
    let pReturn ← reAllocUntracked ptr count
    pure (some pReturn)
  | some item =>
    if item.type ≠ .malloc then do
      unlock
      let pReturn ← initFailureDataAndCallClbk item .notProvided ptr count
        .badReallocCreatedByWrongAlloc analizeTrace
      pure (some pReturn)
    else if item.status ≠ .allocated then do
      unlock
      let pReturn ← initFailureDataAndCallClbk item .notProvided ptr count .badReallocDeletedMem
        analizeTrace
      pure (some pReturn)
    else do
      let pReturn ← reallocn item.realAddress count
      if pReturn = ptr then pure none
      else do
        removeCorrespondingTrace item.allocTrace
        update fun st => st.setMemoryItem ptr { item with status := .duringReallocChanged }
        let pReturn ← addNewAllocatedMemoryAndCleanOldEntryNoLock .malloc pReturn analizeTrace
        pure (some pReturn)

/-- The last statements of `TestOperatorReAlloc`. -/
def keepAddress (ptr : Addr) (analizeTrace : BacktracePtr) : Option Addr → Act Addr
  | some pReturn => pure pReturn
  | none => do
    freeBacktraceData analizeTrace
    pure ptr

/-- `TestOperatorReAlloc`. -/
def testOperatorReAlloc (ptr : Addr) (count : ℕ) : Act Addr := do
  let s ← Prog.read
  if s.isAllocing then reallocn ptr count
  else if ptr = 0 then testOperatorAlloc count .malloc false
  else if count = 0 then testOperatorDelete ptr .malloc
  else isAllocingHandler do
    let analizeTrace ← initBacktraceDataForCurrentStack
    let pReturn ← uniqueLock (reAllocLocked ptr count analizeTrace)
    keepAddress ptr analizeTrace pReturn

/-- `TestOperatorNewAligned`. -/
def testOperatorNewAligned (count : ℕ) (memoryType : MemoryType) (bThrow : Bool) (align : ℕ) :
    Act Addr := do
  let s ← Prog.read
  if s.isAllocing then mallocn count
  else isAllocingHandler do
    if count = 0 then nullOrThrow bThrow
    else do
      let actuallyAllocating :=
        (count + Tracker.effectiveAlign align + Tracker.sizeofVoidPtr) % Tracker.sizeModulus
      let pReturn ← mallocn actuallyAllocating
      if pReturn = 0 then nullOrThrow bThrow
      else
        match Tracker.stdAlign (Tracker.effectiveAlign align) count pReturn actuallyAllocating with
        | none => nullOrThrow bThrow
        | some pReturnRet => do
          let _ ← addNewAllocatedMemoryAndCleanOldEntry memoryType pReturn
          pure pReturnRet

/-- `SetMaxAllowedAllocInTheSameStack`. -/
def setMaxAllowedAllocInTheSameStack (newNumber : ℕ) : Act ℕ := do
  let s ← Prog.read
  update fun st => { st with unMaxNumberOfAllocFromTheSameStack := newNumber }
  pure s.tables.unMaxNumberOfAllocFromTheSameStack

/-- A call of one of the routines. -/
inductive Routine where
  | alloc (count : ℕ) (memoryType : MemoryType) (bThrow : Bool)
  | calloc (nmemb size : ℕ)
  | reAlloc (ptr : Addr) (count : ℕ)
  | newAligned (count : ℕ) (memoryType : MemoryType) (bThrow : Bool) (align : ℕ)
  | delete (ptr : Addr) (typeExpected : MemoryType)
  | setMaxAllowedAllocInTheSameStack (newNumber : ℕ)
  deriving DecidableEq, Repr

/-- The body of a call. -/
def body : Routine → Act Addr
  | .alloc count memoryType bThrow => testOperatorAlloc count memoryType bThrow
  | .calloc nmemb size => testOperatorCalloc nmemb size
  | .reAlloc ptr count => testOperatorReAlloc ptr count
  | .newAligned count memoryType bThrow align => testOperatorNewAligned count memoryType bThrow align
  | .delete ptr typeExpected => testOperatorDelete ptr typeExpected
  | .setMaxAllowedAllocInTheSameStack newNumber => setMaxAllowedAllocInTheSameStack newNumber

end CrashInvestigator.Reentry
