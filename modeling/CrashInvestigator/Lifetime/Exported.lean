import CrashInvestigator.Lifetime.Life
import CrashInvestigator.Reentry.Refinement

/-!
# All routines over the real tables

`TestOperatorCalloc`, `TestOperatorReAlloc`, `TestOperatorNewAligned` and
`SetMaxAllowedAllocInTheSameStack` beside the two routines of `Routines`, and runs of all six. A run
goes on until something that was freed is used.
-/

namespace CrashInvestigator.Lifetime

open HashItems
open Tracker (Addr BacktracePtr ExportedCall FailureType MemoryType Outcome Process SMemoryItem
  initBacktraceDataForCurrentStack isTheSameStack)
open Reentry (bookkeeping convertedStacks)

/-- The answers to a call of any routine. -/
structure ExportedEnv extends Env where
  /-- The block `SystemSpecificLibInitialRealloc` answers with, when it accepts the address. -/
  initialRealloc : Option Addr

def ExportedEnv.abs (env : ExportedEnv) (handlerTrace : BacktracePtr) : Tracker.Env :=
  { env.toEnv.abs handlerTrace with initialRealloc := env.initialRealloc }

/-- The result of a call, with what it does outside the tables as the tracker has it. -/
structure ExportedRes where
  st : State
  out : Outcome
  events : List Tracker.Event

/-- What the tracker records of an event; the questions to the pool are not among its events. -/
def Event.abs : Event → List Tracker.Event
  | .mallocn count answer => [.mallocn count answer]
  | .freen ptr => [.freen ptr]
  | .systemSpecificLibInitialDealloc _ _ => []
  | .systemSpecificGlibcDealloc ptr => [.systemSpecificGlibcDealloc ptr]
  | .clbkFnc data answer => [.clbkFnc data answer]

def Res.exported (r : Res) : ExportedRes := ⟨r.st, r.out, r.events.flatMap Event.abs⟩

/-! ## The routines -/

/-- `AddNewAllocatedMemoryAndCleanOldEntryNoLock`. -/
def addNewAllocatedMemoryAndCleanOldEntryNoLock (s : State) (env : Env) (memoryType : MemoryType)
    (ptr : Addr) (backtrace : BacktracePtr) : Except Misuse Res := do
  let item : SMemoryItem := ⟨memoryType, .allocated, ptr, backtrace, none⟩
  let registered ← registerMemoryItem s env ptr item
  match registered with
  | none => .ok ⟨s, .throwsBadAlloc, []⟩
  | some s₁ => registerStackItem s₁ env item ptr backtrace

/-- `TestOperatorCalloc`. -/
def testOperatorCalloc (s : State) (env : ExportedEnv) (nmemb size : ℕ) :
    Except Misuse ExportedRes :=
  if s.bIsAllocingOrDeallocing then
    .ok ⟨s, .returns env.raw, [.callocn nmemb size env.raw]⟩
  else if nmemb * size % Tracker.sizeModulus = 0 then .ok (nullOrThrow s false []).exported
  else if env.raw = 0 then .ok ⟨s, .returns 0, [.callocn nmemb size 0]⟩
  else do
    let r ← addNewAllocatedMemoryAndCleanOldEntry s env.toEnv .malloc env.raw
    .ok ⟨r.st, r.out, .callocn nmemb size env.raw :: r.exported.events⟩

/-- What the program gets for an aligned request whose block is registered. -/
def alignedOutcome (p : Addr) : Outcome → Outcome
  | .returns _ => .returns p
  | out => out

/-- `TestOperatorNewAligned`. -/
def testOperatorNewAligned (s : State) (env : ExportedEnv) (count : ℕ) (memoryType : MemoryType)
    (bThrow : Bool) (align : ℕ) : Except Misuse ExportedRes :=
  if s.bIsAllocingOrDeallocing then .ok ⟨s, .returns env.raw, [.mallocn count env.raw]⟩
  else if count = 0 then .ok (nullOrThrow s bThrow []).exported
  else
    let actuallyAllocating :=
      (count + Tracker.effectiveAlign align + Tracker.sizeofVoidPtr) % Tracker.sizeModulus
    if env.raw = 0 then .ok (nullOrThrow s bThrow [.mallocn actuallyAllocating 0]).exported
    else
      match Tracker.stdAlign (Tracker.effectiveAlign align) count env.raw actuallyAllocating with
      | none => .ok (nullOrThrow s bThrow [.mallocn actuallyAllocating env.raw]).exported
      | some p => do
        let r ← addNewAllocatedMemoryAndCleanOldEntry s env.toEnv memoryType env.raw
        .ok ⟨r.st, alignedOutcome p r.out, .mallocn actuallyAllocating env.raw :: r.exported.events⟩

/-- `InitFailureDataAndCallClbk`, for the failures of `TestOperatorReAlloc`: the `MakeAction` of
each of them is a `reallocn`. -/
def reportBadRealloc (s : State) (env : ExportedEnv) (item : SMemoryItem) (failureAddress : Addr)
    (count : ℕ) (failureType : FailureType) (analizeTrace : BacktracePtr) :
    Except Misuse ExportedRes := do
  convertBacktraces s.traces (convertedStacks item analizeTrace failureType)
  let data := Tracker.failureData s.abs (env.abs s.handlerTrace) item .notProvided failureAddress
    count failureType analizeTrace
  let clbkRet := env.clbkFnc data
  match clbkRet with
  | .makeAction => do
    let traces ← freeBacktraceData s.traces analizeTrace
    .ok ⟨{ s with traces := traces }, .returns env.raw,
      [.clbkFnc data clbkRet, .reallocn failureAddress count env.raw]⟩
  | .doNotMakeActionToPreventCrash => do
    let traces ← freeBacktraceData s.traces analizeTrace
    .ok ⟨{ s with traces := traces }, .returns 0, [.clbkFnc data clbkRet]⟩
  | _ => .ok ⟨{ s with process := .exited 1 }, .processEnds, [.clbkFnc data clbkRet]⟩

/-- The end of `TestOperatorReAlloc` for an address without a record. -/
def reAllocUntracked (s : State) (env : ExportedEnv) (ptr : Addr) (count : ℕ)
    (analizeTrace : BacktracePtr) : Except Misuse ExportedRes :=
  match env.initialRealloc with
  | some q => .ok ⟨s, .returns q, []⟩
  | none => do
    let traces ← freeBacktraceData s.traces (if env.handlerMemory then s.handlerTrace else none)
    .ok ⟨{ s with traces := traces, handlerTrace := analizeTrace }, .returns env.raw,
      [.systemSpecificGlibcRealloc ptr count env.raw]⟩

/-- `TestOperatorReAlloc`. -/
def testOperatorReAlloc (s : State) (env : ExportedEnv) (ptr : Addr) (count : ℕ) :
    Except Misuse ExportedRes :=
  if s.bIsAllocingOrDeallocing then .ok ⟨s, .returns env.raw, [.reallocn ptr count env.raw]⟩
  else if ptr = 0 then (testOperatorAlloc s env.toEnv count .malloc false).map Res.exported
  else if count = 0 then (testOperatorDelete s env.toEnv ptr .malloc).map Res.exported
  else do
    let c := initBacktraceDataForCurrentStack s.traces env.stack
    let s₀ : State := { s with traces := c.1 }
    let found ← s₀.findMemoryItem ptr
    match found.1 with
    | none => reAllocUntracked s₀ env ptr count c.2
    | some iter => do
      let item ← second s₀.memoryItems iter
      if item.type ≠ .malloc then
        reportBadRealloc s₀ env item ptr count .badReallocCreatedByWrongAlloc c.2
      else if item.status ≠ .allocated then
        reportBadRealloc s₀ env item ptr count .badReallocDeletedMem c.2
      else
        let call := Tracker.Event.reallocn item.realAddress count env.raw
        if env.raw = ptr then do
          let traces ← freeBacktraceData s₀.traces c.2
          .ok ⟨{ s₀ with traces := traces }, .returns env.raw, [call]⟩
        else do
          let removed ← removeCorrespondingTrace s₀ item.allocTrace
          match removed with
          | .error p => .ok ⟨{ s₀ with process := p }, .processEnds, [call]⟩
          | .ok s₁ => do
            let memoryItems ← perform s₁.memoryItems
              (.setSecond iter { item with status := .duringReallocChanged })
            let r ← addNewAllocatedMemoryAndCleanOldEntryNoLock
              { s₁ with memoryItems := memoryItems } env.toEnv .malloc env.raw c.2
            .ok ⟨r.st, r.out, call :: r.exported.events⟩

def exportedCall (s : State) (env : ExportedEnv) : ExportedCall → Except Misuse ExportedRes
  | .plain (.alloc count memoryType bThrow) =>
    (testOperatorAlloc s env.toEnv count memoryType bThrow).map Res.exported
  | .plain (.calloc nmemb size) => testOperatorCalloc s env nmemb size
  | .plain (.reAlloc ptr count) => testOperatorReAlloc s env ptr count
  | .plain (.delete ptr typeExpected) =>
    (testOperatorDelete s env.toEnv ptr typeExpected).map Res.exported
  | .plain (.setMaxAllowedAllocInTheSameStack newNumber) =>
    .ok ⟨{ s with unMaxNumberOfAllocFromTheSameStack := newNumber },
      .returns s.unMaxNumberOfAllocFromTheSameStack, []⟩
  | .newAligned count memoryType bThrow align =>
    testOperatorNewAligned s env count memoryType bThrow align

/-! ## The tracker's results -/

/-- The note for the signal handler is kept by its trace here, and not among the events. -/
def isNote : Tracker.Event → Bool
  | .handlerMemoryInit _ => true
  | _ => false

/-- The result of the tracker, up to the raw blocks and the notes. -/
structure Mirrors (r : ExportedRes) (r' : Tracker.Res) : Prop where
  st : bookkeeping r'.st = r.st.abs
  out : r'.out = r.out
  events : r'.events.filter (fun e => !isNote e) = r.events

/-! ## Runs -/

/-- One step of a run; nothing is done after a misuse or the end of the process. -/
def exportedStep (x : Except Misuse State) (c : ExportedCall × ExportedEnv) : Except Misuse State :=
  match x with
  | .error m => .error m
  | .ok s =>
    if s.process = .running then (exportedCall s c.2 c.1).map ExportedRes.st else .ok s

/-- The calls with the answers in the terms of the tracker. -/
def mirrored : Except Misuse State → List (ExportedCall × ExportedEnv) →
    List (ExportedCall × Tracker.Env)
  | .ok s, c :: cs => (c.1, c.2.abs s.handlerTrace) :: mirrored (exportedStep (.ok s) c) cs
  | _, _ => []

/-- The tracker when the process starts, in a build with or without `NDEBUG`. -/
def trackerInit (ndebug : Bool) : Tracker.State := { Tracker.State.init with ndebug := ndebug }

/-- The `allocTrace` of the record whose stack the call takes out of `m_stackItems`. -/
def State.takesOut (s : State) (env : ExportedEnv) : ExportedCall → Option BacktracePtr
  | .plain (.delete ptr _) => (s.memoryItems.lookup ptr).bind fun e =>
      if ptr ≠ 0 ∧ e.value.status = .allocated then some e.value.allocTrace else none
  | .plain (.reAlloc ptr count) => (s.memoryItems.lookup ptr).bind fun e =>
      if ptr ≠ 0 ∧ e.value.status = .allocated ∧
        (count = 0 ∨ e.value.type = .malloc ∧ env.raw ≠ ptr) then some e.value.allocTrace else none
  | _ => none

/-- The state of a call that has captured its stack. -/
def State.withStack (s : State) (env : Env) : State :=
  { s with traces := (initBacktraceDataForCurrentStack s.traces env.stack).1 }

/-- The items of the stacks when the call registers its block. -/
def State.itemsAtRegistration (s : State) (env : ExportedEnv) (c : ExportedCall) :
    Session StackKey ℕ :=
  match s.takesOut env c with
  | none => s.stackItems
  | some allocTrace =>
    match removeCorrespondingTrace (s.withStack env.toEnv) allocTrace with
    | .ok (.ok s₁) => s₁.stackItems
    | _ => s.stackItems

/-- The item that counts the stack of `allocTrace` for the last time is removed without damage to
other items. -/
def State.RemovesCleanly (s : State) (allocTrace : BacktracePtr) : Prop :=
  ∀ t ∈ allocTrace, ∀ k ∈ s.stackItems.entries,
    isTheSameStack k.key.stack (s.traces.data t) = true → k.value = (if s.ndebug then 0 else 1) →
      PatchesNeighbours s.stackItems (.removeEntry (some k.iterator))

instance (s : State) (allocTrace : BacktracePtr) : Decidable (s.RemovesCleanly allocTrace) :=
  inferInstanceAs (Decidable (∀ t ∈ allocTrace, ∀ k ∈ s.stackItems.entries,
    isTheSameStack k.key.stack (s.traces.data t) = true → k.value = (if s.ndebug then 0 else 1) →
      PatchesNeighbours s.stackItems (.removeEntry (some k.iterator))))

/-- The allocator does not return the address of an item that is not freed, and `RemoveEntry` does
no damage. -/
structure Sensible (s : State) (c : ExportedCall × ExportedEnv) : Prop where
  memoryItem : ∀ a ∈ c.2.memoryItem, s.memoryItems.table.items a = none
  stackItem : ∀ a ∈ c.2.stackItem, (s.itemsAtRegistration c.2 c.1).table.items a = none
  removes : ∀ allocTrace ∈ s.takesOut c.2 c.1, (s.withStack c.2.toEnv).RemovesCleanly allocTrace

instance (s : State) (c : ExportedCall × ExportedEnv) : Decidable (Sensible s c) :=
  have : Decidable (∀ a ∈ c.2.memoryItem, s.memoryItems.table.items a = none) :=
    decidable_of_iff (∀ a ∈ c.2.memoryItem, (s.memoryItems.table.items a).isNone = true) (by simp)
  have : Decidable (∀ a ∈ c.2.stackItem, (s.itemsAtRegistration c.2 c.1).table.items a = none) :=
    decidable_of_iff (∀ a ∈ c.2.stackItem,
      ((s.itemsAtRegistration c.2 c.1).table.items a).isNone = true) (by simp)
  decidable_of_iff (_ ∧ _ ∧ _) ⟨fun h => ⟨h.1, h.2.1, h.2.2⟩, fun h => ⟨h.1, h.2, h.3⟩⟩

/-- The same of a run that has not gone wrong. -/
def SensibleStep (x : Except Misuse State) (c : ExportedCall × ExportedEnv) : Prop :=
  ∀ s ∈ x.toOption, Sensible s c

instance (x : Except Misuse State) (c : ExportedCall × ExportedEnv) :
    Decidable (SensibleStep x c) :=
  inferInstanceAs (Decidable (∀ s ∈ x.toOption, Sensible s c))

end CrashInvestigator.Lifetime
