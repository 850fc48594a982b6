import CrashInvestigator.Detection.Ledger
import CrashInvestigator.Library.Critical

/-!
# The routines under the lock

The exported routines of several threads access by access: every `FindEntry`, every read and write
through `memItemIter`, every raw request, and taking and leaving `s_mutexForMap` is a step of its
own, and between any two of them the other threads may take any number of steps. The capture of a
stack touches nothing that is shared and belongs to the step before it. As in the atomic machine,
callbacks answer `DoNotMakeActionToPreventCrash`. `m_stackItems` is left out: how a registration ends,
with a count, a leak report that gives the lock back early, or an exception, is an answer from outside.
-/

namespace CrashInvestigator.Detection.Locked

open Tracker Library

/-- Where a thread is while it does not hold `s_mutexForMap`. -/
inductive Control where
  | idle
  /-- In the routine of a call, with the stack captured for it. -/
  | inside (c : Call) (pAnalizeTrace : BacktracePtr)
  /-- At `AddNewAllocatedMemoryAndCleanOldEntry` with a new block. -/
  | adding (memoryType : MemoryType) (pReturn : Addr) (pBacktrace : BacktracePtr)
  /-- At the `freen` that ends `TestOperatorDelete`. -/
  | freeing (pToDelete : Addr)
  /-- In `InitFailureDataAndCallClbk` with a possible leak. -/
  | reporting
  /-- A `bad_alloc` leaves the routine. -/
  | throwing
  deriving DecidableEq

/-- How the registration of a block ends. -/
inductive Registration where
  | counted
  /-- `AddEntryWithKnownHash` of `m_memoryItems` throws, if it is called. -/
  | itemThrows
  /-- `AddEntryWithKnownHash` of `m_stackItems` throws. -/
  | counterThrows
  /-- The counter of the stack is above the limit. -/
  | leak
  deriving DecidableEq

/-- What the environment decides during a step: the call that a thread outside all routines makes,
the answers of the raw allocator and the stack capture, and how a registration ends. -/
structure Input where
  call : Call
  answers : Answers
  registration : Registration

/-- The live blocks of the raw allocator. -/
abbrev World := Finset Addr

/-- The output `none` is the use of an iterator whose item is gone. -/
abbrev Section := Critical.Section MemoryItems World Input Control (Option Output)

abbrev Tail := Critical.Tail MemoryItems Control

abbrev Code := Critical.Code MemoryItems World Input Control (Option Output)

/-- Assignment through an iterator. -/
def assign (memoryItems : MemoryItems) (ptr : Addr) (field : SMemoryItem → SMemoryItem) :
    MemoryItems :=
  match memoryItems.lookup ptr with
  | none => memoryItems
  | some item => memoryItems.insert ptr (field item)

/-- `s_memoryItems.FindEntry(ptr,_)`, with the comparison with `s_endIter`. -/
def findEntry (ptr : Addr) (next : Bool → Section) : Section :=
  .access id fun m => next (m.lookup ptr).isSome

/-- A read of `memItemIter->second`. -/
def second (ptr : Addr) (next : SMemoryItem → Section) : Section :=
  .access id fun m =>
    match m.lookup ptr with
    | none => .leave .idle none
    | some item => next item

/-- A write of a field of `memItemIter->second`. -/
def setSecond (ptr : Addr) (field : SMemoryItem → SMemoryItem) (next : Section) : Section :=
  .access (fun m => assign m ptr field) fun _ => next

/-- The end of `AddNewAllocatedMemoryAndCleanOldEntryNoLock`: a leak report is made without the lock. -/
def countStackItem : Registration → Tail
  | .counted | .itemThrows => .leave .idle
  | .counterThrows => .leave .throwing
  | .leak => .unlock .reporting

/-- `AddEntryWithKnownHash` or the assignment of the whole record, and the counter of the stack. -/
def setMemoryItem (ptr : Addr) (item : SMemoryItem) (found : Bool) (r : Registration) : Tail :=
  if found then .access (fun m => assign m ptr fun _ => item) fun _ => countStackItem r
  else if r = .itemThrows then .leave .throwing
  else .access (fun m => m.insert ptr item) fun _ => countStackItem r

/-- `AddNewAllocatedMemoryAndCleanOldEntryNoLock`. -/
def addNewAllocatedMemoryAndCleanOldEntryNoLock (memoryType : MemoryType) (pReturn : Addr)
    (pBacktrace : BacktracePtr) (r : Registration) : Tail :=
  .access id fun m => setMemoryItem pReturn ⟨memoryType, .allocated, pReturn, pBacktrace, none⟩
    (m.lookup pReturn).isSome r

/-- The locked part of `AddNewAllocatedMemoryAndCleanOldEntry`. Its request is that for the memory of
an item. -/
def addNewAllocatedMemoryAndCleanOldEntry (memoryType : MemoryType) (pReturn : Addr)
    (pBacktrace : BacktracePtr) : Section :=
  findEntry pReturn fun found =>
    .request (fun _ live => live)
      (fun a => some (if found = false ∧ a.registration = .itemThrows then .nothing
        else .registered memoryType pReturn))
      fun a => setMemoryItem pReturn ⟨memoryType, .allocated, pReturn, pBacktrace, none⟩ found
        a.registration

/-- The copy of the record, `unlock`, and the report. -/
def report (failureType : FailureType) (ptr : Addr) (count : ℕ) : Section :=
  second ptr fun item => .unlock .idle (some (.report failureType item ptr count))

/-- The locked part of `TestOperatorDelete`. -/
def testOperatorDelete (ptr : Addr) (typeExpected : MemoryType) (pAnalizeTrace : BacktracePtr) :
    Section :=
  findEntry ptr fun found =>
    if found then
      second ptr fun item =>
        if item.status ≠ .allocated then report .doubleFree ptr 0
        else
          second ptr fun item =>
            if item.type ≠ typeExpected then report .freeMissmatch ptr 0
            else
              second ptr fun item =>
                setSecond ptr (fun i => { i with status := .deallocated }) <|
                setSecond ptr (fun i => { i with deallocTrace := pAnalizeTrace }) <|
                .leave (.freeing item.realAddress) (some (.released ptr item.realAddress))
    else .unlock .idle (some (.untracked ptr))

/-- What is left of `TestOperatorReAlloc` when `reallocn` has returned `pReturn`. -/
def afterReallocn (ptr pReturn : Addr) (pAnalizeTrace : BacktracePtr) (r : Registration) : Tail :=
  if pReturn = ptr then .leave .idle
  else
    .access (fun m => assign m ptr fun i => { i with status := .duringReallocChanged }) fun _ =>
      addNewAllocatedMemoryAndCleanOldEntryNoLock .malloc pReturn pAnalizeTrace r

/-- The locked part of `TestOperatorReAlloc`. -/
def testOperatorReAlloc (ptr : Addr) (count : ℕ) (pAnalizeTrace : BacktracePtr) : Section :=
  findEntry ptr fun found =>
    if found then
      second ptr fun item =>
        if item.type ≠ .malloc then report .badReallocCreatedByWrongAlloc ptr count
        else
          second ptr fun item =>
            if item.status ≠ .allocated then report .badReallocDeletedMem ptr count
            else
              second ptr fun item =>
                .request
                  (fun a live => if a.answers.raw = 0 then live
                    else insert a.answers.raw (live.erase item.realAddress))
                  (fun a => some (.reallocn ptr item.realAddress a.answers.raw))
                  fun a => afterReallocn ptr a.answers.raw pAnalizeTrace a.registration
    else .unlock .idle (some (.untracked ptr))

/-- A step that leads out of all routines and does nothing else. -/
def done : Code := .plain fun _ live => (live, .idle, some (some .nothing))

/-- `mallocn` or `callocn`, with the stack that is captured for the registration. -/
def request (memoryType : MemoryType) : Code :=
  .plain fun a live =>
    if a.answers.raw = 0 then (live, .idle, some (some .nothing))
    else
      (insert a.answers.raw live, .adding memoryType a.answers.raw a.answers.backtrace,
        some (some (.mallocn a.answers.raw)))

/-- The code of a call from its start to the end of its first step or section. `aGuard` guards each
section. -/
def routine (c : Call) (pAnalizeTrace : BacktracePtr) : Code :=
  match c with
  | .alloc count memoryType _ => if count = 0 then done else request memoryType
  | .calloc nmemb size => if nmemb * size % sizeModulus = 0 then done else request .malloc
  | .reAlloc ptr count =>
    if ptr = 0 then if count = 0 then done else request .malloc
    else if count = 0 then .locked (testOperatorDelete ptr .malloc pAnalizeTrace).guarded
    else .locked (testOperatorReAlloc ptr count pAnalizeTrace).guarded
  | .delete ptr typeExpected =>
    if ptr = 0 then done else .locked (testOperatorDelete ptr typeExpected pAnalizeTrace).guarded
  | .setMaxAllowedAllocInTheSameStack _ => done

/-- What a thread does next. -/
def code : Control → Code
  | .idle => .plain fun a live => (live, .inside a.call a.answers.backtrace, none)
  | .inside c pAnalizeTrace => routine c pAnalizeTrace
  | .adding memoryType pReturn pBacktrace =>
    .locked (addNewAllocatedMemoryAndCleanOldEntry memoryType pReturn pBacktrace).guarded
  | .freeing pToDelete =>
    .plain fun _ live => (live.erase pToDelete, .idle, some (some (.freen pToDelete)))
  | .reporting | .throwing => .plain fun _ live => (live, .idle, none)

/-! ## The system with its ledger -/

section System

variable (θ : Type*)

abbrev Fine := Critical.Fine θ MemoryItems World Input Control (Option Output)

abbrev Coarse := Critical.Coarse θ MemoryItems World Control

/-- The threads with the ledger of what they have shown. -/
structure Monitored where
  fine : Fine θ
  ledger : Ledger

variable {θ}

def Monitored.init : Monitored θ := ⟨.start ∅ ∅ .idle, .empty⟩

/-- The ledger after a step. -/
def record (l : Ledger) : Option (θ × Option Output) → Ledger
  | some (_, some o) => l.record o
  | _ => l

/-- The thread that acts. -/
def actor : Action θ → θ
  | .enter i _ _ => i
  | .resume i => i

/-- What the assumptions on a step read: table, live blocks and ledger. -/
def Monitored.view (s : Monitored θ) : Observed θ :=
  ⟨⟨s.fine.data, s.fine.world, fun _ => .idle⟩, s.ledger⟩

/-- Whether a call passes only registered pointers, computed. -/
def registeredOk (l : Ledger) (c : Call) : Bool :=
  match c.effect with
  | .release p _ => (l.lastType p).isSome
  | .move p _ => (l.lastType p).isSome
  | _ => true

/-- Whether a thread is outside all routines. -/
def isIdle : Critical.Phase MemoryItems World Input Control (Option Output) → Bool
  | .outside .idle => true
  | _ => false

theorem registeredOk_iff {s : Monitored θ} (i : θ) {c : Call} (ans : Answers) :
    registeredOk s.ledger c = true ↔ PassesRegistered s.view (.enter i c ans) := by
  unfold registeredOk PassesRegistered Monitored.view
  cases heff : c.effect <;> simp [heff]

theorem isIdle_iff {ph : Critical.Phase MemoryItems World Input Control (Option Output)} :
    isIdle ph = true ↔ ph = .outside .idle := by
  cases ph with
  | outside k => cases k <;> simp [isIdle]
  | inside k rest => simp [isIdle]
  | ending rest => simp [isIdle]

variable [DecidableEq θ]

/-- What a step shows: the thread and the output. -/
def Monitored.output (s : Monitored θ) (l : θ × Input) : Option (θ × Option Output) :=
  (s.fine.step code l).2

def step (s : Monitored θ) (l : θ × Input) : Monitored θ × Option (θ × Option Output) :=
  (⟨(s.fine.step code l).1, record s.ledger (s.output l)⟩, s.output l)

/-- The assumptions of the atomic machine, at the moment of a raw request and of a call: it knows no
leak reports, and its tables can grow. -/
structure Admissible (s : Monitored θ) (l : θ × Input) : Prop where
  counted : l.2.registration = .counted
  raw : ∀ i o, s.output l = some (i, some o) → RawIssues s.view o
  registered : s.fine.phase l.1 = .outside .idle →
    PassesRegistered s.view (.enter l.1 l.2.call l.2.answers)

/-- The raw part of `Admissible`, computed. -/
def rawOk (s : Monitored θ) : Option (θ × Option Output) → Bool
  | some (_, some (.mallocn answer)) => decide (answer ∉ s.fine.world)
  | some (_, some (.reallocn _ realAddress answer)) =>
    decide (answer ≠ 0 ∧ (answer = realAddress ∨ answer ∉ s.fine.world))
  | _ => true

theorem rawOk_iff {s : Monitored θ} {l : θ × Input} :
    rawOk s (s.output l) = true ↔ ∀ i o, s.output l = some (i, some o) → RawIssues s.view o := by
  cases hout : s.output l with
  | none => simp [rawOk]
  | some r =>
    obtain ⟨j, u⟩ := r
    cases u with
    | none => simp [rawOk]
    | some o => cases o <;> simp [rawOk, RawIssues, Monitored.view]

instance (s : Monitored θ) (l : θ × Input) : Decidable (Admissible s l) :=
  decidable_of_iff (l.2.registration = .counted ∧ rawOk s (s.output l) = true ∧
      (isIdle (s.fine.phase l.1) = true → registeredOk s.ledger l.2.call = true)) <| by
    rw [rawOk_iff, isIdle_iff, registeredOk_iff l.1 l.2.answers]
    exact ⟨fun h => ⟨h.1, h.2.1, h.2.2⟩, fun h => ⟨h.counted, h.raw, h.registered⟩⟩

/-- The call that a place in the code belongs to, up to the step in which it takes effect. -/
def Control.call : Control → Option Call
  | .inside c _ => some c
  | _ => none

def callOf : Critical.Phase MemoryItems World Input Control (Option Output) → Option Call
  | .outside k => k.call
  | .inside k _ => k.call
  | .ending _ => none

/-- What an exact detector shows in a step of a thread. -/
structure Shows (s : Monitored θ) (i : θ) (o : Output) : Prop where
  detects : o.failure = (callOf (s.fine.phase i)).bind fun c => s.ledger.verdict c.effect
  /-- A call with nothing to report does its work. -/
  releases : ∀ c p t, callOf (s.fine.phase i) = some c → c.effect = .release p t →
    s.ledger.verdict c.effect = none → o = .released p p
  moves : ∀ c p n, callOf (s.fine.phase i) = some c → c.effect = .move p n →
    s.ledger.verdict c.effect = none → ∃ q, o = .reallocn p p q
  /-- A report shows the record of the last registration. -/
  shows : ∀ failureType item p n, o = .report failureType item p n →
    s.ledger.lastType p = some item.type
  /-- Raw `freen` and `reallocn` get only live blocks. -/
  touches : ∀ p, o.touches = some p → p ∈ s.fine.world
  freed : ∀ p, o = .freen p → s.ledger.owned p = none
  registers : ∀ t p, o = .registered t p → s.ledger.owned p = none ∧ p ∈ s.fine.world

/-- No iterator dangles, and whatever a step shows is exact. -/
def Exact (s : Monitored θ) (l : θ × Input) : Prop :=
  ∀ i u, s.output l = some (i, u) → ∃ o, u = some o ∧ Shows s i o

end System

end CrashInvestigator.Detection.Locked
