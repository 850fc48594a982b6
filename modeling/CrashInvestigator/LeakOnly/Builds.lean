import CrashInvestigator.LeakOnly.Proofs.AnalyzerProofs

/-!
# The builds of the leak-only analyzer

Blocks can be released behind the back of `operator delete`. A release build of Visual Studio
recovers when such an address is issued again, its debug build sees the releases through
`CrashInvestMemHook`, and every other build has neither and asserts, like the debug build, that an
address it records is new. Apart from that they are the analyzer: a build is its functions with the
hook and the two assertions, and `none` is a failed one. Assertions are not compiled out.
-/

namespace CrashInvestigator.LeakOnly

open Library
open Tracker (Addr freeBacktraceData initBacktraceDataForCurrentStack)

inductive Build where
  /-- `!defined(_MSC_VER)` -/
  | other
  | visualDebug
  | visualRelease
  deriving DecidableEq, Repr

/-- What the C runtime tells the hook of an operation. -/
inductive AllocType where
  | hookAlloc
  | hookRealloc
  | hookFree

namespace Build

/-- `!defined(_MSC_VER) || defined(_DEBUG)` -/
def asserts : Build → Bool
  | .other | .visualDebug => true
  | .visualRelease => false

/-- `defined(_MSC_VER) && defined(_DEBUG)` -/
def hooks : Build → Bool
  | .visualDebug => true
  | .other | .visualRelease => false

variable (b : Build)

/-- The assertion of `TakeStackOut`: where the recovering build returns because there is no entry of
the stack, an asserting one stops. -/
def check (st : State) (events : List Event) : Option State :=
  if b.asserts = true ∧ .stackNotFound ∈ events then none else some st

/-- `FreeMemAnalyze`. -/
def freeMemAnalyze (st : State) (ptr : Addr) : Option State :=
  let (st₁, events) := LeakOnly.freeMemAnalyze st ptr
  b.check st₁ events

/-- `CrashInvestMemHook`, which only a debug build of Visual Studio installs. -/
def crashInvestMemHook (st : State) (bOperatorDeleteCalled : Bool) (allocType : AllocType)
    (ptr : Addr) : Option State :=
  if b.hooks then
    if bOperatorDeleteCalled then some st
    else
      match allocType with
      | .hookFree | .hookRealloc => b.freeMemAnalyze st ptr
      | .hookAlloc => some st
  else some st

/-- `FreeMem`. -/
def freeMem (st : State) (ptr : Addr) : Option State :=
  (b.freeMemAnalyze st ptr).bind fun st₁ => b.crashInvestMemHook st₁ true .hookFree ptr

/-- What `AllocMem` does with an address that is still recorded. -/
def recoverMem (st : State) (ptr : Addr) : Option State :=
  if b.asserts = true ∧ (st.findMem ptr).isSome then none
  else
    let (st₁, events) := LeakOnly.recoverMem st ptr
    b.check st₁ events

/-- The count of the stack of a block that was just recorded. The hook does nothing of its own in the
calls that a report makes. -/
def countStack (st : State) (env : Env) (t : ℕ) : Option State :=
  let r := LeakOnly.countStack st env env.raw t
  b.check r.st r.events

/-- `AllocMem` after its `malloc`. -/
def recordMem (st : State) (env : Env) : Option State :=
  match initBacktraceDataForCurrentStack st.traces env.stack with
  | (_, none) => some st.leaveHandler
  | (traces, some pBacktrace) =>
    (b.recoverMem { st with traces := traces } env.raw).bind fun st₁ =>
      b.countStack { st₁ with pMem := (env.raw, pBacktrace) :: st₁.pMem } env pBacktrace

/-- `AllocMem`. -/
def allocMem (st : State) (env : Env) : Option State :=
  (b.crashInvestMemHook st false .hookAlloc 0).bind fun st₁ =>
    if st.initOrExitOngoing ∨ 0 < env.isOngoing ∨ env.ignoreThisStack then some st₁
    else if env.raw = 0 then some st₁.leaveHandler
    else b.recordMem st₁ env

end Build

/-! ## A process with the analyzer -/

/-- The analyzer and the blocks of the C heap that the program and its libraries have. -/
structure Host where
  st : State
  blocks : Finset Addr

def Host.initRaw (max : ℕ) (time : ℤ) : Host := ⟨.initRaw max time, ∅⟩

/-- The operators, and what is done with the C heap without them. -/
inductive Action where
  | call (c : Call) (env : Env)
  | libraryMalloc (answer : Addr)
  | libraryFree (ptr : Addr)
  | libraryRealloc (ptr answer : Addr)

/-- A request for a block; the null answer allocates nothing. -/
def issue (blocks : Finset Addr) (answer : Addr) : Finset Addr :=
  if answer = 0 then blocks else insert answer blocks

/-- A `realloc`; the null answer leaves the old block in use. -/
def reissue (blocks : Finset Addr) (ptr answer : Addr) : Finset Addr :=
  if answer = 0 then blocks else insert answer (blocks.erase ptr)

/-- The C heap after a step. -/
def Action.blocks (blocks : Finset Addr) : Action → Finset Addr
  | .call (.allocMem _) env => issue blocks env.raw
  | .call (.freeMem ptr) _ => blocks.erase ptr
  | .libraryMalloc answer => issue blocks answer
  | .libraryFree ptr => blocks.erase ptr
  | .libraryRealloc ptr answer => reissue blocks ptr answer

/-- The state after what was not stopped by an assertion. -/
def State.outcome (st : State) : Option State → State
  | some st₁ => st₁
  | none => { st with process := .aborted }

namespace Build

variable (b : Build)

/-- What the analyzer does in a step. -/
def analyze (st : State) : Action → Option State
  | .call (.allocMem _) env => b.allocMem st env
  | .call (.freeMem ptr) _ => b.freeMem st ptr
  | .libraryMalloc _ => b.crashInvestMemHook st false .hookAlloc 0
  | .libraryFree ptr => b.crashInvestMemHook st false .hookFree ptr
  | .libraryRealloc ptr _ => b.crashInvestMemHook st false .hookRealloc ptr

def step (h : Host) (a : Action) : Host :=
  if h.st.process = .running then ⟨h.st.outcome (b.analyze h.st a), a.blocks h.blocks⟩ else h

end Build

/-- The C heap issues blocks that are not in use; a `realloc` may keep the address. -/
def IssuesFresh (h : Host) : Action → Prop
  | .call (.allocMem _) env => env.raw ∉ h.blocks
  | .call (.freeMem _) _ => True
  | .libraryMalloc answer => answer ∉ h.blocks
  | .libraryFree _ => True
  | .libraryRealloc ptr answer => answer = ptr ∨ answer ∉ h.blocks

/-- The captured backtraces have frames and the clock does not go back. -/
def Sensible (h : Host) : Action → Prop
  | .call _ env => (∀ s, env.stack = some s → s.ppBuffer ≠ []) ∧ h.st.initTime ≤ env.currentTime
  | _ => True

/-- A running analyzer is to record a block at an address that it has recorded. -/
def Reissues (h : Host) : Action → Prop
  | .call c env => h.st.process = .running ∧ (∃ s, Records h.st (c, env) s) ∧
      (h.st.findMem env.raw).isSome
  | _ => False

/-- What is recorded is in use. -/
def Host.RecordsBlocks (h : Host) : Prop := ∀ p, (h.st.findMem p).isSome → p ∈ h.blocks

end CrashInvestigator.LeakOnly
