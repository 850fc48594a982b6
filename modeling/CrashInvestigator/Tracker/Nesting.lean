import CrashInvestigator.Tracker.Proofs.AgreementProofs
import CrashInvestigator.Tracker.Proofs.LeakReportProofs

/-!
# Nested calls: statements

A call that is made while `s_bIsAllocingOrDeallocing` is set makes its raw request and leaves the tables
alone. A step of a run is an outermost call with the calls made inside it; since these touch nothing but
the raw allocator, it only matters on which side of the raw request of the outermost call they lie. Beside
the tracker runs a ledger of what really happened to the blocks.
-/

namespace CrashInvestigator.Tracker

open Library

/-! ## Blocks of an event -/

/-- The block that goes back to the raw allocator. -/
def Event.freed : Event → Option Addr
  | .freen p | .systemSpecificGlibcDealloc p => some p
  | .reallocn p _ answer | .systemSpecificGlibcRealloc p _ answer =>
    if answer = 0 ∨ answer = p then none else some p
  | _ => none

/-- The block that comes from the raw allocator. -/
def Event.issued : Event → Option Addr
  | .mallocn _ answer | .callocn _ _ answer => if answer = 0 then none else some answer
  | .reallocn p _ answer | .systemSpecificGlibcRealloc p _ answer =>
    if answer = 0 ∨ answer = p then none else some answer
  | _ => none

def Res.freed (r : Res) : List Addr := r.events.filterMap Event.freed

def Res.issued (r : Res) : List Addr := r.events.filterMap Event.issued

/-- The block that an outermost call registers when it returns. -/
def State.registered (st : State) (c : Call × Env) : List Addr :=
  match c.1.effect with
  | .allocate _ => if c.2.raw = 0 then [] else [c.2.raw]
  | .move ptr _ =>
    match st.findMemoryItem ptr with
    | none => []
    | some item =>
      if item.type = .malloc ∧ item.status = .allocated ∧ c.2.raw ≠ 0 ∧ c.2.raw ≠ ptr then [c.2.raw]
      else []
  | _ => []

/-! ## The ledger -/

/-- The tracker and what happened to the blocks. -/
structure BlockLedger where
  st : State
  /-- The registered blocks that did not go back to the raw allocator. -/
  live : Finset Addr
  /-- The blocks that a nested call released and that were not issued again. -/
  freedInside : Finset Addr

def BlockLedger.init : BlockLedger := ⟨.init, ∅, ∅⟩

/-- A nested call. -/
def BlockLedger.nestedCall (l : BlockLedger) (c : Call × Env) : BlockLedger :=
  let r := call { l.st with bIsAllocingOrDeallocing := true } c.2 c.1
  { st := { r.st with bIsAllocingOrDeallocing := l.st.bIsAllocingOrDeallocing }
    live := l.live \ r.freed.toFinset
    freedInside := (l.freedInside ∪ r.freed.toFinset) \ r.issued.toFinset }

/-- An outermost call. -/
def BlockLedger.outermostCall (l : BlockLedger) (c : Call × Env) : BlockLedger :=
  let r := call l.st c.2 c.1
  { st := r.st
    live := l.live \ r.freed.toFinset ∪
      if r.out = .returns c.2.raw then (l.st.registered c).toFinset else ∅
    freedInside := l.freedInside \ r.issued.toFinset }

/-- An outermost call with the calls inside it. -/
structure MixedCall where
  before : List (Call × Env)
  outermost : Call × Env
  after : List (Call × Env)

/-- The ledger when the raw request of the outermost call is made, and after that call. -/
def BlockLedger.entered (l : BlockLedger) (m : MixedCall) : BlockLedger :=
  Runs.final nestedCall l m.before

def BlockLedger.served (l : BlockLedger) (m : MixedCall) : BlockLedger :=
  (l.entered m).outermostCall m.outermost

def BlockLedger.step (l : BlockLedger) (m : MixedCall) : BlockLedger :=
  if l.st.process ≠ .running then l
  else if (l.served m).st.process ≠ .running then l.served m
  else Runs.final nestedCall (l.served m) m.after

/-! ## What is claimed and what it takes -/

/-- The records of the tracker tell the truth about the registered blocks. -/
structure BlockLedger.Truthful (l : BlockLedger) : Prop where
  running : l.st.process = .running
  recorded : ∀ a, l.st.RecordedAllocated a ↔ a ∈ l.live
  live : ∀ a ∈ l.live, a ∈ l.st.live
  counted : l.st.StackItemsExact

/-- The release of a block that a nested call released before is a double free. -/
def ReportsStaleRelease (l : BlockLedger) (m : MixedCall) : Prop :=
  ∀ p t, m.outermost.1.effect = .release p t → p ∈ (l.entered m).freedInside →
    (call (l.entered m).st m.outermost.2 m.outermost.1).Reports .doubleFree ∧
      p ∉ (call (l.entered m).st m.outermost.2 m.outermost.1).freed

/-- A nested call does not release or move a block that is recorded as allocated. -/
def SparesRecorded (l : BlockLedger) (c : Call × Env) : Prop :=
  match c.1 with
  | .delete ptr _ => ¬ l.st.RecordedAllocated ptr
  | .reAlloc ptr _ => c.2.raw = 0 ∨ c.2.raw = ptr ∨ ¬ l.st.RecordedAllocated ptr
  | .setMaxAllowedAllocInTheSameStack n => 0 < n
  | _ => True

instance SparesRecorded.decidable (l : BlockLedger) :
    ∀ c : Call × Env, Decidable (SparesRecorded l c)
  | (.delete ptr _, _) => inferInstanceAs (Decidable (¬ l.st.RecordedAllocated ptr))
  | (.reAlloc ptr _, env) =>
    inferInstanceAs (Decidable (env.raw = 0 ∨ env.raw = ptr ∨ ¬ l.st.RecordedAllocated ptr))
  | (.setMaxAllowedAllocInTheSameStack n, _) => inferInstanceAs (Decidable (0 < n))
  | (.alloc _ _ _, _) => inferInstanceAs (Decidable True)
  | (.calloc _ _, _) => inferInstanceAs (Decidable True)

/-- What a step must meet for the tracker to stay truthful: its nested calls spare the recorded blocks,
a block that a nested call released is released again only if it has a record, and the outermost call is
accounted for. -/
structure KeepsTruth (l : BlockLedger) (m : MixedCall) : Prop where
  before : Runs.Along BlockLedger.nestedCall SparesRecorded l m.before
  after : Runs.Along BlockLedger.nestedCall SparesRecorded (l.served m) m.after
  stale : ∀ p t, m.outermost.1.effect = .release p t → p ∈ (l.entered m).freedInside →
    ((l.entered m).st.findMemoryItem p).isSome
  tracked : Tracked (l.entered m).st m.outermost
  positive : SetsPositiveMax m.outermost.1

end CrashInvestigator.Tracker
