import CrashInvestigator.Detection.Machine
import CrashInvestigator.Library.Custody
import CrashInvestigator.Library.Runs
import CrashInvestigator.Tracker.Proofs.StepProofs

/-!
# Ownership

What the detector is for. A ledger is kept from the outputs of a run alone: a block is owned from the
registration that records it until a `TestOperatorDelete` or an address-changing
`TestOperatorReAlloc` releases it. The ledger says what each call ought to report.
-/

namespace CrashInvestigator.Detection

open Tracker Library

/-- The owned blocks with their types, and the type of the last registration of every address. -/
structure Ledger where
  owned : Addr → Option MemoryType
  lastType : Addr → Option MemoryType

namespace Ledger

def empty : Ledger := ⟨fun _ => none, fun _ => none⟩

/-- A block of type `t` is registered at `p`. -/
def register (l : Ledger) (t : MemoryType) (p : Addr) : Ledger :=
  ⟨Function.update l.owned p (some t), Function.update l.lastType p (some t)⟩

/-- The block at `p` is released. -/
def release (l : Ledger) (p : Addr) : Ledger := { l with owned := Function.update l.owned p none }

/-- What a step says about ownership. -/
def record (l : Ledger) : Output → Ledger
  | .registered t p => l.register t p
  | .released p _ => l.release p
  | .reallocn p _ answer => if answer = p then l else (l.release p).register .malloc answer
  | _ => l

/-- The failure that a call with this effect has to report. -/
def verdict (l : Ledger) : Effect → Option FailureType
  | .release p typeExpected =>
    match l.owned p with
    | none => some .doubleFree
    | some t => if t = typeExpected then none else some .freeMissmatch
  | .move p _ =>
    if l.lastType p ≠ some .malloc then some .badReallocCreatedByWrongAlloc
    else if l.owned p = none then some .badReallocDeletedMem
    else none
  | _ => none

end Ledger

/-- The failure that a step reports. -/
def Output.failure : Output → Option FailureType
  | .report failureType _ _ _ => some failureType
  | _ => none

/-- The block that a step passes to raw `freen` or `reallocn`. -/
def Output.touches : Output → Option Addr
  | .freen ptr => some ptr
  | .reallocn _ realAddress _ => some realAddress
  | _ => none

section Observed

variable {θ : Type*} [DecidableEq θ]

/-- The system with the ledger of its outputs. -/
structure Observed (θ : Type*) where
  machine : State θ
  ledger : Ledger

def Observed.init : Observed θ := ⟨.init, .empty⟩

def Observed.output (s : Observed θ) (a : Action θ) : Output := (act s.machine a).2

def step (s : Observed θ) (a : Action θ) : Observed θ :=
  ⟨(act s.machine a).1, s.ledger.record (s.output a)⟩

/-! ## Assumptions on a step -/

/-- A thread enters a routine only outside all others. -/
def Enabled (s : Observed θ) : Action θ → Prop
  | .enter i _ _ => s.machine.pending i = .idle
  | .resume i => s.machine.pending i ≠ .idle

/-- The raw allocator issues only addresses that are not live, and `reallocn` does not fail. -/
def RawIssues (s : Observed θ) : Output → Prop
  | .mallocn answer => answer ∉ s.machine.live
  | .reallocn _ realAddress answer =>
    answer ≠ 0 ∧ (answer = realAddress ∨ answer ∉ s.machine.live)
  | _ => True

/-- A pointer that is passed in was registered at some earlier time. -/
def PassesRegistered (s : Observed θ) : Action θ → Prop
  | .enter _ c _ => (∀ p t, c.effect = .release p t → (s.ledger.lastType p).isSome) ∧
      ∀ p n, c.effect = .move p n → (s.ledger.lastType p).isSome
  | .resume _ => True

structure Admissible (s : Observed θ) (a : Action θ) : Prop where
  enabled : Enabled s a
  raw : RawIssues s (s.output a)
  registered : PassesRegistered s a

/-! ## Statements about a step -/

/-- A call reports what the ledger says and nothing else, and does its work when there is nothing to
report. -/
def Detects (s : Observed θ) : Action θ → Prop
  | .enter i c ans =>
    (s.output (.enter i c ans)).failure = s.ledger.verdict c.effect ∧
      (∀ p t, c.effect = .release p t → s.ledger.verdict c.effect = none →
        s.output (.enter i c ans) = .released p p) ∧
      ∀ p n, c.effect = .move p n → s.ledger.verdict c.effect = none →
        s.output (.enter i c ans) = .reallocn p p ans.raw
  | .resume i => (s.output (.resume i)).failure = none

/-- What a step of an exact detector does. -/
structure Exact (s : Observed θ) (a : Action θ) : Prop where
  detects : Detects s a
  /-- A report shows the record of the last registration. -/
  shows : ∀ failureType item p n, s.output a = .report failureType item p n →
    s.ledger.lastType p = some item.type
  /-- Raw `freen` and `reallocn` get only live blocks. -/
  touches : ∀ p, (s.output a).touches = some p → p ∈ s.machine.live
  /-- A block is freed after it was released, a block is registered when nobody owns its address. -/
  freed : ∀ p, s.output a = .freen p → s.ledger.owned p = none
  registers : ∀ t p, s.output a = .registered t p →
    s.ledger.owned p = none ∧ p ∈ s.machine.live

/-- An owned block is live and its record says so. -/
def OwnedLive (s : Observed θ) : Prop :=
  ∀ p t, s.ledger.owned p = some t → p ∈ s.machine.live ∧
    ∃ item, s.machine.memoryItems.lookup p = some item ∧ item.status = .allocated ∧ item.type = t

end Observed

end CrashInvestigator.Detection
