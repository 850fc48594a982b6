import CrashInvestigator.Tracker.Aligned
import CrashInvestigator.Tracker.Proofs.StepProofs
import Mathlib.Logic.Function.Basic

/-!
# The history of the addresses

What a run did to each address, kept beside the tracker: how the address was last registered, and by
what it was last released. A report is compared with it.
-/

namespace CrashInvestigator.Tracker

open Library

/-- A release of a recorded block, by a deallocation or by a realloc that moved the block. -/
structure Release where
  stack : List ℕ
  byReAlloc : Bool
  deriving DecidableEq, Repr

/-- The last registration and the last release of every address. -/
structure Chronicle where
  registered : Addr → Option (MemoryType × List ℕ)
  released : Addr → Option Release

def Chronicle.empty : Chronicle := ⟨fun _ => none, fun _ => none⟩

def Chronicle.register (h : Chronicle) (p : Addr) (memoryType : MemoryType) (stack : List ℕ) :
    Chronicle :=
  { h with registered := Function.update h.registered p (some (memoryType, stack)) }

def Chronicle.release (h : Chronicle) (p : Addr) (rel : Release) : Chronicle :=
  { h with released := Function.update h.released p (some rel) }

/-- The stack of the current call. -/
def Env.frames (env : Env) : List ℕ := (env.stack.map Backtrace.ppBuffer).getD []

/-- The block that the call obtained is registered, unless the table cannot take its record. -/
def Chronicle.registration (h : Chronicle) (st : State) (env : Env) (memoryType : MemoryType) :
    Chronicle :=
  if env.memoryItem = true ∨ (st.findMemoryItem env.raw).isSome then
    h.register env.raw memoryType env.frames
  else h

/-- A deallocation releases an allocated block of its type. -/
def Chronicle.deallocation (h : Chronicle) (st : State) (env : Env) (p : Addr) (t : MemoryType) :
    Chronicle :=
  match st.findMemoryItem p with
  | none => h
  | some item =>
    if item.status = .allocated ∧ item.type = t then h.release p ⟨env.frames, false⟩ else h

/-- A realloc that moves an allocated block releases its address and registers the new one. -/
def Chronicle.reallocation (h : Chronicle) (st : State) (env : Env) (p : Addr) : Chronicle :=
  match st.findMemoryItem p with
  | none => h
  | some item =>
    if item.type = .malloc ∧ item.status = .allocated ∧ env.raw ≠ p then
      (h.release p ⟨env.frames, true⟩).registration st env .malloc
    else h

/-- What a call in the state `st` adds to the history. -/
def Chronicle.after (h : Chronicle) (st : State) (c : Call) (env : Env) : Chronicle :=
  match c.effect with
  | .allocate memoryType => if env.raw = 0 then h else h.registration st env memoryType
  | .release p t => h.deallocation st env p t
  | .move p _ => h.reallocation st env p
  | _ => h

/-- The same of any routine. An aligned allocation registers the address of its raw block. -/
def Chronicle.afterExported (h : Chronicle) (st : State) (env : Env) : ExportedCall → Chronicle
  | .plain c => h.after st c env
  | .newAligned count memoryType _ align =>
    if count ≠ 0 ∧ env.raw ≠ 0 ∧ (stdAlign (effectiveAlign align) count env.raw
        ((count + effectiveAlign align + sizeofVoidPtr) % sizeModulus)).isSome then
      h.registration st env memoryType
    else h

/-- The address that a call deallocates or reallocates. -/
def Call.address : Call → Addr
  | .delete p _ | .reAlloc p _ => p
  | _ => 0

/-- The type of the deallocation routine that a call uses. -/
def Call.routineType : Call → MemoryType
  | .delete _ t => t
  | _ => .malloc

/-- The report of a call agrees with the history of the address. -/
structure Faithful (h : Chronicle) (c : Call) (env : Env) (d : FailureData) : Prop where
  registered : h.registered c.address = some (d.allocType, d.stackAlloc)
  freeType : d.freeType = c.routineType
  failureAddress : d.failureAddress = c.address
  stackFree : ∀ rel, h.released c.address = some rel → d.stackFree = rel.stack
  analizeStack : d.analizeStack = env.frames

/-- The failures of operations on an address with a record. -/
def FailureType.onTracked : FailureType → Bool
  | .doubleFree | .freeMissmatch | .badReallocCreatedByWrongAlloc | .badReallocDeletedMem => true
  | _ => false

end CrashInvestigator.Tracker
