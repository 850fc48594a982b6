import CrashInvestigator.Lifetime.Exported
import CrashInvestigator.Tracker.Chronicle
import CrashInvestigator.Tracker.Proofs.OwnershipProofs

/-!
# Calls that meet no freed `Backtrace`

What must hold before a call for it to use nothing that was freed: the items of the two tables are
treated as in `Sensible`, the record that the call reads has its traces, and the record that it replaces
takes no key of `m_stackItems` with it.
-/

namespace CrashInvestigator.Lifetime

open HashItems
open Tracker (Addr BacktracePtr ExportedCall)

/-- The address that a call is passed. -/
def passedAddress : ExportedCall → Addr
  | .plain c => c.address
  | .newAligned _ _ _ _ => 0

/-- The call enters its block in `m_memoryItems`. -/
def State.registers (s : State) (env : ExportedEnv) : ExportedCall → Bool
  | .plain (.alloc count _ _) => count ≠ 0 && env.raw ≠ 0
  | .plain (.calloc nmemb size) => nmemb * size % Tracker.sizeModulus ≠ 0 && env.raw ≠ 0
  | .plain (.reAlloc ptr count) =>
    count ≠ 0 &&
      if ptr = 0 then env.raw ≠ 0 else (s.takesOut env (.plain (.reAlloc ptr count))).isSome
  | .newAligned count _ _ align =>
    count ≠ 0 && env.raw ≠ 0 &&
      (Tracker.stdAlign (Tracker.effectiveAlign align) count env.raw
        ((count + Tracker.effectiveAlign align + Tracker.sizeofVoidPtr) %
          Tracker.sizeModulus)).isSome
  | _ => false

/-- No trace of the record of `p` was freed. -/
def State.RecordAlive (s : State) (p : Addr) : Prop :=
  ∀ e ∈ s.memoryItems.lookup p, ∀ t ∈ e.value.traces, s.traces.frees t = 0

instance (s : State) (p : Addr) : Decidable (s.RecordAlive p) :=
  inferInstanceAs (Decidable (∀ e ∈ s.memoryItems.lookup p, ∀ t ∈ e.value.traces,
    s.traces.frees t = 0))

/-- No trace of the record of `p` is a key of the stacks. -/
def State.RecordUncounted (s : State) (stackItems : Session StackKey ℕ) (p : Addr) : Prop :=
  ∀ e ∈ s.memoryItems.lookup p, ∀ t ∈ e.value.traces, ∀ k ∈ stackItems.entries, k.key.trace ≠ t

instance (s : State) (stackItems : Session StackKey ℕ) (p : Addr) :
    Decidable (s.RecordUncounted stackItems p) :=
  inferInstanceAs (Decidable (∀ e ∈ s.memoryItems.lookup p, ∀ t ∈ e.value.traces,
    ∀ k ∈ stackItems.entries, k.key.trace ≠ t))

/-- The call is sensible, the record of the address that it is passed has its traces, and the record
that its block replaces frees its own traces only. -/
structure Clean (s : State) (c : ExportedCall × ExportedEnv) : Prop extends Sensible s c where
  record : s.RecordAlive (passedAddress c.1)
  replaced : s.registers c.2 c.1 = true →
    s.RecordAlive c.2.raw ∧ s.RecordUncounted (s.itemsAtRegistration c.2 c.1) c.2.raw

instance (s : State) (c : ExportedCall × ExportedEnv) : Decidable (Clean s c) :=
  decidable_of_iff (Sensible s c ∧ s.RecordAlive (passedAddress c.1) ∧
      (s.registers c.2 c.1 = true →
        s.RecordAlive c.2.raw ∧ s.RecordUncounted (s.itemsAtRegistration c.2 c.1) c.2.raw))
    ⟨fun h => ⟨h.1, h.2.1, h.2.2⟩, fun h => ⟨h.1, h.2, h.3⟩⟩

/-- The same of a run that goes on. -/
def CleanStep (x : Except Misuse State) (c : ExportedCall × ExportedEnv) : Prop :=
  ∀ s ∈ x.toOption, s.process = .running → Clean s c

instance (x : Except Misuse State) (c : ExportedCall × ExportedEnv) : Decidable (CleanStep x c) :=
  inferInstanceAs (Decidable (∀ s ∈ x.toOption, s.process = .running → Clean s c))

end CrashInvestigator.Lifetime
