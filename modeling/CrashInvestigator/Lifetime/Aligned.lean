import CrashInvestigator.Lifetime.World

/-!
# Aligned new and delete over the real tables: statements

The release of a block by its address, and what an aligned allocation must meet for the release of the
address it returned to be the release of the raw block.
-/

namespace CrashInvestigator.Lifetime

open HashItems
open Tracker (Addr MemoryType)

/-- The release of `p` gives the raw block `raw` back and nothing else, without a report and without a
use of freed memory, and neither address is recorded as allocated any more. -/
def ReleasesBlock (w : World) (env : ExportedEnv) (p raw : Addr) (typeExpected : MemoryType) : Prop :=
  raw ∈ w.live ∧ ∃ r, exportedCall w.st env (.plain (.delete p typeExpected)) = .ok r ∧
    r.out = .returns 0 ∧ r.events = [.freen raw] ∧
      ∀ q, q = p ∨ q = raw → ¬ r.st.abs.RecordedAllocated q

/-- The entry of `m_stackItems` that counts the stack of the call. -/
def State.counterOf (s : State) (env : Env) : Option (Entry StackKey ℕ) :=
  env.stack.bind fun stack => s.stackItems.lookup ⟨s.traces.next, stack⟩

/-- The raw block is aligned, its stack is captured and can be found again, its registration reports no
leak, and if the stack has one block that is counted already and stays the only one, its item can be
removed. -/
structure RoundTrips (s : State) (env : Env) (align : ℕ) : Prop where
  aligned : max align Tracker.stdcppDefaultNewAlignment ∣ env.raw
  captured : ∃ stack ∈ env.stack, stack.ppBuffer ≠ []
  unreported : ∀ k ∈ s.counterOf env, s.unMaxNumberOfAllocFromTheSameStack = 0 ∨
    k.value < s.unMaxNumberOfAllocFromTheSameStack
  removable : s.unMaxNumberOfAllocFromTheSameStack = 0 → ∀ k ∈ s.counterOf env, k.value = 1 →
    RemovesAlive s.stackItems k.iterator

instance (s : State) (env : Env) (align : ℕ) : Decidable (RoundTrips s env align) :=
  decidable_of_iff (_ ∧ _ ∧ _ ∧ _) ⟨fun h => ⟨h.1, h.2.1, h.2.2.1, h.2.2.2⟩,
    fun h => ⟨h.1, h.2, h.3, h.4⟩⟩

end CrashInvestigator.Lifetime
