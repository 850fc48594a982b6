import CrashInvestigator.Tracker.Aligned
import CrashInvestigator.Reentry.Signals

/-!
# The routines as calls of the tracker

The two models of the exported routines: the programs of this folder, in which every request leaves the
file and may come back, and the functions of `Tracker`, in which a call is one step.
-/

namespace CrashInvestigator.Reentry

open Library.Reentrant

/-- The routine that a tree calls. -/
def routine {ι ω : Type} : Tree ι ω → ι
  | .node i _ => i

/-- The call of the tracker model. -/
def Routine.call : Routine → Tracker.ExportedCall
  | .alloc count memoryType bThrow => .plain (.alloc count memoryType bThrow)
  | .calloc nmemb size => .plain (.calloc nmemb size)
  | .reAlloc ptr count => .plain (.reAlloc ptr count)
  | .newAligned count memoryType bThrow align => .newAligned count memoryType bThrow align
  | .delete ptr typeExpected => .plain (.delete ptr typeExpected)
  | .setMaxAllowedAllocInTheSameStack newNumber =>
    .plain (.setMaxAllowedAllocInTheSameStack newNumber)

/-- The tables and all else but the raw blocks of the program, which the programs do not keep. -/
def bookkeeping (st : Tracker.State) : Tracker.State := { st with live := ∅ }

end CrashInvestigator.Reentry
