import CrashInvestigator.Library.Interrupts
import CrashInvestigator.Reentry.Proofs.SafetyProofs

/-!
# Signals during a call

The program's signal handlers may call the routines, at any access of a call that is under way on
the same thread. While the nesting flag is set this is a nested call. A signal that finds the flag
unset makes an outermost call, one of those before or after.
-/

namespace CrashInvestigator.Reentry

open Library.Reentrant
open Tracker (Addr)

/-- The routines that allocate and release. -/
def Routine.Allocates : Routine → Prop
  | .setMaxAllowedAllocInTheSameStack _ => False
  | _ => True

abbrev AllocRoutine := { i : Routine // i.Allocates }

/-- The body of a call that signals interrupt while the flag is set. -/
def interruptible (i : AllocRoutine) : Prog State (Option Query) Answer Violation Addr :=
  (body i.1).interrupted State.isAllocing

/-- `InitFunction` has returned. -/
structure Inited (s : State) : Prop where
  once : s.onceControl = .done
  initFunction : s.isInitFunction = false
  notInited : s.isNotInited = false

/-- `t'` is the call `t` without the signals and the calls inside it, over some of its answers. -/
def Undisturbed (t : Tree AllocRoutine Answer) (t' : Tree Routine Answer) : Prop :=
  match t with
  | .node i script =>
    ∃ ws : List Answer, ws.Sublist (script.map Prod.snd) ∧ t' = .node i.1 (bare ws)

/-- A script line on which nothing arrives. -/
def quietLine : List (Tree AllocRoutine Answer) × Answer := ([], .block 16)

/-- A signal whose handler allocates, one answer for each of its accesses. -/
def handlerAllocates : Tree AllocRoutine Answer :=
  .node ⟨.alloc 8 .malloc false, trivial⟩ (List.replicate 5 quietLine)

end CrashInvestigator.Reentry
