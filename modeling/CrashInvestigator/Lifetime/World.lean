import CrashInvestigator.Lifetime.Living
import CrashInvestigator.Tracker.Proofs.RawEventProofs

/-!
# The process with its raw blocks

The tables know of no block of the raw allocator. Here the blocks that are in use are kept beside them, as
the events of the calls say, and what the program does can be compared with them.
-/

namespace CrashInvestigator.Lifetime

open Tracker (Addr ExportedCall)

/-- The tables and the blocks of the program that are in use. -/
structure World where
  st : State
  live : Finset Addr

def World.init (ndebug : Bool) : World := ⟨.init ndebug, ∅⟩

/-- The state of the tracker model. -/
def World.abs (w : World) : Tracker.State := w.st.abs.withLive w.live

/-- The answers to a call in the terms of the tracker. -/
def World.answers (w : World) (env : ExportedEnv) : Tracker.Env := env.abs w.st.handlerTrace

/-- What a call leaves. -/
def World.after (w : World) (r : ExportedRes) : World :=
  ⟨r.st, r.events.foldl Tracker.Event.rawBlocks w.live⟩

/-- One step of a run; nothing is done after a misuse or the end of the process. -/
def worldStep (x : Except Misuse World) (c : ExportedCall × ExportedEnv) : Except Misuse World :=
  match x with
  | .error m => .error m
  | .ok w =>
    if w.st.process = .running then (exportedCall w.st c.2 c.1).map w.after else .ok w

/-- The process runs. -/
def Running (x : Except Misuse World) : Prop := ∃ w, x = .ok w ∧ w.st.process = .running

/-- The call is clean, as long as the process runs. -/
def CleanWorldStep (x : Except Misuse World) (c : ExportedCall × ExportedEnv) : Prop :=
  ∀ w ∈ x.toOption, w.st.process = .running → Clean w.st c

instance (x : Except Misuse World) (c : ExportedCall × ExportedEnv) :
    Decidable (CleanWorldStep x c) :=
  inferInstanceAs (Decidable (∀ w ∈ x.toOption, w.st.process = .running → Clean w.st c))

end CrashInvestigator.Lifetime
