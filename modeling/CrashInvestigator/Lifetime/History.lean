import CrashInvestigator.Lifetime.Living

/-!
# Runs with their history

The history of the addresses, kept beside the tables. It is an observer: nothing that the process does
depends on it.
-/

namespace CrashInvestigator.Lifetime

open Tracker (Chronicle ExportedCall)

/-- What a call adds to the history of a process that runs. -/
def recordCall (h : Chronicle) (x : Except Misuse State) (c : ExportedCall × ExportedEnv) : Chronicle :=
  match x with
  | .error _ => h
  | .ok s =>
    if s.process = .running then h.afterExported s.abs (c.2.abs s.handlerTrace) c.1 else h

/-- One step of a run with its history. -/
def chronicledStep (x : Except Misuse State × Chronicle) (c : ExportedCall × ExportedEnv) :
    Except Misuse State × Chronicle :=
  (exportedStep x.1 c, recordCall x.2 x.1 c)

/-- The history of a run from the start. -/
def history (ndebug : Bool) (cs : List (ExportedCall × ExportedEnv)) : Chronicle :=
  (Library.Runs.final chronicledStep (.ok (.init ndebug), .empty) cs).2

end CrashInvestigator.Lifetime
