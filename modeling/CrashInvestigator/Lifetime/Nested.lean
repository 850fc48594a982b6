import CrashInvestigator.Lifetime.World
import CrashInvestigator.Tracker.Nesting

/-!
# Nested calls over the real tables: statements

An outermost call with the calls that are made inside it, while `s_bIsAllocingOrDeallocing` is set. These
touch nothing but the raw allocator, so it only matters on which side of the raw request of the outermost
call they lie.
-/

namespace CrashInvestigator.Lifetime

open Library
open Tracker (Addr BlockLedger)

/-- The process and what happened to its blocks. -/
structure Ledger where
  world : World
  /-- The registered blocks that did not go back to the raw allocator. -/
  live : Finset Addr
  /-- The blocks that a nested call released and that were not issued again. -/
  freedInside : Finset Addr

def Ledger.init (ndebug : Bool) : Ledger := ⟨.init ndebug, ∅, ∅⟩

def Ledger.abs (l : Ledger) : BlockLedger := ⟨l.world.abs, l.live, l.freedInside⟩

def ExportedRes.freed (r : ExportedRes) : List Addr := r.events.filterMap Tracker.Event.freed

def ExportedRes.issued (r : ExportedRes) : List Addr := r.events.filterMap Tracker.Event.issued

def World.withFlag (w : World) (b : Bool) : World :=
  { w with st := { w.st with bIsAllocingOrDeallocing := b } }

/-- A nested call. -/
def nestedCall (x : Except Misuse Ledger) (c : Tracker.Call × ExportedEnv) : Except Misuse Ledger :=
  x.bind fun l => (exportedCall (l.world.withFlag true).st c.2 (.plain c.1)).map fun r =>
    { world := (l.world.after r).withFlag l.world.st.bIsAllocingOrDeallocing
      live := l.live \ r.freed.toFinset
      freedInside := (l.freedInside ∪ r.freed.toFinset) \ r.issued.toFinset }

/-- An outermost call. -/
def outermostCall (x : Except Misuse Ledger) (c : Tracker.Call × ExportedEnv) : Except Misuse Ledger :=
  x.bind fun l => (exportedCall l.world.st c.2 (.plain c.1)).map fun r =>
    { world := l.world.after r
      live := l.live \ r.freed.toFinset ∪
        if r.out = .returns c.2.raw then
          (l.world.abs.registered (c.1, l.world.answers c.2)).toFinset
        else ∅
      freedInside := l.freedInside \ r.issued.toFinset }

/-- An outermost call with the calls inside it. -/
structure MixedCall where
  before : List (Tracker.Call × ExportedEnv)
  outermost : Tracker.Call × ExportedEnv
  after : List (Tracker.Call × ExportedEnv)

/-- The ledger when the raw request of the outermost call is made, and after that call. -/
def entered (x : Except Misuse Ledger) (m : MixedCall) : Except Misuse Ledger :=
  Runs.final nestedCall x m.before

def served (x : Except Misuse Ledger) (m : MixedCall) : Except Misuse Ledger :=
  outermostCall (entered x m) m.outermost

def Ledger.running (x : Except Misuse Ledger) : Bool :=
  x.toOption.any fun l => l.world.st.process = .running

/-- One step of a run; nothing is done after a misuse or the end of the process. -/
def mixedStep (x : Except Misuse Ledger) (m : MixedCall) : Except Misuse Ledger :=
  if Ledger.running x = false then x
  else if Ledger.running (served x m) = false then served x m
  else Runs.final nestedCall (served x m) m.after

/-! ## What is claimed and what it takes -/

/-- Nothing was misused, and the records of the tables tell the truth about the registered blocks. -/
def TruthfulTables (x : Except Misuse Ledger) : Prop := ∃ l, x = .ok l ∧ l.abs.Truthful

/-- The release of a block that a nested call released before is a double free. -/
def ReportsStaleCall (x : Except Misuse Ledger) (m : MixedCall) : Prop :=
  ∀ p t, m.outermost.1.effect = .release p t → ∀ l ∈ (entered x m).toOption, p ∈ l.freedInside →
    ∃ r, exportedCall l.world.st m.outermost.2 (.plain m.outermost.1) = .ok r ∧
      (∃ d a, .clbkFnc d a ∈ r.events ∧ d.failureType = .doubleFree) ∧ p ∉ r.freed

/-- The step in the terms of the tracker. -/
def mirroredCall (x : Except Misuse Ledger) (m : MixedCall) : Tracker.MixedCall :=
  let answers : Tracker.Call × ExportedEnv → Tracker.Call × Tracker.Env := fun c =>
    (c.1, c.2.abs (x.toOption.bind fun l => l.world.st.handlerTrace))
  ⟨m.before.map answers, answers m.outermost, m.after.map answers⟩

/-- The outermost call is clean, and the step keeps the tracker truthful. -/
structure KeepsTruth (x : Except Misuse Ledger) (m : MixedCall) : Prop where
  tracked : ∀ l ∈ x.toOption, Tracker.KeepsTruth l.abs (mirroredCall x m)
  clean : ∀ l ∈ (entered x m).toOption, Clean l.world.st (.plain m.outermost.1, m.outermost.2)

end CrashInvestigator.Lifetime
