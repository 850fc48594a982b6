import CrashInvestigator.Library.Simulation
import CrashInvestigator.Lifetime.Proofs.LivingProofs
import CrashInvestigator.Lifetime.World

/-!
# Clean calls follow the tracker

What a clean call does to the tables and to the raw blocks is exactly what the tracker does, so that
what is known of the tracker holds of the tables over clean runs.
-/

namespace CrashInvestigator.Lifetime

open Library
open Reentry (bookkeeping)
open Tracker (ExportedCall)

variable {w : World} {c : ExportedCall × ExportedEnv}

/-- The notes for the signal handler do not touch the raw blocks. -/
theorem foldl_rawBlocks_filter (L : Finset Tracker.Addr) (events : List Tracker.Event) :
    (events.filter fun e => !isNote e).foldl Tracker.Event.rawBlocks L =
      events.foldl Tracker.Event.rawBlocks L := by
  induction events generalizing L with
  | nil => rfl
  | cons e events ih =>
    cases e with
    | handlerMemoryInit item => exact ih L
    | _ => exact ih _

theorem World.outermost (h : Intact w.st) (hrun : w.st.process = .running) : w.abs.Outermost :=
  ⟨hrun, h.flag⟩

/-- The result of a clean call mirrors that of the tracker, raw blocks included. -/
theorem World.call_mirrors (h : Intact w.st) (hrun : w.st.process = .running) (hC : Clean w.st c) :
    ∃ r, exportedCall w.st c.2 c.1 = .ok r ∧ Intact r.st ∧
      Mirrors r (Tracker.exportedCall w.abs (w.answers c.2) c.1) ∧
      (w.after r).abs = (Tracker.exportedCall w.abs (w.answers c.2) c.1).st := by
  obtain ⟨r, hok, hintact⟩ := h.exportedCall hC
  have hmirrored : Mirrored w.st w.abs := ⟨h.tables, h.flag, rfl⟩
  obtain ⟨-, hmirrors⟩ := hmirrored.call hrun hC.toSensible hok
  refine ⟨r, hok, hintact, hmirrors, ?_⟩
  have hlive := Tracker.exportedCall_rawFrom (w.answers c.2) (World.outermost h hrun) c.1
  have hevents : r.events.foldl Tracker.Event.rawBlocks w.live =
      (Tracker.exportedCall w.abs (w.answers c.2) c.1).st.live := by
    rw [hlive, ← hmirrors.events]
    exact foldl_rawBlocks_filter w.live _
  show r.st.abs.withLive (r.events.foldl Tracker.Event.rawBlocks w.live) = _
  rw [hevents, ← hmirrors.st]
  rfl

/-- One step of a run whose next call is clean. -/
theorem World.step_mirrors (h : Intact w.st) (hC : w.st.process = .running → Clean w.st c) :
    ∃ w', worldStep (.ok w) c = .ok w' ∧ Intact w'.st ∧
      w'.abs = Tracker.exportedStep w.abs (c.1, w.answers c.2) := by
  have hprocess : w.abs.process = w.st.process := rfl
  unfold worldStep Tracker.exportedStep
  by_cases hrun : w.st.process = .running
  · obtain ⟨r, hok, hintact, -, habs⟩ := World.call_mirrors h hrun (hC hrun)
    exact ⟨w.after r, by simp only [if_pos hrun, hok, Except.map], hintact,
      by rw [habs, hprocess, if_pos hrun]⟩
  · exact ⟨w, if_neg hrun, h, by rw [hprocess, if_neg hrun]⟩

/-! ## Runs -/

/-- Nothing was misused, and `T` is the tracker's state of the process. -/
def Follows (x : Except Misuse World) (T : Tracker.State) : Prop :=
  ∃ w, x = .ok w ∧ Intact w.st ∧ w.abs = T

/-- The label of the tracker's run. -/
def worldLabel (x : Except Misuse World) (c : ExportedCall × ExportedEnv) :
    ExportedCall × Tracker.Env :=
  (c.1, (x.toOption.map fun w => w.answers c.2).getD (c.2.abs none))

variable {x : Except Misuse World} {T : Tracker.State}

theorem Follows.init : Follows (.ok (.init false)) .init := ⟨_, rfl, .init false, rfl⟩

theorem Follows.step (h : Follows x T) (hC : CleanWorldStep x c) :
    Follows (worldStep x c) (Tracker.exportedStep T (worldLabel x c)) := by
  obtain ⟨w, rfl, hw, rfl⟩ := h
  obtain ⟨w', hstep, hw', habs⟩ := World.step_mirrors hw (hC w rfl)
  exact ⟨w', hstep, hw', habs⟩

/-- A clean run is one of the tracker. -/
theorem Follows.run {cs : List (ExportedCall × ExportedEnv)}
    (hcs : Runs.Along worldStep CleanWorldStep (.ok (.init false)) cs) :
    ∃ ms, Follows (Runs.final worldStep (.ok (.init false)) cs)
      (Runs.final Tracker.exportedStep .init ms) :=
  ⟨_, Simulation.final_translate (fun _ _ _ h hC => h.step hC) Follows.init hcs⟩

end CrashInvestigator.Lifetime
