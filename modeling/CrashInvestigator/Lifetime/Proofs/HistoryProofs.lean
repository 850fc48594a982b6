import CrashInvestigator.Lifetime.History
import CrashInvestigator.Lifetime.Proofs.LivingProofs
import CrashInvestigator.Tracker.Proofs.ReportProofs

/-!
# Reports and history

Over clean runs the records of the tables are what the history says, and what a report on a recorded
address says of it is right up to the type of the routine and the stacks that do not reach it.
-/

namespace CrashInvestigator.Lifetime

open Library
open Tracker (Chronicle Disclosed ExportedCall Faithful FailureAction FailureData)

variable {s : State} {h : Chronicle} {c : ExportedCall × ExportedEnv}

/-- Nothing was misused, and while the process runs the history tells of its records. -/
def Chronicled (x : Except Misuse State × Chronicle) : Prop :=
  ∃ s, x.1 = .ok s ∧ Intact s ∧ (s.process = .running → x.2.Tells s.abs)

theorem Chronicled.init (ndebug : Bool) : Chronicled (.ok (.init ndebug), .empty) :=
  ⟨_, rfl, .init ndebug, fun _ p item hf => by cases hf⟩

theorem Chronicled.step {x : Except Misuse State × Chronicle} (hx : Chronicled x)
    (hC : CleanStep x.1 c) : Chronicled (chronicledStep x c) := by
  obtain ⟨x, h⟩ := x
  obtain ⟨s, rfl, hs, htells⟩ := hx
  by_cases hrun : s.process = .running
  · obtain ⟨r, hok, hintact, hmirrors⟩ := hs.mirrors hrun (hC s rfl hrun)
    have hfst : (chronicledStep (.ok s, h) c).1 = .ok r.st := by
      simp only [chronicledStep, exportedStep, if_pos hrun, hok, Except.map]
    refine ⟨r.st, hfst, hintact, fun hgo => ?_⟩
    have hprocess : (Tracker.exportedCall s.abs (c.2.abs s.handlerTrace) c.1).st.process = .running := by
      have hst := congrArg Tracker.State.process hmirrors.st
      exact hst.trans hgo
    have hcall := (htells hrun).exportedCall ⟨hrun, hs.flag⟩ c.1 hprocess
    have hsnd : (chronicledStep (.ok s, h) c).2 =
        h.afterExported s.abs (c.2.abs s.handlerTrace) c.1 := if_pos hrun
    rw [hsnd, ← hmirrors.st]
    exact hcall.same rfl (Tracker.extends_of_eq rfl rfl)
  · have hstep : chronicledStep (.ok s, h) c = (.ok s, h) := by
      simp only [chronicledStep, exportedStep, recordCall, if_neg hrun]
    rw [hstep]
    exact ⟨s, rfl, hs, htells⟩

/-- By induction on the run: the history tells of the records of the state in which it ends. -/
theorem Chronicled.run {ndebug : Bool} {cs : List (ExportedCall × ExportedEnv)}
    (hcs : Runs.Along exportedStep CleanStep (.ok (.init ndebug)) cs) :
    Chronicled (Runs.final exportedStep (.ok (.init ndebug)) cs, history ndebug cs) := by
  have hall : ∀ {x : Except Misuse State × Chronicle}, Chronicled x →
      Runs.Along exportedStep CleanStep x.1 cs →
      Chronicled (Runs.final exportedStep x.1 cs, (Runs.final chronicledStep x cs).2) := by
    clear hcs
    induction cs with
    | nil => exact fun hx _ => hx
    | cons c cs ih => exact fun hx hC => ih (hx.step hC.1) hC.2
  exact hall (Chronicled.init ndebug) hcs

end CrashInvestigator.Lifetime
