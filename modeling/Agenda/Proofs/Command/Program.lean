import Agenda.Command.Program
import Agenda.Proofs.Command.Run
import Agenda.Proofs.Failure
/-!
The outcome of the program in terms of its run. A command that the arguments name is run, and the outcome has an exit
code other than 0 and a complaint just when the run failed.
-/
namespace Agenda

variable {w : World} {name : String} {a : Arguments} {level : Option Level} {f : Failure}

theorem runProgram_of_command (h : (Arguments.ofList w.arguments).command Manual.program = .ok (name, a)) :
    runProgram w =
      if name = "next" then runNext w a
      else if name = "rule" then runRules w a
      else if name = "task" then runTaskCommand w a
      else Run.fail (.of (.argument (.unknownCommand name))) := by
  have hargs : w.arguments.isEmpty = false := by
    cases hw : w.arguments with
    | nil =>
      rw [hw] at h
      cases h
    | cons item items => rfl
  rw [runProgram, hargs, if_neg Bool.false_ne_true, runCommand, h]

theorem World.outcome_of_level (h : w.environment.level = .ok level) :
    w.outcome = Outcome.ofRun w (runProgram w w.console) := by
  rw [World.outcome, h]

theorem World.level_console (h : w.environment.level = .ok level) : w.console.level = level := by
  change w.environment.keptLevel = level
  rw [Environment.keptLevel, h]

namespace Outcome

theorem codeOf_bounds (f : Failure) : 1 ≤ codeOf f ∧ codeOf f ≤ 2 := by
  unfold codeOf
  split
  · exact ⟨Nat.le_succ 1, Nat.le_refl 2⟩
  · exact ⟨Nat.le_refl 1, Nat.le_succ 1⟩

theorem codeOf_eq_two_iff : codeOf f = 2 ↔ f.isFault = true := by
  unfold codeOf
  split
  case isTrue h => simp [h]
  case isFalse h => simp [h]

end Outcome

/-- A run that does not fail has the exit code 0 and no complaint. -/
theorem World.outcome_cases (h : w.environment.level = .ok level) :
    (∀ f, (runProgram w w.console).1 ≠ .error (.failed f)) ∧ w.outcome.exitCode = 0 ∧ w.outcome.complaint = none ∨
      ∃ f, (runProgram w w.console).1 = .error (.failed f) ∧ w.outcome.exitCode = Outcome.codeOf f ∧
        w.outcome.complaint = some (Outcome.complaintOf w.environment f) := by
  rw [World.outcome_of_level h]
  rcases runProgram w w.console with ⟨result, c⟩
  cases result with
  | ok _ =>
    left
    refine ⟨fun f hf => ?_, rfl, rfl⟩
    cases hf
  | error s =>
    cases s with
    | page text =>
      left
      refine ⟨fun f hf => ?_, rfl, rfl⟩
      cases hf
    | closed =>
      left
      refine ⟨fun f hf => ?_, rfl, rfl⟩
      cases hf
    | failed f => exact Or.inr ⟨f, rfl, rfl, rfl⟩

theorem World.exitCode_spec (h : w.environment.level = .ok level) : w.outcome.exitCode ≤ 2 ∧
    (w.outcome.exitCode = 0 ↔ w.outcome.complaint = none) ∧
      (w.outcome.exitCode = 0 ↔ ∀ f, (runProgram w w.console).1 ≠ .error (.failed f)) := by
  rcases World.outcome_cases h with ⟨hnot, hzero, hquiet⟩ | ⟨f, hf, hcode, htold⟩
  · rw [hzero, hquiet]
    exact ⟨Nat.zero_le 2, by simp, by simpa using hnot⟩
  · obtain ⟨hpos, hle⟩ := Outcome.codeOf_bounds f
    have hne : Outcome.codeOf f ≠ 0 := Nat.ne_of_gt hpos
    rw [hcode, htold, hf]
    exact ⟨hle, by simp [hne], by simp [hne]⟩

theorem isFault_of_level {e : Environment} (h : e.level = .error f) : f.isFault = false := by
  unfold Environment.level at h
  dsimp only at h
  repeat' split at h
  all_goals cases h
  rfl

/-- Without a level of records the program does not run. -/
theorem World.outcome_of_level_error (h : w.environment.level = .error f) :
    w.outcome.exitCode = 1 ∧ w.outcome.complaint = some (Outcome.complaintOf w.environment f) := by
  rw [World.outcome, h]
  exact ⟨if_neg (by simp [isFault_of_level h]), rfl⟩

end Agenda
