import Agenda.Proofs.Command.Alike
import Agenda.Proofs.Command.Levels
import Agenda.Proofs.Command.Rules
/-!
Diagnostics and results. Which records are kept and how they look is for the environment and the terminal to say, and
the outcome of a run has the same exit code, lines and complaint whatever they say. The records that are kept at a level
are those of a run that keeps all of them, as far as they matter enough for the level.
-/
namespace Agenda

open Text

/-- What says which records are kept and how they look. -/
structure Diagnostics where
  logLevel : Option Bytes
  noColor : Option Bytes
  terminal : Option Bytes
  hasTerminal : Bool

/-- The run with other diagnostics. -/
def World.diagnosed (w : World) (g : Diagnostics) : World :=
  { w with
    environment := { w.environment with logLevel := g.logLevel, noColor := g.noColor, terminal := g.terminal }
    hasTerminal := g.hasTerminal }

namespace Outcome

variable {level : Option Level}

/-- The outcome with the records of a level only. -/
def limited (level : Option Level) (o : Outcome) : Outcome :=
  { o with records := o.records.filter (·.isKept level) }

theorem ofRun_limited (w : World) (result : Except Stop Unit) (c : Console) :
    ofRun w (result, c.limited level) = (ofRun w (result, c)).limited level := by
  have hrecords : (c.limited level).records.reverse = c.records.reverse.filter (·.isKept level) :=
    List.filter_reverse.symm
  cases result with
  | ok _ =>
    rw [ofRun, hrecords]
    rfl
  | error s =>
    cases s with
    | page text | closed | failed f =>
      rw [ofRun, hrecords]
      rfl

end Outcome

namespace World

variable {w : World} {level : Option Level}

/-- The outcome of the program when it keeps all records. -/
def traced (w : World) : Outcome :=
  Outcome.ofRun w (runProgram w (Console.start w.stdin w.isOpen (some .trace)))

/-- At any level the outcome is that of a run that keeps all records, with the records of the level. -/
theorem outcome_eq_limited (h : w.environment.level = .ok level) : w.outcome = w.traced.limited level := by
  have hconsole : w.console = (Console.start w.stdin w.isOpen (some .trace)).limited level := by
    have hlevel : w.environment.keptLevel = Level.lower (some .trace) level := by
      rw [Environment.keptLevel, h, Level.lower_trace]
    exact congrArg (Console.start w.stdin w.isOpen) hlevel
  rw [outcome_of_level h, hconsole, isSteady_runProgram w level, Outcome.ofRun_limited]
  rfl

/-- The program looks at no diagnostics but the level of records. -/
theorem traced_diagnosed (w : World) (g : Diagnostics) : (w.diagnosed g).traced = w.traced :=
  rfl

end World

/-- Diagnostics do not change what a run comes to: with any two of them, of which none asks for a level of records that
does not exist, what is printed, the exit code and the complaint are the same. The records of a run are those of the run
that keeps all of them that are of its level or matter more, in the same order. -/
theorem diagnostics_keep_results (w : World) (g g' : Diagnostics) {level level' : Option Level}
    (h : (w.diagnosed g).environment.level = .ok level) (h' : (w.diagnosed g').environment.level = .ok level') :
    (w.diagnosed g).outcome.SameAnswer (w.diagnosed g').outcome ∧
      (level' = some .trace →
        (w.diagnosed g).outcome.records = (w.diagnosed g').outcome.records.filter (·.isKept level)) := by
  rw [World.outcome_eq_limited h, World.outcome_eq_limited h', w.traced_diagnosed, w.traced_diagnosed]
  refine ⟨⟨rfl, rfl, rfl⟩, ?_⟩
  rintro rfl
  have hall : w.traced.records.filter (·.isKept (some .trace)) = w.traced.records :=
    List.filter_eq_self.mpr fun r _ => r.isKept_trace
  change _ = (w.traced.records.filter (·.isKept (some .trace))).filter (·.isKept level)
  rw [hall]
  rfl

/-- A task that is moved, one that is over and a line that is no task, at the debug level without colors and at the
trace level on a terminal. -/
theorem diagnostics_keep_results_up_to_broken_line : ∃ w : World, ∃ g g' : Diagnostics,
    (w.diagnosed g).environment.level = .ok (some .debug) ∧ (w.diagnosed g').environment.level = .ok (some .trace) ∧
      (w.diagnosed g').outcome.exitCode = 1 ∧ (w.diagnosed g').outcome.records.length = 5 ∧
      (w.diagnosed g).outcome.exitCode = 1 ∧ (w.diagnosed g).outcome.stdout = (w.diagnosed g').outcome.stdout ∧
      (w.diagnosed g).outcome.complaint = (w.diagnosed g').outcome.complaint ∧
      (w.diagnosed g).outcome.records = (w.diagnosed g').outcome.records.filter (·.isKept (some .debug)) := by
  let w := World.ofTexts ["task", "done", "-n", "20240126"]
    ["\x7b\"title\":\"rent\",\"date\":\"20240101\",\"repeat\":\"m 1\"\x7d\n", "\x7b\"title\":\"call mom\"\x7d\n\x7b"]
  let g : Diagnostics := ⟨some (Environment.bytesOf "debug"), some (Environment.bytesOf "1"), none, false⟩
  let g' : Diagnostics := ⟨some (Environment.bytesOf "trace"), none, some (Environment.bytesOf "xterm"), true⟩
  have h : (w.diagnosed g).environment.level = .ok (some .debug) := rfl
  have h' : (w.diagnosed g').environment.level = .ok (some .trace) := rfl
  have hcode : (w.diagnosed g').outcome.exitCode = 1 := by decide +kernel
  have hlength : (w.diagnosed g').outcome.records.length = 5 := by decide +kernel
  obtain ⟨hsame, hrecords⟩ := diagnostics_keep_results w g g' h h'
  exact ⟨w, g, g', h, h', hcode, hlength, hsame.exitCode.symm.trans hcode, hsame.stdout.symm, hsame.complaint.symm,
    hrecords rfl⟩

end Agenda
