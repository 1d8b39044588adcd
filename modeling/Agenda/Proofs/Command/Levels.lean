import Agenda.Command.Program
import Agenda.Proofs.Command.Lines
/-!
Runs at a level of records. A record is dropped as soon as it is made when the level of the console does not ask for it,
so a console that keeps fewer records can be had from one that keeps more: its records are left out and its level is
lowered. Every part of a run commutes with that, and so does the run as a whole: it takes the same course at each level.
-/
namespace Agenda

open Text

/-- The level that keeps the records that both of two levels keep. -/
def Level.lower : Option Level → Option Level → Option Level
  | some a, some b => some (if a.rank ≤ b.rank then a else b)
  | _, _ => none

section Levels

variable {level level' : Option Level} (r : Record)

theorem Record.isKept_lower : r.isKept (Level.lower level level') = (r.isKept level && r.isKept level') := by
  cases level with
  | none => rfl
  | some a =>
    cases level' with
    | none => exact (Bool.and_false _).symm
    | some b =>
      change decide (r.level.rank ≤ (if a.rank ≤ b.rank then a else b).rank) =
        (decide (r.level.rank ≤ a.rank) && decide (r.level.rank ≤ b.rank))
      rw [← Bool.decide_and]
      split_ifs with h
      · exact decide_eq_decide.mpr ⟨fun hr => ⟨hr, hr.trans h⟩, fun hr => hr.1⟩
      · exact decide_eq_decide.mpr ⟨fun hr => ⟨hr.trans (le_of_not_ge h), hr⟩, fun hr => hr.2⟩

theorem Level.rank_le_trace (l : Level) : l.rank ≤ Level.trace.rank := by
  cases l <;> decide

/-- No record matters less than those at the trace level. -/
theorem Record.isKept_trace : r.isKept (some .trace) = true :=
  decide_eq_true r.level.rank_le_trace

theorem Level.lower_trace (level : Option Level) : lower (some .trace) level = level := by
  cases level with
  | none => rfl
  | some l =>
    change some (if Level.trace.rank ≤ l.rank then Level.trace else l) = some l
    split_ifs with h
    · cases l with
      | trace => rfl
      | error | warn | info | debug => exact absurd h (by decide)
    · rfl

end Levels

/-- The console that keeps the records of a level only, and has kept no others. -/
def Console.limited (level : Option Level) (c : Console) : Console :=
  { c with level := Level.lower c.level level, records := c.records.filter (·.isKept level) }

namespace Run

variable {α β : Type} {run : Run α} {f : α → Run β}

/-- Whether a run takes the same course from a console that keeps fewer records, and leaves the console that keeps
fewer records. -/
def IsSteady (run : Run α) : Prop :=
  ∀ level c, run (c.limited level) = ((run c).1, (run c).2.limited level)

theorem IsSteady.of_eq {result : Except Stop α} {c c' : Console} (h : run.IsSteady) (hc : run c = (result, c'))
    (level : Option Level) : run (c.limited level) = (result, c'.limited level) := by
  rw [h level c, hc]

theorem isSteady_done (a : α) : (done a).IsSteady :=
  fun _ _ => rfl

theorem isSteady_stop (s : Stop) : (stop s : Run α).IsSteady :=
  fun _ _ => rfl

theorem isSteady_ofExcept (result : Except Failure α) : (ofExcept result).IsSteady := by
  cases result with
  | ok a => exact isSteady_done a
  | error f => exact isSteady_stop (.failed f)

theorem isSteady_print (line : String) : (print line).IsSteady := by
  intro level c
  unfold print
  have hopen : (c.limited level).isOpen = c.isOpen := rfl
  rw [hopen]
  split_ifs <;> rfl

/-- Of the records that are made a console that keeps fewer keeps those that it would have kept of the others. -/
theorem isSteady_record (rs : List Record) : (record rs).IsSteady := by
  intro level c
  have hkept : (rs.filter (·.isKept (Level.lower c.level level))).reverse ++ c.records.filter (·.isKept level) =
      ((rs.filter (·.isKept c.level)).reverse ++ c.records).filter (·.isKept level) := by
    rw [List.filter_append, List.filter_reverse, List.filter_filter]
    simp only [Record.isKept_lower, Bool.and_comm]
  rw [record_eq, record_eq]
  exact congrArg (fun records => (Except.ok (), ({ c.limited level with records } : Console))) hkept

theorem IsSteady.bind (h : run.IsSteady) (hf : ∀ a, (f a).IsSteady) : (run >>= f).IsSteady := by
  intro level c
  rcases hc : run c with ⟨s | a, c'⟩
  · rw [bind_of_error (h.of_eq hc level), bind_of_error hc]
  · rw [bind_of_ok (h.of_eq hc level), bind_of_ok hc]
    exact hf a level c'

theorem IsSteady.during (h : run.IsSteady) (context : Context) : (Run.during context run).IsSteady := by
  intro level c
  unfold Run.during
  rcases hc : run c with ⟨s | a, c'⟩
  · rw [h.of_eq hc level]
  · rw [h.of_eq hc level]

variable {τ : Type}

theorem isSteady_each {act : τ → Run Unit} (h : ∀ t, (act t).IsSteady) (ts : List τ) : (each act ts).IsSteady := by
  induction ts with
  | nil => exact isSteady_done ()
  | cons t ts ih => exact (h t).bind fun _ => ih

theorem isSteady_foldlM {step : α → τ → Run α} (h : ∀ a t, (step a t).IsSteady) (ts : List τ) (a : α) :
    (ts.foldlM step a).IsSteady := by
  induction ts generalizing a with
  | nil => exact isSteady_done a
  | cons t ts ih =>
    rw [List.foldlM_cons]
    exact (h a t).bind ih

variable {act : Line → Run Unit} {flaw : Option FileFlaw}

theorem isSteady_eachLineOf (h : ∀ l, (act l).IsSteady) (data : Bytes) : (eachLineOf flaw act data).IsSteady := by
  apply (isSteady_each h _).bind
  intro _
  cases flaw with
  | none => exact isSteady_done ()
  | some flaw => exact isSteady_stop _

theorem isSteady_eachInputLine (h : ∀ l, (act l).IsSteady) : (eachInputLine flaw act).IsSteady := by
  have hread (data : Bytes) : (eachLineOf flaw act data >>= fun _ => leave []).IsSteady :=
    (isSteady_eachLineOf h data).bind fun _ _ _ => rfl
  intro level c
  rw [eachInputLine_eq, eachInputLine_eq]
  exact hread c.stdin.flatten level { c with wasAsked := true }

end Run

section Commands

theorem World.isSteady_referenceDate (w : World) (given : Option Date) : (w.referenceDate given).IsSteady := by
  cases given with
  | some d => exact Run.isSteady_done d
  | none => exact (Run.isSteady_record _).bind fun _ => Run.isSteady_done _

theorem NextRequest.isSteady_take (q : NextRequest) (t : Token) : (q.take t).IsSteady := by
  unfold take
  split
  · exact (Run.isSteady_ofExcept _).bind fun n => Run.isSteady_done _
  · split
    · refine (Run.isSteady_ofExcept _).bind fun d => ?_
      exact (Run.isSteady_record _).bind fun _ => Run.isSteady_done _
    · split
      · exact Run.isSteady_ofExcept _
      · exact Run.isSteady_stop _

theorem isSteady_printOccurrences (r : Rule) (now stored : Date) (count : Nat) :
    (printOccurrences r now stored count).IsSteady := by
  induction count generalizing now stored with
  | zero => exact Run.isSteady_done ()
  | succ count ih =>
    refine (Run.isSteady_record _).bind fun _ => ?_
    refine (Run.isSteady_ofExcept _).bind fun d => ?_
    exact (Run.isSteady_print _).bind fun _ => ih d d

theorem NextRequest.isSteady_answer (w : World) (q : NextRequest) : (q.answer w).IsSteady := by
  unfold answer
  split
  · exact Run.isSteady_stop _
  · exact Run.isSteady_stop _
  · refine (Run.isSteady_ofExcept _).bind fun rule => ?_
    exact (w.isSteady_referenceDate q.now).bind fun now => isSteady_printOccurrences _ _ _ _

theorem isSteady_runNext (w : World) (a : Arguments) : (runNext w a).IsSteady :=
  (Run.isSteady_foldlM NextRequest.isSteady_take _ _).bind fun q => q.isSteady_answer w

theorem RuleRequest.isSteady_take (q : RuleRequest) (t : Token) : (q.take t).IsSteady := by
  unfold take
  split
  · exact Run.isSteady_done _
  · split_ifs
    · exact Run.isSteady_done _
    · exact Run.isSteady_stop _

theorem isSteady_runRules (w : World) (a : Arguments) : (runRules w a).IsSteady := by
  have hrule (json : Bool) (bs : Bytes) : (printRule json bs).IsSteady :=
    (Run.isSteady_ofExcept _).bind fun r => Run.isSteady_print _
  refine (Run.isSteady_foldlM RuleRequest.isSteady_take _ _).bind fun q => ?_
  split_ifs
  · exact Run.isSteady_eachInputLine fun l => (hrule q.json l.content).during _
  · exact Run.isSteady_each (hrule q.json) _

theorem TaskRequest.isSteady_take (manual : Manual) (q : TaskRequest) (t : Token) : (q.take manual t).IsSteady := by
  unfold take
  split
  · refine (Run.isSteady_ofExcept _).bind fun d => ?_
    exact (Run.isSteady_record _).bind fun _ => Run.isSteady_done _
  · split
    · exact Run.isSteady_done _
    · exact Run.isSteady_stop _

theorem Task.isSteady_printChecked (today : Date) (t : Task) : (t.printChecked today).IsSteady := by
  refine (Run.isSteady_record _).bind fun _ => ?_
  exact (Run.isSteady_ofExcept _).bind fun u => Run.isSteady_print _

theorem Task.isSteady_printCompleted (today : Date) (t : Task) : (t.printCompleted today).IsSteady := by
  refine (Run.isSteady_record _).bind fun _ => ?_
  refine (Run.isSteady_ofExcept _).bind fun completion => ?_
  cases completion with
  | removed => exact Run.isSteady_done ()
  | rescheduled u => exact Run.isSteady_print _

variable {act : Task → Run Unit}

theorem isSteady_withTaskOn (h : ∀ t, (act t).IsSteady) (input : String) (l : Line) :
    (withTaskOn act input l).IsSteady := by
  unfold withTaskOn
  split_ifs
  · exact Run.isSteady_done ()
  · exact ((Run.isSteady_ofExcept _).bind h).during _

theorem isSteady_withTasksOf (w : World) (h : ∀ t, (act t).IsSteady) (source : Source) :
    (withTasksOf w act source).IsSteady := by
  unfold withTasksOf
  split
  · exact Run.isSteady_eachInputLine (isSteady_withTaskOn h _)
  · split
    · exact Run.isSteady_stop _
    · exact Run.isSteady_stop _
    · rw [Run.eachLineUpTo_done]
      exact Run.isSteady_eachLineOf (isSteady_withTaskOn h _) _

theorem isSteady_runTasks (w : World) (manual : Manual) {act : Date → Task → Run Unit}
    (h : ∀ today t, (act today t).IsSteady) (a : Arguments) : (runTasks w manual act a).IsSteady := by
  refine (Run.isSteady_foldlM (TaskRequest.isSteady_take manual) _ _).bind fun q => ?_
  unfold TaskRequest.answer
  refine (w.isSteady_referenceDate q.now).bind fun today => ?_
  exact Run.isSteady_each (isSteady_withTasksOf w (h today)) _

theorem isSteady_runTaskCommand (w : World) (a : Arguments) : (runTaskCommand w a).IsSteady := by
  unfold runTaskCommand
  split
  · exact Run.isSteady_stop _
  · split_ifs
    · exact isSteady_runTasks w _ Task.isSteady_printChecked _
    · exact isSteady_runTasks w _ Task.isSteady_printCompleted _
    · exact Run.isSteady_stop _

theorem isSteady_runCommand (w : World) : (runCommand w).IsSteady := by
  unfold runCommand
  split
  · exact Run.isSteady_stop _
  · split_ifs
    · exact isSteady_runNext w _
    · exact isSteady_runRules w _
    · exact isSteady_runTaskCommand w _
    · exact Run.isSteady_stop _

/-- Whatever the program is asked for, the level of records makes no difference to it. -/
theorem isSteady_runProgram (w : World) : (runProgram w).IsSteady := by
  unfold runProgram
  split_ifs
  · exact (w.isSteady_referenceDate none).bind fun d => Run.isSteady_print _
  · exact isSteady_runCommand w

end Commands

end Agenda
