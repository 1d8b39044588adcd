import Agenda.Failure
import Agenda.Recurrence.Occurrence
import Agenda.Task.Decode
/-!
What becomes of a task as time passes. Completing a task moves it to its next occurrence, or ends it when it does not
recur. Checking a task makes sure that it is a proper one and moves a date that has passed to today or to the next
occurrence.
-/
namespace Agenda

open Text

/-- The rule of a recurrence text; a blank text is no rule. -/
def recurrenceOf (text : String) : Except SpecError (Option Rule) :=
  if allBlank text then .ok none else (Rule.parse text).map some

/-- What completing a task leads to. -/
inductive Completion
  /-- The task is over. -/
  | removed
  /-- The task is due again. -/
  | rescheduled (task : Task)
  deriving DecidableEq

namespace Task

def withDate (t : Task) (date : String) : Task :=
  { t with date }

/-- Completes a task. A task that does not recur is over, whatever its date. -/
def complete (t : Task) (today : Date) : Except EngineError Completion := do
  match ← (recurrenceOf t.recurrence).mapError .spec with
  | none => .ok .removed
  | some _ =>
    let date ← dateAfter today t.date t.recurrence
    .ok (.rescheduled (t.withDate date))

def dateOr (today : Date) (t : Task) : Except SpecError Date :=
  if t.date.isEmpty then .ok today else Date.parse t.date

/-- The date that a task with the given date and rule is moved to. -/
def moved (today date : Date) (rule : Option Rule) : Except Fault Date :=
  if today ≤ date then .ok date
  else
    match rule with
    | none => .ok today
    | some r => r.next today date

def orFailure {ε α : Type} (context : Context) (toError : ε → EngineError) (result : Except ε α) :
    Except Failure α :=
  result.mapError fun e => (Failure.ofEngine (toError e)).during context

/-- Checks a task: it needs a title, a date or none, and a rule or none. -/
def check (t : Task) (today : Date) : Except Failure Task :=
  if allBlank t.title then .error (.of .titleMissing)
  else do
    let date ← orFailure .taskDate .spec (t.dateOr today)
    let rule ← orFailure .taskRecurrence .spec (recurrenceOf t.recurrence)
    let date ← orFailure .taskMove .fault (moved today date rule)
    .ok (t.withDate date.compact)

def read (text : Bytes) : Except Failure Task :=
  (decode text).mapError fun e => (Failure.of (.json e)).during .taskJson

end Task

end Agenda
