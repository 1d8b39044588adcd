import Agenda.Task.Schedule
/-!
A list of tasks over a number of days. Tasks are added, edited, checked and completed by their place in the list; what
fails changes nothing.
-/
namespace Agenda

open Text

/-- Some tasks, and the date of the day. -/
structure Board where
  today : Date
  tasks : List Task

/-- What is done to a board. -/
inductive Act
  | turnTo (date : String)
  | add (text : Bytes)
  | check (place : Nat)
  | complete (place : Nat)
  | edit (place : Nat) (field : Field) (value : String)

/-- What an act comes to when it does not fail. -/
inductive ActResult
  | done
  | removed
  deriving DecidableEq

/-- Why an act fails. -/
inductive ActFailure
  | noTask
  | failed (failure : Failure)
  deriving DecidableEq

namespace Board

def replace (b : Board) (place : Nat) (t : Task) : Board :=
  { b with tasks := b.tasks.set place t }

def withTask {α : Type} (b : Board) (place : Nat) (f : Task → Except Failure α) : Except ActFailure α :=
  match b.tasks[place]? with
  | none => .error .noTask
  | some t => (f t).mapError .failed

/-- Does an act: the outcome, and the board after it. -/
def act (b : Board) : Act → Except ActFailure (ActResult × Board)
  | .turnTo date => do
    let d ← (Date.parse date).mapError fun e => .failed (.ofEngine (.spec e))
    .ok (.done, { b with today := d })
  | .add text => do
    let t ← (Task.read text).mapError .failed
    .ok (.done, { b with tasks := b.tasks ++ [t] })
  | .check place => do
    let t ← b.withTask place (·.check b.today)
    .ok (.done, b.replace place t)
  | .complete place => do
    match ← b.withTask place fun t => (t.complete b.today).mapError .ofEngine with
    | .removed => .ok (.removed, { b with tasks := b.tasks.eraseIdx place })
    | .rescheduled t => .ok (.done, b.replace place t)
  | .edit place field value => do
    let t ← b.withTask place .ok
    .ok (.done, b.replace place (t.set field value))

/-- The board after an act, which is the same board when the act fails. -/
def after (b : Board) (a : Act) : Board :=
  match b.act a with
  | .ok (_, b') => b'
  | .error _ => b

end Board

end Agenda
