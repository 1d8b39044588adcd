import Agenda.Command.Occurrences
import Agenda.Task.Schedule
/-!
The commands on tasks: checking them and completing them. The tasks are the lines of the files that the arguments
name, or else of the standard input; blank lines are passed over.
-/
namespace Agenda

open Text

/-- What the command was asked for. -/
structure TaskRequest where
  now : Option Date
  /-- The paths, the latest first. -/
  paths : List Bytes

namespace TaskRequest

def empty : TaskRequest :=
  ⟨none, []⟩

def take (manual : Manual) (q : TaskRequest) (t : Token) : Run TaskRequest :=
  match Setting.now.value? Setting.readNow t with
  | some result => do
    let d ← Run.ofExcept result
    Run.record [NextRequest.nowRecord d]
    return { q with now := some d }
  | none =>
    match t with
    | .plain value => Run.done { q with paths := value :: q.paths }
    | _ => Run.stop (t.refuse manual.short manual.long)

def ofTokens (manual : Manual) (ts : List Token) : Run TaskRequest :=
  ts.foldlM (take manual) empty

def sources (q : TaskRequest) : List Source :=
  if q.paths.isEmpty then [.stdin] else q.paths.reverse.map Source.ofPath

end TaskRequest

namespace Task

def dateRecords (now : Date) (t : Task) : List Record :=
  match Date.parse t.date, Rule.parse t.recurrence with
  | .ok stored, .ok r =>
    r.searchRecord now stored ::
      match r.next now stored with
      | .ok next =>
        let rule := r.canonical
        let today := now.iso
        let date := next.iso
        [⟨.trace, s!"next occurrence of `{rule}` after {today} is {date}"⟩]
      | .error _ => []
  | _, _ => []

def removedRecord (t : Task) : Record :=
  let id := t.id
  ⟨.debug, s!"removing one-shot task `{id}`"⟩

def movedRecord (t : Task) (date : String) : Record :=
  let id := t.id
  let recurrence := t.recurrence
  let origin := t.date
  ⟨.debug, s!"task `{id}` with rule `{recurrence}` moved from {origin} to {date}"⟩

def completeRecords (t : Task) (today : Date) : List Record :=
  match t.complete today with
  | .ok .removed => [t.removedRecord]
  | .ok (.rescheduled u) => t.dateRecords today ++ [t.movedRecord u.date]
  | .error _ => t.dateRecords today

def checkRecords (t : Task) (today : Date) : List Record :=
  if allBlank t.title then []
  else
    match t.dateOr today, recurrenceOf t.recurrence with
    | .ok date, .ok (some r) => if today ≤ date then [] else [r.searchRecord today date]
    | _, _ => []

def printCompleted (today : Date) (t : Task) : Run Unit := do
  Run.record (t.completeRecords today)
  match ← Run.ofExcept ((t.complete today).mapError .ofEngine) with
  | .removed => Run.done ()
  | .rescheduled u => Run.print u.json

def printChecked (today : Date) (t : Task) : Run Unit := do
  Run.record (t.checkRecords today)
  let u ← Run.ofExcept (t.check today)
  Run.print u.json

end Task

def withTaskOn (act : Task → Run Unit) (input : String) (l : Line) : Run Unit :=
  if l.isBlank then Run.done ()
  else
    Run.during (.line l.number input) do
      let t ← Run.ofExcept (Task.read l.content)
      act t

def withTasksOf (w : World) (act : Task → Run Unit) (source : Source) : Run Unit :=
  match source with
  | .stdin => Run.eachInputLine w.stdinFlaw (withTaskOn act source.display)
  | .file path =>
    match w.find path with
    | .error flaw => Run.fail ((Failure.of (.file flaw)).during (.file source.display))
    | .ok .folder => Run.fail (.of (.file .isDirectory))
    | .ok (.file content flaw) => do
      let _ ← Run.eachLineUpTo flaw (withTaskOn act source.display) content

/-- The command once it is known what it was asked for. -/
def TaskRequest.answer (w : World) (act : Date → Task → Run Unit) (q : TaskRequest) : Run Unit := do
  let today ← w.referenceDate q.now
  Run.each (withTasksOf w (act today)) q.sources

def runTasks (w : World) (manual : Manual) (act : Date → Task → Run Unit) (a : Arguments) : Run Unit := do
  let q ← TaskRequest.ofTokens manual (a.tokens Setting.now.isNamed)
  q.answer w act

end Agenda
