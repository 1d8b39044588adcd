import Agenda.Command.Setting
import Agenda.Command.World
import Agenda.Recurrence.Occurrence
/-!
The command that prints the next occurrences of a rule.
-/
namespace Agenda

open Text

def Rule.searchRecord (r : Rule) (now stored : Date) : Record :=
  let rule := r.canonical
  let origin := stored.iso
  let today := now.iso
  ⟨.trace, s!"advancing `{rule}` from {origin} to after {today}"⟩

/-- What the command was asked for. -/
structure NextRequest where
  now : Option Date
  stored : Option Date
  recurrence : Option String
  count : Nat

namespace NextRequest

def empty : NextRequest :=
  ⟨none, none, none, 1⟩

def takesValue (name : OptionName) : Bool :=
  Setting.count.isNamed name || Setting.now.isNamed name

def nowRecord (d : Date) : Record :=
  let date := d.compact
  ⟨.trace, s!"reference date set to {date} via -n/--now"⟩

/-- Takes a plain argument: the date, which is read at once, or the text of the rule. -/
def takePlain (q : NextRequest) (value : Bytes) : Except Failure NextRequest :=
  match Utf8.decode? value with
  | none => .error (.of (.argument (.notText (Quoted.bytes value))))
  | some s =>
    let text := String.ofList s
    if q.stored.isNone then do
      let d ← (Date.parse text).mapError fun e => .ofEngine (.spec e)
      .ok { q with stored := some d }
    else if q.recurrence.isNone then .ok { q with recurrence := some text }
    else .error (.of (.argument (.extra text)))

def take (q : NextRequest) (t : Token) : Run NextRequest :=
  match Setting.count.value? Setting.readTimes t with
  | some result => do
    let n ← Run.ofExcept result
    return { q with count := n }
  | none =>
    match Setting.now.value? Setting.readNow t with
    | some result => do
      let d ← Run.ofExcept result
      Run.record [nowRecord d]
      return { q with now := some d }
    | none =>
      match t with
      | .plain value => Run.ofExcept (q.takePlain value)
      | _ => Run.stop (t.refuse Manual.next.short Manual.next.long)

def ofTokens (ts : List Token) : Run NextRequest :=
  ts.foldlM take empty

end NextRequest

def printOccurrences (r : Rule) (now stored : Date) : (count : Nat) → Run Unit
  | 0 => Run.done ()
  | count + 1 => do
    Run.record [r.searchRecord now stored]
    let d ← Run.ofExcept ((r.next now stored).mapError fun f => .ofEngine (.fault f))
    Run.print d.compact
    printOccurrences r d d count

/-- The command once it is known what it was asked for. -/
def NextRequest.answer (w : World) (q : NextRequest) : Run Unit :=
  match q.stored, q.recurrence with
  | none, _ => Run.fail (.of (.argument .dateMissing))
  | some _, none => Run.fail (.of (.argument .ruleMissing))
  | some stored, some recurrence => do
    let rule ← Run.ofExcept ((Rule.parse recurrence).mapError fun e => .ofEngine (.spec e))
    let now ← w.referenceDate q.now
    printOccurrences rule now stored q.count

def runNext (w : World) (a : Arguments) : Run Unit := do
  let q ← NextRequest.ofTokens (a.tokens NextRequest.takesValue)
  q.answer w

end Agenda
