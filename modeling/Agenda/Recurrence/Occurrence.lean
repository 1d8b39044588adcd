import Agenda.Calendar.Month
import Agenda.Recurrence.RuleText
/-!
The next occurrence of a rule, for a task scheduled at `stored`, strictly after both `now` and `stored`.

A daily rule divides, the others search: by anniversaries of `stored`, by days from the later of the two dates,
or by months from the month of the later date. Each search takes its number of steps as an argument;
`Rule.next` gives all of them `maxSteps`.
-/
namespace Agenda

namespace Date

/-- A search step that left the range, as a fault of the engine. -/
def orFault (origin : Date) (result : Except Limit Date) : Except Fault Date :=
  result.mapError (.range origin)

end Date

def earliest : List Date → Option Date
  | [] => none
  | d :: ds =>
    match earliest ds with
    | none => some d
    | some e => some (if e < d then e else d)

namespace Rule

/-- The least number of intervals, at least one, that take `stored` past `now`. -/
def intervalsPast (now stored : Date) (interval : Int) : Int :=
  let elapsed := now.dayNumber - stored.dayNumber
  -- a date that is still to come moves on once
  if elapsed < 0 then 1 else elapsed / interval + 1

/-- The least multiple of the interval after `stored` that is after `now`. -/
def nextDaily (now stored : Date) (interval : Int) : Except Fault Date :=
  if interval < 1 then .error (.interval interval)
  else stored.orFault (stored.plusDays (intervalsPast now stored interval * interval))

/-- The first anniversary after `now`, from the `k`th on. -/
def searchYears (now stored : Date) : (steps : Nat) → (k : Int) → Except Fault Date
  | 0, _ => .error (.exhausted yearly "years" now)
  | steps + 1, k =>
    match stored.plusYears k with
    | .error limit => .error (.range stored limit)
    | .ok d => if now < d then .ok d else searchYears now stored steps (k + 1)

/-- The first anniversary of `stored` after `now`. Anniversaries before the year of `now` are skipped. -/
def nextYearly (steps : Nat) (now stored : Date) : Except Fault Date :=
  searchYears now stored steps (max (now.year - stored.year) 1)

/-- The first day after `d` that is one of the given days of the week. -/
def searchDays (now : Date) (days : List Int) : (steps : Nat) → (d : Date) → Except Fault Date
  | 0, _ => .error (.exhausted (weekly days) "days" now)
  | steps + 1, d =>
    match d.next? with
    | none => .error (.range d .year)
    | some e => if days.contains e.weekday then .ok e else searchDays now days steps e

/-- The first date after both that falls on one of the given days of the week. -/
def nextWeekly (steps : Nat) (now stored : Date) (days : List Int) : Except Fault Date :=
  searchDays now days steps (now.latest stored)

/-- Whether a rule that may be limited to some months covers a month. -/
def coversMonth (months : Option (List Int)) (m : Month) : Bool :=
  months.all (·.contains (m.number : Int))

/-- The earliest date after `floor` in a month that falls on one of the given days. -/
def firstInMonth (floor : Date) (days : List Int) (m : Month) : Option Date :=
  earliest ((days.filterMap m.resolve?).filter (floor < ·))

/-- The first date after `floor` on one of the given days, in month `m` or later. -/
def searchMonths (now floor : Date) (days : List Int) (months : Option (List Int)) :
    (steps : Nat) → (m : Month) → Except Fault Date
  | 0, _ => .error (.exhausted (monthly days months) "months" now)
  | steps + 1, m =>
    match if coversMonth months m then firstInMonth floor days m else none with
    | some d => .ok d
    | none =>
      match m.next? with
      | none => .error (.range m.first .year)
      | some m' => searchMonths now floor days months steps m'

/-- The first date after both that falls on one of the given days of a covered month. -/
def nextMonthly (steps : Nat) (now stored : Date) (days : List Int) (months : Option (List Int)) :
    Except Fault Date :=
  let floor := now.latest stored
  searchMonths now floor days months steps (Month.ofDate floor)

def nextWithin (steps : Nat) (r : Rule) (now stored : Date) : Except Fault Date :=
  match r with
  | daily interval => nextDaily now stored interval
  | yearly => nextYearly steps now stored
  | weekly days => nextWeekly steps now stored days
  | monthly days months => nextMonthly steps now stored days months

def next (r : Rule) (now stored : Date) : Except Fault Date :=
  r.nextWithin maxSteps now stored

/-- The first `count` occurrences after both dates, each one but the first computed from the one before it, and
the fault that cut them short, if one did. `found` holds the earlier ones, the latest first. -/
def occurrencesFrom (r : Rule) (now stored : Date) (found : List Date) : (count : Nat) → List Date × Option Fault
  | 0 => (found.reverse, none)
  | count + 1 =>
    match r.next now stored with
    | .error f => (found.reverse, some f)
    | .ok d => occurrencesFrom r d d (d :: found) count

/-- The first `count` occurrences after both dates, and the fault that cut them short, if one did. -/
def occurrences (r : Rule) (now stored : Date) (count : Nat) : List Date × Option Fault :=
  r.occurrencesFrom now stored [] count

end Rule

/-- The next date of a task from its texts: the date is read first, then the rule. -/
def dateAfter (now : Date) (stored recurrence : String) : Except EngineError String := do
  let d ← (Date.parse stored).mapError .spec
  let r ← (Rule.parse recurrence).mapError .spec
  let next ← (r.next now d).mapError .fault
  .ok next.compact

end Agenda
