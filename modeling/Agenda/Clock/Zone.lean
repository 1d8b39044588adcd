import Agenda.Calendar.Month
import Agenda.Clock.Moment
/-!
Time zones. A zone says for each moment how far its clocks are ahead of universal time. Past changes are listed one by
one; from the last of them on a rule holds, either a fixed offset or two that take turns at two days of the year.
Offsets and the times of past changes are in seconds.
-/
namespace Agenda

/-- A day that comes once a year. -/
inductive YearDay
  /-- The `n`th day of the year, from 1, where February 29 does not count. -/
  | withoutLeapDay (n : Nat)
  /-- The day `n` days after January 1. -/
  | afterStart (n : Nat)
  /-- The `week`th day of the month that is the given day of the week, from 0 for Sunday; the fifth is the last. -/
  | weekday (month week day : Nat)
  deriving DecidableEq, Repr

/-- The number of the first day of a month in the row of days. -/
def monthStart (year : Int) (month : Nat) : Int :=
  yearStart year + daysBeforeMonth year month

/-- The number of the day in a given year, if the year has it. -/
def YearDay.dayNumber? (year : Int) : YearDay → Option Int
  | withoutLeapDay n => some (yearStart year + n - (if isLeap year ∧ 60 ≤ n then 0 else 1))
  | afterStart n => if n < 365 ∨ isLeap year then some (yearStart year + n) else none
  | weekday month week day =>
    let start := monthStart year month
    -- day 0 was a Thursday, the fourth day after Sunday
    let first := start + ((day : Int) - (start + 4)) % 7
    let last := start + monthLength year month - 1
    let wanted := first + 7 * ((week : Int) - 1)
    some (if last < wanted then wanted - 7 else wanted)

/-- When the offset changes: the day, and the seconds of local time from its start. -/
structure Change where
  day : YearDay
  time : Int
  deriving DecidableEq, Repr

namespace Change

/-- The moment of the change in a given year, when local time is ahead by `offset` before it. It is never outside the
year, and a day that the year does not have stands for the last moment of the year. -/
def moment (c : Change) (year : Int) (offset : Int) : Moment :=
  let first := Moment.yearFirst year
  let last := Moment.yearLast year
  match c.day.dayNumber? year with
  | none => last
  | some n => max first (min last (Moment.ofSeconds (n * daySeconds + c.time - offset)))

end Change

/-- How far clocks are ahead, once and for all or by the time of the year. -/
inductive ZoneRule
  | fixed (offset : Int)
  /-- Summer time is `summer` ahead, standard time `standard`. -/
  | seasonal (standard summer : Int) (start finish : Change)
  deriving DecidableEq, Repr

/-- The year that local time shows at a moment, or the first or the last year of the calendar if it lies outside. -/
def localYear (offset : Int) (t : Moment) : Int :=
  max Date.first.year (min Date.last.year (t + Moment.ofSeconds offset).year)

/-- The end of summer time in a year. Where summer time begins with the year and ends when standard time shows
another year, it lasts to the last moment. -/
def summerEnd (standard summer : Int) (start finish : Change) (year : Int) : Moment :=
  let finished := finish.moment year summer
  if start.moment year standard = Moment.yearFirst year ∧ localYear standard finished ≠ year then Moment.yearLast year
  else finished

def ZoneRule.offsetAt (t : Moment) : ZoneRule → Int
  | fixed offset => offset
  | seasonal standard summer start finish =>
    let started := start.moment t.year standard
    let finished := summerEnd standard summer start finish t.year
    let inSummer := if started ≤ finished then started ≤ t && t < finished else !(finished ≤ t && t < started)
    if inSummer then summer else standard

/-- A time zone. -/
structure Zone where
  /-- The past offsets, each with the second up to which it held. -/
  past : List (Int × Int)
  /-- What holds from the last of these seconds on. -/
  rule : ZoneRule

namespace Zone

def utc : Zone :=
  ⟨[], .fixed 0⟩

/-- How far the clocks are ahead at a moment. Past changes are looked up without the fraction of the second. -/
def offsetAt (z : Zone) (t : Moment) : Int :=
  match z.past.find? (t.wholeSeconds < ·.1) with
  | some (_, offset) => offset
  | none => z.rule.offsetAt t

/-- The date that the calendars show at a moment. Moments come from a range in which there is one. -/
def dateAt (z : Zone) (t : Moment) : Date :=
  (Date.ofDayNumber? ((t.second + z.offsetAt t) / daySeconds)).getD Date.first

end Zone

end Agenda
