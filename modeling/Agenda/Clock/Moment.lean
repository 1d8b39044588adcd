import Agenda.Calendar.DayNumber
/-!
Moments: points of time in nanoseconds. A moment has two readings in whole seconds. `second` is the second that it
lies in, and calendars go by that; `wholeSeconds` drops the fraction, so that before 1970 it is a later second.
-/
namespace Agenda

def daySeconds : Int := 86400

/-- The number of January 1 of a year in the row of days. -/
def yearStart (year : Int) : Int :=
  daysBeforeYear year - epochOffset

/-- A moment: the nanoseconds to it from the start of 1970-01-01 in universal time. -/
abbrev Moment := Int

namespace Moment

/-- The moment that comes some seconds after the start of 1970-01-01. -/
def ofSeconds (seconds : Int) : Moment :=
  seconds * 1000000000

def second (t : Moment) : Int :=
  t / 1000000000

def wholeSeconds (t : Moment) : Int :=
  Int.tdiv t 1000000000

/-- The year of a moment in universal time. -/
def year (t : Moment) : Int :=
  yearOfDay (t.second / daySeconds + epochOffset)

def yearFirst (year : Int) : Moment :=
  ofSeconds (yearStart year * daySeconds)

def yearLast (year : Int) : Moment :=
  yearFirst (year + 1) - 1

end Moment

end Agenda
