import Agenda.Calendar.Date
/-!
Day numbers: the dates in a row, with 1970-01-01 as day 0. `dayNumber` counts the days of the years and months
before a date, `ofDayNumber?` finds the year by dividing by its mean length and the month by taking month
lengths away. Adding days is addition of day numbers, and week days are their remainders by seven.
-/
namespace Agenda

/-- The days from 0000-01-01 to the first day of a year: 365 for each year, and one more for each leap year. -/
def daysBeforeYear (year : Int) : Int :=
  365 * year + (year + 3) / 4 - (year + 99) / 100 + (year + 399) / 400

def daysBeforeMonth (year : Int) : Nat → Nat
  | 0 => 0
  | 1 => 0
  | m + 2 => daysBeforeMonth year (m + 1) + monthLength year (m + 1)

/-- The days from 0000-01-01 to 1970-01-01. -/
def epochOffset : Int := 719528

/-- The year that holds a day counted from 0000-01-01. A year lasts 365.2425 days on average, so the quotient is
at most one off. -/
def yearOfDay (n : Int) : Int :=
  -- 400 years have 146097 days
  let year := 400 * n / 146097
  if n < daysBeforeYear year then year - 1
  else if daysBeforeYear (year + 1) ≤ n then year + 1
  else year

/-- The month and the day of the month of a day that comes `k` days after the start of month `m`, where `left`
months follow `m` in the year. -/
def monthAndDay (year : Int) (m k : Nat) : (left : Nat) → Nat × Nat
  | 0 => (m, k + 1)
  | left + 1 =>
    if k < monthLength year m then (m, k + 1)
    else monthAndDay year (m + 1) (k - monthLength year m) left

namespace Date

/-- The number of a date in the row of days. -/
def dayNumber (d : Date) : Int :=
  daysBeforeYear d.year + daysBeforeMonth d.year d.month + d.day - 1 - epochOffset

/-- The date with a given number, if it lies in the supported range. -/
def ofDayNumber? (n : Int) : Option Date :=
  let k := n + epochOffset
  let year := yearOfDay k
  let (month, day) := monthAndDay year 1 (k - daysBeforeYear year).toNat 11
  ofParts? year month day

/-- The day of the week, from 1 for Monday to 7 for Sunday. -/
def weekday (d : Date) : Int :=
  -- 1970-01-01 was a Thursday
  (d.dayNumber + 3) % 7 + 1

end Date

end Agenda
