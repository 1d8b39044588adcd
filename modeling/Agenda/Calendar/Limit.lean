import Agenda.Calendar.DayNumber
/-!
Date arithmetic that can leave the supported range. Adding one day steps to the following day, adding any other
number of days goes through day numbers, and adding years keeps month and day, except that February 29 becomes
February 28 in a common year. `Limit` names the quantity that left its range.
-/
namespace Agenda

/-- The quantities that have a range. -/
inductive Limit
  | year
  | epochDay
  | spanDays
  | spanYears
  deriving DecidableEq, Repr

namespace Limit

/-- The most days that two dates of the range can lie apart, one more than the calendar itself needs. -/
def maxSpanDays : Int := 7304484

/-- The most years that two dates of the range can lie apart. -/
def maxSpanYears : Int := 19998

def message : Limit → String
  | year => "parameter 'year' is not in the required range of -9999..=9999"
  | epochDay => "parameter 'Unix epoch days' is not in the required range of -4371587..=2932896"
  | spanDays => "parameter 'days' is not in the required range of -7304484..=7304484"
  | spanYears => "parameter 'years' is not in the required range of -19998..=19998"

end Limit

namespace Date

def plusDays (d : Date) (n : Int) : Except Limit Date :=
  if n < -Limit.maxSpanDays ∨ Limit.maxSpanDays < n then .error .spanDays
  -- one day further is a step, not a sum, and fails with another limit
  else if n = 1 then d.next?.elim (.error .year) .ok
  else (ofDayNumber? (d.dayNumber + n)).elim (.error .epochDay) .ok

/-- The same month and day `k` years later, with the day cut to the length of the month. -/
def plusYears (d : Date) (k : Int) : Except Limit Date :=
  if k < -Limit.maxSpanYears ∨ Limit.maxSpanYears < k then .error .spanYears
  else if h : -9999 ≤ d.year + k ∧ d.year + k ≤ 9999 then
    .ok ⟨d.year + k, d.month, min d.day (monthLength (d.year + k) d.month), h, d.month_mem, by
      have := monthLength_bounds (d.year + k) d.month
      have := d.day_mem
      omega⟩
  else .error .year

end Date

end Agenda
