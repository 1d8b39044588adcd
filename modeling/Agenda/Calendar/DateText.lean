import Agenda.Calendar.Date
/-!
Dates as eight digits, year, month and day without separators. `Date.compact` writes a date and `Date.ofDigits`
reads one; the two are inverse on the years 0 to 9999. A negative year is written with its sign and at least
three digits, a form that is never read.
-/
namespace Agenda

open Text

/-- Why a text is not a date. -/
inductive DateFlaw
  /-- The text is not eight digits. -/
  | form
  /-- There is no such month. -/
  | month
  /-- The day comes before the first of a month. -/
  | day
  /-- The day comes after the last of this month. -/
  | dayOfMonth (year : Int) (month : Nat)
  deriving DecidableEq, Repr

namespace DateFlaw

def message (text : String) : DateFlaw → String
  | form => s!"invalid date `{text}` (dates must be 8 digits in the format YYYYMMDD)"
  | month => s!"invalid date `{text}`: parameter 'month' is not in the required range of 1..=12"
  | day => s!"invalid date `{text}`: parameter 'day' is not in the required range of 1..=31"
  | dayOfMonth y m =>
    let yearText := String.ofList (Numeral.padded 4 y.natAbs)
    let monthText := String.ofList (Numeral.padded 2 m)
    let top := monthLength y m
    s!"invalid date `{text}`: parameter 'day' for `{yearText}-{monthText}` is invalid, " ++
      s!"must be in range `1..={top}`"

end DateFlaw

namespace Date

/-- The date with these parts, or the first part that does not fit: the month, then a day below the first, then a
day past the last one of the month. -/
def ofParts (year : Nat) (month day : Nat) : Except DateFlaw Date :=
  if month < 1 ∨ 12 < month then .error .month
  else if day < 1 then .error .day
  else (ofParts? year month day).elim (.error (.dayOfMonth year month)) .ok

/-- Reads a date of exactly eight digits. -/
def ofDigits (text : String) : Except DateFlaw Date :=
  let s := text.toList
  if s.length = 8 ∧ s.all Numeral.isDigit then
    ofParts (Numeral.value (s.take 4)) (Numeral.value ((s.drop 4).take 2)) (Numeral.value (s.drop 6))
  else .error .form

/-- Writes a date as eight digits. -/
def compact (d : Date) : String :=
  let year := if d.year < 0 then '-' :: Numeral.padded 3 d.year.natAbs else Numeral.padded 4 d.year.natAbs
  String.ofList (year ++ Numeral.padded 2 d.month ++ Numeral.padded 2 d.day)

end Date

end Agenda
