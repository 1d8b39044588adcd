import Agenda.Clock.Zone
import Agenda.Text.Scan
/-!
Rules of time zones as texts, such as `EST5EDT,M3.2.0,M11.1.0`: the name of standard time and how far it is behind
universal time, and perhaps the name of summer time, how far that is behind, and the days on which it begins and ends.
-/
namespace Agenda.ZoneRule

open Text Scan

/-- Whether a character is an ASCII letter. -/
def isLetter (c : Char) : Bool :=
  ('a' ≤ c && c ≤ 'z') || ('A' ≤ c && c ≤ 'Z')

/-- Whether a character may stand in a name between angle brackets. -/
def isNameChar (c : Char) : Bool :=
  isLetter c || Numeral.isDigit c || c == '+' || c == '-'

def maxName : Nat := 255

/-- Takes a name of at least three letters, or of at least three characters between angle brackets. -/
def name : Scan Unit := do
  if ← accept '<' then
    let s ← row isNameChar maxName
    expect '>'
    guard (3 ≤ s.length)
  else
    let s ← row isLetter maxName
    guard (3 ≤ s.length)

/-- Takes a sign or none: whether it is a minus. -/
def sign : Scan Bool := do
  if ← accept '-' then return true
  let _ ← accept '+'
  return false

/-- Takes two digits below sixty after a colon, if there is one. -/
def sixtieth : Scan (Option Nat) := do
  if ← accept ':' then return some (← inRange 0 59 (digits 2))
  return none

/-- Takes hours, and perhaps minutes and seconds: the seconds of all of them. -/
def seconds (places maxHours : Nat) : Scan Int := do
  let minus ← sign
  let hours ← inRange 0 maxHours (digitsUpTo places)
  let minutes ← sixtieth
  let secs ← if minutes.isSome then sixtieth else pure none
  let total : Int := hours * 3600 + minutes.getD 0 * 60 + secs.getD 0
  return if minus then -total else total

/-- Takes how far a zone is behind universal time: how far it is ahead. -/
def offset : Scan Int := do
  return -(← seconds 2 24)

def yearDay : Scan YearDay := do
  if ← accept 'J' then return .withoutLeapDay (← inRange 1 365 (digitsUpTo 3))
  if ← accept 'M' then
    let month ← inRange 1 12 (digitsUpTo 2)
    expect '.'
    let week ← inRange 1 5 (digits 1)
    expect '.'
    let day ← inRange 0 6 (digits 1)
    return .weekday month week day
  return .afterStart (← inRange 0 365 (digitsUpTo 3))

/-- Takes a day and perhaps a time after a slash, which is two o'clock otherwise. -/
def change : Scan Change := do
  let day ← yearDay
  let time ← if ← accept '/' then seconds 3 167 else pure 7200
  return ⟨day, time⟩

/-- Takes a rule. Summer time is one hour ahead of standard time unless it says otherwise, and needs its two days. -/
def rule : Scan ZoneRule := do
  name
  let standard ← offset
  if (← peek).isNone then return .fixed standard
  name
  let summer ← if (← peek) = some ',' then pure (standard + 3600) else offset
  expect ','
  let start ← change
  expect ','
  let finish ← change
  return .seasonal standard summer start finish

def ofText? (s : List Char) : Option ZoneRule :=
  whole rule s

end Agenda.ZoneRule
