import Agenda.Clock.Moment
import Agenda.Text.Scan
/-!
Timestamps such as `2024-01-26T07:30:00-05:00`: a date, a time, and how far that time is ahead of universal time. Date
and time are each written with separators or without, a year of six digits has a sign, and notes in square brackets may
follow, which must have the right form and say nothing that counts.
-/
namespace Agenda.Timestamp

open Text Scan

def minMoment : Moment := Moment.ofSeconds (-377705023201)

def maxMoment : Moment := Moment.ofSeconds 253402207201 - 1

/-- Takes a year: four digits, or a sign and six digits. Year zero has no minus sign. -/
def year : Scan Int := do
  if ← accept '-' then
    let y ← inRange 1 9999 (digits 6)
    return -(y : Int)
  if ← accept '+' then return (← inRange 0 9999 (digits 6) : Nat)
  return (← digits 4 : Nat)

/-- Takes the separator of the parts of a date, which is there between all of them or none. -/
def dateSeparator (separated : Bool) : Scan Unit := do
  if separated then expect '-' else guard ((← peek) ≠ some '-')

def date : Scan Date := do
  let y ← year
  let separated := (← peek) = some '-'
  dateSeparator separated
  let m ← inRange 1 12 (digits 2)
  dateSeparator separated
  let d ← inRange 1 31 (digits 2)
  (Date.ofParts? y m d : Option Date)

/-- Whether another part of a time follows. Without separators two digits say so. -/
def anotherPart (separated : Bool) : Scan Bool := do
  if separated then accept ':'
  else
    let next := (← get).take 2
    return next.length == 2 && next.all Numeral.isDigit

/-- Takes up to nine digits of a fraction, if a point or a comma comes before them: how many nanoseconds it has. -/
def fraction : Scan Nat := do
  let pointed ← accept '.'
  let found ← if pointed then pure true else accept ','
  if found then
    let ds ← row Numeral.isDigit 9
    guard !ds.isEmpty
    return Numeral.value (ds ++ List.replicate (9 - ds.length) '0')
  return 0

/-- Takes the hours, minutes and seconds of a time, each part after the first only if it is there: the seconds of all
of them, and the nanoseconds that follow. -/
def clock (maxHours maxSeconds : Nat) : Scan (Int × Nat) := do
  let hours ← inRange 0 maxHours (digits 2)
  let separated := (← peek) = some ':'
  if !(← anotherPart separated) then return (hours * 3600, 0)
  let minutes ← inRange 0 59 (digits 2)
  if !(← anotherPart separated) then return (hours * 3600 + minutes * 60, 0)
  let seconds ← inRange 0 maxSeconds (digits 2)
  let nanoseconds ← fraction
  -- a leap second counts as the second before it
  return (hours * 3600 + minutes * 60 + (min seconds 59 : Nat), nanoseconds)

/-- The greatest offset in seconds. -/
def maxOffset : Int := 93599

/-- Takes an offset after its sign, rounded to seconds. -/
def magnitude : Scan Int := do
  let (seconds, nanoseconds) ← clock 25 59
  let rounded := if nanoseconds < 500000000 then seconds else seconds + 1
  if rounded ≤ maxOffset then return rounded else failure

/-- Takes how far a time is ahead of universal time: a letter for not at all, or a sign and a time. -/
def offset : Scan Int := do
  match ← one fun c => c == 'Z' || c == 'z' || c == '+' || c == '-' with
  | '+' => magnitude
  | '-' => return -(← magnitude)
  | _ => return 0

def isZoneLetter (c : Char) : Bool :=
  ('a' ≤ c && c ≤ 'z') || ('A' ≤ c && c ≤ 'Z') || c == '_' || c == '.'

def isZoneChar (c : Char) : Bool :=
  isZoneLetter c || Numeral.isDigit c || c == '+' || c == '-'

def isKeyLetter (c : Char) : Bool :=
  ('a' ≤ c && c ≤ 'z') || c == '_'

def isKeyChar (c : Char) : Bool :=
  isKeyLetter c || Numeral.isDigit c || c == '-'

def isValueChar (c : Char) : Bool :=
  ('a' ≤ c && c ≤ 'z') || ('A' ≤ c && c ≤ 'Z') || Numeral.isDigit c

/-- Whether a text is a character of one class and then characters of another. -/
def isWord (first rest : Char → Bool) : List Char → Bool
  | c :: cs => first c && cs.all rest
  | [] => false

/-- Whether a text is an offset in hours and minutes, after its sign. -/
def isOffsetNote (s : List Char) : Bool :=
  let scan : Scan Unit := do
    let _ ← inRange 0 25 (digits 2)
    let separated := (← peek) = some ':'
    if ← anotherPart separated then
      let _ ← inRange 0 59 (digits 2)
  (scan.whole s).isSome

/-- Whether a note names a zone, as only the first one may. -/
def isZoneNote (s : List Char) : Bool :=
  match s with
  | '+' :: rest => isOffsetNote rest
  | '-' :: rest => isOffsetNote rest
  | _ => (s.splitOn '/').all (isWord isZoneLetter isZoneChar)

def isKeyNote (s : List Char) : Bool :=
  match s.splitOn '=' with
  | [key, value] => isWord isKeyLetter isKeyChar key && (value.splitOn '-').all (isWord isValueChar isValueChar)
  | _ => false

/-- Whether a note may stand where it does. One that names a zone may be marked as binding, a key may not. -/
def isNote (first : Bool) (s : List Char) : Bool :=
  let zone := if s.head? = some '!' then s.tail else s
  (first && isZoneNote zone) || isKeyNote s

/-- Whether a text is nothing but notes in square brackets. -/
def isNotes (s : List Char) : Bool :=
  match (s.splitOn ']').reverse with
  -- cut after each closing bracket, nothing may be left
  | [] :: notes =>
    notes.reverse.zipIdx.all fun
      | ('[' :: note, i) => isNote (i == 0) note
      | _ => false
  | _ => false

/-- Takes a date, a time and an offset: the moment that they stand for. -/
def moment : Scan Moment := do
  let d ← date
  let _ ← one fun c => c == 'T' || c == 't' || c == ' '
  let (seconds, nanoseconds) ← clock 23 60
  let ahead ← offset
  let t := Moment.ofSeconds (d.dayNumber * daySeconds + seconds - ahead) + nanoseconds
  if minMoment ≤ t ∧ t ≤ maxMoment then return t else failure

def ofText? (s : List Char) : Option Moment :=
  match moment.run s with
  | some (t, notes) => if isNotes notes then some t else none
  | none => none

end Agenda.Timestamp
