import Agenda.Clock.Timestamp
import Agenda.Clock.ZoneTable
import Agenda.Command.Run
import Agenda.Text.Quoted
/-!
What a run finds when it starts: its arguments, the environment, the standard input, the files and the clock; and what
it takes to be today. Today is the date that the environment sets, as eight digits or as a timestamp, or else the
current date of the time zone. The zone is the one that the environment names or describes, or else that of the place.
-/
namespace Agenda

open Text

/-- The variables of the environment that matter. -/
structure Environment where
  /-- What today is. -/
  today : Option Bytes
  timeZone : Option Bytes
  /-- The least level of records that are kept. -/
  logLevel : Option Bytes
  noColor : Option Bytes
  terminal : Option Bytes
  /-- Whether failures are told in detail; the second variable can take that back. -/
  details : Option Bytes
  libraryDetails : Option Bytes

/-- What a run finds when it starts. -/
structure World where
  arguments : List Bytes
  environment : Environment
  stdin : Reader
  /-- Why no more can be read of the standard input, unless that is all. -/
  stdinFlaw : Option FileFlaw := none
  /-- What a path names. -/
  find : Bytes → Except FileFlaw Entry
  /-- The current moment. -/
  clock : Moment
  /-- The time zones of the system. -/
  zones : ZoneBook := .shipped
  /-- Whether somebody reads what is printed. -/
  isOpen : Bool
  /-- Whether failures and records go to a terminal. -/
  hasTerminal : Bool

namespace Environment

def bytesOf (s : String) : Bytes :=
  Utf8.encode s.toList

/-- The level of records that is asked for, with `none` for no records at all. What is no text asks for none. -/
def level (e : Environment) : Except Failure (Option Level) :=
  let name := ((e.logLevel.bind Utf8.decode?).map String.ofList).getD ""
  if name = "" ∨ name = "off" then .ok none
  else if name = "error" then .ok (some .error)
  else if name = "warn" then .ok (some .warn)
  else if name = "info" then .ok (some .info)
  else if name = "debug" then .ok (some .debug)
  else if name = "trace" then .ok (some .trace)
  else .error (.of (.logLevel name))

/-- The level of the records that are kept: none are when the level that is asked for does not exist. -/
def keptLevel (e : Environment) : Option Level :=
  match e.level with
  | .ok level => level
  | .error _ => none

/-- Whether failures are told with one cause on a line. -/
def wantsDetails (e : Environment) : Bool :=
  let isText (bs : Bytes) : Bool := (Utf8.decode? bs).isSome
  e.details == some (bytesOf "1") && e.libraryDetails.all fun bs => bs == bytesOf "1" || !isText bs

def allowsColor (e : Environment) : Bool :=
  e.noColor.all List.isEmpty && e.terminal != some (bytesOf "dumb")

end Environment

/-- Why the date that the environment sets is not used. -/
inductive TodayFlaw
  | notText (value : Bytes)
  | notDate

def TodayFlaw.message : TodayFlaw → String
  | notText value =>
    let quoted := Quoted.bytes value
    s!"`DUE_NOW` environment variable is not valid UTF-8: {quoted}"
  | notDate =>
    "`DUE_NOW` environment variable is neither a `YYYYMMDD` date nor a valid RFC 3339 timestamp: " ++
      "a date, a time and an offset are needed"

namespace World

/-- The time zone. -/
def zone (w : World) : Zone :=
  match w.environment.timeZone with
  | some bs => w.zones.ofText (Utf8.lossy bs)
  | none => w.zones.here

/-- The date that the environment sets. -/
def setDate (w : World) : Except TodayFlaw (Option Date) :=
  match w.environment.today with
  | none => .ok none
  | some value =>
    match Utf8.decode? value with
    | none => .error (.notText value)
    | some s =>
      match Date.ofDigits (String.ofList s) with
      | .ok d => .ok (some d)
      | .error _ =>
        match Timestamp.ofText? s with
        | some t => .ok (some (w.zone.dateAt t))
        | none => .error .notDate

def currentDate (w : World) : Date :=
  w.zone.dateAt w.clock

def todayDate (w : World) : Date :=
  match w.setDate with
  | .ok (some d) => d
  | _ => w.currentDate

def todayRecord (w : World) : Record :=
  let date := w.todayDate.iso
  match w.setDate with
  | .ok (some _) => ⟨.trace, s!"setting today to `{date}` from `DUE_NOW` environment variable"⟩
  | .ok none => ⟨.trace, s!"`DUE_NOW` environment variable not set, using current date `{date}`"⟩
  | .error flaw =>
    let reason := flaw.message
    ⟨.warn, s!"reading `DUE_NOW` failed, using current date `{date}`: {reason}"⟩

def today (w : World) : Run Date := do
  Run.record [w.todayRecord]
  return w.todayDate

/-- The date that an option gives, or today. -/
def referenceDate (w : World) : Option Date → Run Date
  | some d => Run.done d
  | none => w.today

end World

end Agenda
