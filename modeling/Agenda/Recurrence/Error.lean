import Agenda.Calendar.Limit
import Agenda.Calendar.DateText
import Agenda.Recurrence.Rule
/-!
What can go wrong in finding a next occurrence. Either the date or the rule is no date or rule, which is the
fault of whoever wrote it, or both are fine and no occurrence can be computed. Each error is a cause; its
wording is in one function.
-/
namespace Agenda

/-- The lists of numbers that a rule can have. -/
inductive RuleField
  | weekday
  | monthDay
  | month
  deriving DecidableEq, Repr

namespace RuleField

def name : RuleField → String
  | weekday => "day of the week"
  | monthDay => "day of the month"
  | month => "month"

/-- The numbers that the list may hold, as messages show them. -/
def range : RuleField → String
  | weekday => "1..=7"
  | monthDay => "1..=31 or -2..=-1"
  | month => "1..=12"

def admits : RuleField → Int → Bool
  | weekday => Rule.isWeekday
  | monthDay => Rule.isMonthDay
  | month => Rule.isMonth

end RuleField

/-- Why a text is not a rule. -/
inductive RuleFlaw
  | unknownKind (kind : String)
  | dailyParameters (count : Nat)
  | dailyInterval (interval : Int)
  | yearlyParameter (token : String)
  | weeklyParameters (count : Nat)
  | monthlyParameters (count : Nat)
  | outOfRange (field : RuleField) (value : Int)
  | emptyValue
  | notInteger (token : String)
  deriving DecidableEq, Repr

def RuleFlaw.message : RuleFlaw → String
  | unknownKind kind => s!"unsupported recurrence kind `{kind}` (expected one of `d`, `y`, `w` or `m`)"
  | dailyParameters n =>
    s!"daily rule requires exactly one interval, e.g., `d 7`, but found {n} parameters"
  | dailyInterval n =>
    let top := Rule.maxInterval
    s!"invalid daily interval `{n}` (values must be in range 1..={top})"
  | yearlyParameter token => s!"yearly rule does not accept any parameters, but found `{token}`"
  | weeklyParameters n =>
    s!"weekly rule requires exactly one list of week days, e.g., `w 1,3`, but found {n} parameters"
  | monthlyParameters n =>
    "monthly rule requires a list of days and an optional list of months, e.g., `m 1,-1` or `m 15 1,7`, " ++
      s!"but found {n} parameters"
  | outOfRange field v =>
    let name := field.name
    let range := field.range
    s!"invalid {name} `{v}` (values must be in range {range})"
  | emptyValue => "found empty value where an integer was expected"
  | notInteger token => s!"`{token}` is not a valid integer"

/-- Why a request is not well formed. -/
inductive SpecError
  | date (text : String) (flaw : DateFlaw)
  | emptyRule
  | rule (text : String) (flaw : RuleFlaw)
  deriving DecidableEq, Repr

def SpecError.message : SpecError → String
  | date text flaw => flaw.message text
  | emptyRule => "recurrence rule is empty (expected one of `d`, `y`, `w` or `m`)"
  | rule text flaw =>
    let reason := flaw.message
    s!"invalid recurrence rule `{text}`: {reason}"

/-- Why a well formed request has no answer. -/
inductive Fault
  /-- A daily rule with an interval below one. -/
  | interval (interval : Int)
  /-- Nothing was found within the steps of the search, counted in `unit`s. -/
  | exhausted (rule : Rule) (unit : String) (now : Date)
  /-- A step from `origin` left the range of a quantity. -/
  | range (origin : Date) (limit : Limit)
  deriving DecidableEq

/-- The most steps that a search takes: days, months or anniversaries. -/
def maxSteps : Nat := 2000

def Fault.message : Fault → String
  | interval n => s!"internal error: daily interval `{n}` must be positive"
  | exhausted rule unit now =>
    let ruleText := rule.canonical
    let nowText := now.iso
    s!"internal error: no occurrence of `{ruleText}` found within {maxSteps} {unit} after {nowText}"
  | range origin limit =>
    let from_ := origin.iso
    let reason := limit.message
    s!"internal error: date arithmetic from {from_} left the supported range of dates: {reason}"

/-- What the engine can answer with instead of a date. -/
inductive EngineError
  | spec (error : SpecError)
  | fault (fault : Fault)
  deriving DecidableEq

def EngineError.message : EngineError → String
  | spec e => e.message
  | fault f => f.message

end Agenda
