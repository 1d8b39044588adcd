import Agenda.Recurrence.Error
import Agenda.Text.Blank
/-!
Reading rules. A rule text is blank at its ends or not, has its tokens separated by single spaces and its lists
by single commas. Lists are read as sets: they come out in ascending order without repetitions, so two texts of
one rule read as equal values.
-/
namespace Agenda

open Text

namespace Rule

/-- Puts a number into an ascending list that does not hold it yet. -/
def insert (n : Int) : List Int → List Int
  | [] => [n]
  | m :: ms => if n < m then n :: m :: ms else if n = m then m :: ms else m :: insert n ms

/-- The numbers of a list in ascending order, each once. -/
def ascending (ns : List Int) : List Int :=
  ns.foldr insert []

/-- Reads an integer that fits in 64 bits. -/
def readInteger (token : List Char) : Except RuleFlaw Int :=
  if token.isEmpty then .error .emptyValue
  else match Numeral.int? token with
    | some n => if -Numeral.maxSigned - 1 ≤ n ∧ n ≤ Numeral.maxSigned then .ok n else .error (.notInteger (String.ofList token))
    | none => .error (.notInteger (String.ofList token))

def readMember (field : RuleField) (token : List Char) : Except RuleFlaw Int := do
  let n ← readInteger token
  if field.admits n then .ok n else .error (.outOfRange field n)

def readList (field : RuleField) (token : List Char) : Except RuleFlaw (List Int) := do
  let ns ← (token.splitOn ',').mapM (readMember field)
  .ok (ascending ns)

def readDaily : List (List Char) → Except RuleFlaw Rule
  | [token] => do
    let n ← readInteger token
    if 1 ≤ n ∧ n ≤ maxInterval then .ok (daily n) else .error (.dailyInterval n)
  | params => .error (.dailyParameters params.length)

def readYearly : List (List Char) → Except RuleFlaw Rule
  | [] => .ok yearly
  | token :: _ => .error (.yearlyParameter (String.ofList token))

def readWeekly : List (List Char) → Except RuleFlaw Rule
  | [token] => do
    let days ← readList .weekday token
    .ok (weekly days)
  | params => .error (.weeklyParameters params.length)

def readMonthly : List (List Char) → Except RuleFlaw Rule
  | [token] => do
    let days ← readList .monthDay token
    .ok (monthly days none)
  | [token, token'] => do
    let days ← readList .monthDay token
    let months ← readList .month token'
    .ok (monthly days (some months))
  | params => .error (.monthlyParameters params.length)

def readTokens : List (List Char) → Except RuleFlaw Rule
  | ['d'] :: params => readDaily params
  | ['y'] :: params => readYearly params
  | ['w'] :: params => readWeekly params
  | ['m'] :: params => readMonthly params
  | kind :: _ => .error (.unknownKind (String.ofList kind))
  | [] => .error (.unknownKind "")

def parse (text : String) : Except SpecError Rule :=
  let body := trim text.toList
  if body.isEmpty then .error .emptyRule
  else (readTokens (body.splitOn ' ')).mapError (.rule (String.ofList body))

end Rule

/-- Reads a date, with the text kept in the error. -/
def Date.parse (text : String) : Except SpecError Date :=
  (Date.ofDigits text).mapError (.date text)

end Agenda
