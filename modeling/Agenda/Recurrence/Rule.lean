import Agenda.Text.Numeral
/-!
Recurrence rules: every so many days, every year, on days of the week, or on days of the month, perhaps of some
months only. A rule value may hold any numbers; `Rule.WellFormed` says which values are rules that can be
written. Each rule has two texts, the canonical one and a JSON object.
-/
namespace Agenda

open Text

/-- A recurrence rule. -/
inductive Rule
  /-- Every `interval` days. -/
  | daily (interval : Int)
  /-- Every year on the same month and day. -/
  | yearly
  /-- On days of the week, from 1 for Monday to 7 for Sunday. -/
  | weekly (days : List Int)
  /-- On days of the month, negative ones from its end, of every month or of the given ones. -/
  | monthly (days : List Int) (months : Option (List Int))
  deriving DecidableEq, Repr

namespace Rule

def maxInterval : Int := 400

def isWeekday (n : Int) : Bool :=
  1 ≤ n && n ≤ 7

/-- Whether a number is a day of the month: 1 to 31, or the last or last but one. -/
def isMonthDay (n : Int) : Bool :=
  (-2 ≤ n && n ≤ -1) || (1 ≤ n && n ≤ 31)

def isMonth (n : Int) : Bool :=
  1 ≤ n && n ≤ 12

/-- A non-empty strictly ascending list of numbers of one kind. -/
def IsSet (kind : Int → Bool) (values : List Int) : Prop :=
  values ≠ [] ∧ values.Pairwise (· < ·) ∧ ∀ v ∈ values, kind v = true

/-- The rule values that a text can stand for. -/
def WellFormed : Rule → Prop
  | daily interval => 1 ≤ interval ∧ interval ≤ maxInterval
  | yearly => True
  | weekly days => IsSet isWeekday days
  | monthly days months => IsSet isMonthDay days ∧ ∀ ms ∈ months, IsSet isMonth ms

def numerals : List Int → List Char
  | [] => []
  | [n] => Numeral.ofInt n
  | n :: ns => Numeral.ofInt n ++ ',' :: numerals ns

def canonicalChars : Rule → List Char
  | daily interval => 'd' :: ' ' :: Numeral.ofInt interval
  | yearly => ['y']
  | weekly days => 'w' :: ' ' :: numerals days
  | monthly days none => 'm' :: ' ' :: numerals days
  | monthly days (some months) => 'm' :: ' ' :: numerals days ++ ' ' :: numerals months

/-- The canonical text of a rule: its kind, then its numbers. -/
def canonical (r : Rule) : String :=
  String.ofList r.canonicalChars

def jsonArray (ns : List Int) : List Char :=
  '[' :: numerals ns ++ [']']

def jsonChars : Rule → List Char
  | daily interval => "\x7b\"kind\":\"daily\",\"interval\":".toList ++ Numeral.ofInt interval ++ ['\x7d']
  | yearly => "\x7b\"kind\":\"yearly\"\x7d".toList
  | weekly days => "\x7b\"kind\":\"weekly\",\"days\":".toList ++ jsonArray days ++ ['\x7d']
  | monthly days months =>
    "\x7b\"kind\":\"monthly\",\"days\":".toList ++ jsonArray days ++ ",\"months\":".toList ++
      months.elim "null".toList jsonArray ++ ['\x7d']

def json (r : Rule) : String :=
  String.ofList r.jsonChars

end Rule

end Agenda
