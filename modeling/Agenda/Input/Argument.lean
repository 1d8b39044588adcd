import Agenda.Failure
import Agenda.Input.Lines
import Agenda.Recurrence.RuleText
/-!
Values that come as bytes: rules from an argument or a line, and the number of occurrences.
-/
namespace Agenda

open Text

/-- Reads a rule from bytes, which must be text. -/
def Rule.ofBytes (bs : Bytes) : Except Failure Rule :=
  match Utf8.decode? bs with
  | none =>
    .error ((Failure.of (.encoding (Utf8.intactLength bs))).during (.ruleText (String.ofList (Utf8.lossy bs))))
  | some s => (Rule.parse (String.ofList s)).mapError fun e => .ofEngine (.spec e)

/-- Why a text is not a number of occurrences. -/
inductive CountFlaw
  | numeral (text : String) (flaw : NumeralFlaw)
  | zero
  deriving DecidableEq, Repr

namespace CountFlaw

def failure : CountFlaw → Failure
  | numeral text flaw => (Failure.of (.numeral flaw)).during (.integer text)
  | zero => .of .zeroCount

/-- The flaw as the cause of another failure, with no more than its outermost message. -/
def cause : CountFlaw → Cause
  | numeral text _ => .notInteger text
  | zero => .zeroCount

end CountFlaw

/-- Reads a natural number of 64 bits, with a plus sign in front or none. Of a number that is too large and a character
that is no digit, the one that comes first is told. -/
def readNatural (s : List Char) : Except NumeralFlaw Nat :=
  let digits := match s with
    | '+' :: rest => if rest.isEmpty then s else rest
    | _ => s
  if digits.isEmpty then .error .empty
  else if Numeral.maxUnsigned < Numeral.value (digits.takeWhile Numeral.isDigit) then .error .tooLarge
  else if digits.all Numeral.isDigit then .ok (Numeral.value digits)
  else .error .digit

/-- Reads a number of occurrences, at least one. -/
def readCount (text : String) : Except CountFlaw Nat := do
  let n ← (readNatural text.toList).mapError (.numeral text)
  if n = 0 then .error .zero else .ok n

end Agenda
