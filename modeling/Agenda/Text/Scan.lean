import Agenda.Text.Numeral
/-!
Reading short texts from the front. A scan takes some characters off a text or fails; scans are put together one after
the other.
-/
namespace Agenda.Text

/-- Takes characters off the front of a text and says what they stand for. -/
abbrev Scan := StateT (List Char) Option

namespace Scan

def whole {α : Type} (scan : Scan α) (s : List Char) : Option α :=
  match scan.run s with
  | some (a, []) => some a
  | _ => none

def peek : Scan (Option Char) := do
  return (← get).head?

def one (p : Char → Bool) : Scan Char := fun s =>
  match s with
  | c :: cs => if p c then some (c, cs) else none
  | [] => none

/-- Takes a character if it is the given one, and says whether it was. -/
def accept (c : Char) : Scan Bool := fun s =>
  if s.head? = some c then some (true, s.tail) else some (false, s)

def expect (c : Char) : Scan Unit := do
  let _ ← one (· == c)

/-- Takes the longest row of characters of a class, at most `limit` of them. -/
def row (p : Char → Bool) (limit : Nat) : Scan (List Char) := fun s =>
  let taken := (s.take limit).takeWhile p
  some (taken, s.drop taken.length)

def digits (n : Nat) : Scan Nat := fun s =>
  let taken := s.take n
  if taken.length = n ∧ taken.all Numeral.isDigit then some (Numeral.value taken, s.drop n) else none

def digitsUpTo (limit : Nat) : Scan Nat := do
  let taken ← row Numeral.isDigit limit
  if taken.isEmpty then failure else return Numeral.value taken

def inRange (low high : Nat) (scan : Scan Nat) : Scan Nat := do
  let n ← scan
  if low ≤ n ∧ n ≤ high then return n else failure

end Scan

end Agenda.Text
