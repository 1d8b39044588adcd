/-!
Decimal numerals. `digits` writes a natural number without leading zeros, `ofInt` puts a minus sign in front
of a negative integer, `padded` writes at least a given number of digits. `int?` reads an optional sign and
one or more digits, any number of leading zeros among them, so it reads back everything the writers write.
-/
namespace Agenda.Text.Numeral

/-- The digit for a value below ten. -/
def digit (n : Nat) : Char :=
  Char.ofNat (48 + n % 10)

/-- The numeral of a natural number, without leading zeros. -/
def digits (n : Nat) : List Char :=
  if n < 10 then [digit n] else digits (n / 10) ++ [digit n]
termination_by n
decreasing_by omega

/-- At least `width` digits, with zeros in front where there are too few. -/
def padded (width n : Nat) : List Char :=
  List.replicate (width - (digits n).length) '0' ++ digits n

/-- The numeral of an integer: a minus sign for a negative one. -/
def ofInt (n : Int) : List Char :=
  if n < 0 then '-' :: digits n.natAbs else digits n.natAbs

/-- The greatest natural number of 64 bits. -/
def maxUnsigned : Nat := 0xFFFFFFFFFFFFFFFF

/-- The greatest integer of 64 bits; the least one is one further from zero. -/
def maxSigned : Int := 0x7FFFFFFFFFFFFFFF

def isDigit (c : Char) : Bool :=
  '0' ≤ c && c ≤ '9'

def digitValue (c : Char) : Nat :=
  c.toNat - 48

def value (s : List Char) : Nat :=
  s.foldl (fun n c => 10 * n + digitValue c) 0

/-- Reads one or more digits and nothing else. -/
def nat? (s : List Char) : Option Nat :=
  if s.isEmpty || !s.all isDigit then none else some (value s)

/-- Reads an optional single sign and then one or more digits. -/
def int? : List Char → Option Int
  | '+' :: s => (nat? s).map Int.ofNat
  | '-' :: s => (nat? s).map (fun n => -Int.ofNat n)
  | s => (nat? s).map Int.ofNat

end Agenda.Text.Numeral
