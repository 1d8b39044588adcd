/-!
Hexadecimal numerals. They are written with lower case letters, or with upper case ones where a byte stands alone,
and read with either.
-/
namespace Agenda.Text.Hexadecimal

/-- The digit for a value below sixteen, in lower case. -/
def digit (n : Nat) : Char :=
  if n % 16 < 10 then Char.ofNat (48 + n % 16) else Char.ofNat (87 + n % 16)

/-- The digit for a value below sixteen, in upper case. -/
def upperDigit (n : Nat) : Char :=
  if n % 16 < 10 then Char.ofNat (48 + n % 16) else Char.ofNat (55 + n % 16)

/-- The numeral of a number, without leading zeros. -/
def digits (n : Nat) : List Char :=
  if n < 16 then [digit n] else digits (n / 16) ++ [digit n]
termination_by n
decreasing_by omega

/-- Two digits for the value of a byte, in lower case. -/
def pair (n : Nat) : List Char :=
  [digit (n / 16), digit n]

/-- Two digits for the value of a byte, in upper case. -/
def upperPair (n : Nat) : List Char :=
  [upperDigit (n / 16), upperDigit n]

/-- What a byte stands for as a hexadecimal digit. -/
def byteValue? (b : UInt8) : Option Nat :=
  if 0x30 ≤ b ∧ b ≤ 0x39 then some (b.toNat - 0x30)
  else if 0x41 ≤ b ∧ b ≤ 0x46 then some (b.toNat - 55)
  else if 0x61 ≤ b ∧ b ≤ 0x66 then some (b.toNat - 87)
  else none

end Agenda.Text.Hexadecimal
