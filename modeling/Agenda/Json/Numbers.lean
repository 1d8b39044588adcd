import Agenda.Json.Scan
/-!
Numbers of JSON with their values. An integer that fits in 64 bits is exact. Any other number is a floating point one:
its first digits, as many as fit in 64 bits, are rounded, and the result is multiplied or divided by a power of ten
and rounded again.
-/
namespace Agenda.Json

open Text

/-- The greatest exponent that is read to its end. -/
def maxExponent : Nat := 0x7FFFFFFF

/-- The greatest power of ten that is a factor by itself. -/
def maxPower : Nat := 308

/-- Appends digits to a significand as long as it fits: the significand, how many digits were taken, and the bytes
that are left. -/
def takeDigits (significand taken : Nat) : Bytes → Nat × Nat × Bytes
  | [] => (significand, taken, [])
  | b :: bs =>
    if isDigitByte b ∧ significand * 10 + digitOfByte b ≤ Numeral.maxUnsigned then
      takeDigits (significand * 10 + digitOfByte b) (taken + 1) bs
    else (significand, taken, b :: bs)

/-- Divides by powers of ten, none above the greatest single one. -/
def divPower (x : Binary64) (e : Nat) : Binary64 :=
  if x.mantissa = 0 then x
  else if maxPower < e then divPower (x.div (Binary64.ofNat (Nat.pow 10 maxPower))) (e - maxPower)
  else x.div (Binary64.ofNat (Nat.pow 10 e))
termination_by e
decreasing_by unfold maxPower at *; omega

/-- The number `significand * 10 ^ e`, if it is in range. -/
def ofParts? (significand : Nat) (e : Int) : Option Binary64 :=
  let x := Binary64.ofNat significand
  if e < 0 then some (divPower x (-e).toNat)
  else if x.mantissa = 0 then some x
  else if (maxPower : Int) < e then none
  else
    let y := x.mul (Binary64.ofNat (Nat.pow 10 e.toNat))
    if y.isFinite then some y else none

/-- Ends a floating point number in front of the bytes that are left. -/
def endFloat (negative : Bool) (significand : Nat) (e : Int) : Scanner Number := fun s =>
  match ofParts? significand e with
  | some x => .ok (.float negative x, s)
  | none => .error (.before .numberOutOfRange s)

/-- Reads the digits of an exponent as long as it fits: none, and the bytes after the digit that no longer fits, when
it does not. -/
def takeExponent (e : Nat) : Bytes → Option Nat × Bytes
  | [] => (some e, [])
  | b :: bs =>
    if isDigitByte b then
      if e * 10 + digitOfByte b ≤ maxExponent then takeExponent (e * 10 + digitOfByte b) bs else (none, bs)
    else (some e, b :: bs)

/-- Reads the first digit of an exponent and the others. -/
def scanExponentDigits (negative : Bool) (significand : Nat) (start : Int) (below : Bool) : Scanner Number
  | [] => .error (.before .endInValue [])
  | b :: bs =>
    if isDigitByte b then
      match takeExponent (digitOfByte b) bs with
      | (some e, rest) => endFloat negative significand (if below then start - e else start + e) rest
      -- too far from zero is an error, too near to it is zero
      | (none, rest) =>
        if significand ≠ 0 ∧ below = false then .error (.before .numberOutOfRange rest)
        else .ok (.float negative .zero, rest.dropWhile isDigitByte)
    else .error (.before .invalidNumber bs)

/-- Reads an exponent whose letter was read. -/
def scanExponent (negative : Bool) (significand : Nat) (start : Int) : Scanner Number
  | [] => scanExponentDigits negative significand start false []
  | b :: bs =>
    if b = 0x2B then scanExponentDigits negative significand start false bs
    else if b = 0x2D then scanExponentDigits negative significand start true bs
    else scanExponentDigits negative significand start false (b :: bs)

/-- Reads an exponent, if one follows, and ends a floating point number. -/
def scanExponentPart (negative : Bool) (significand : Nat) (start : Int) : Scanner Number
  | [] => endFloat negative significand start []
  | b :: bs =>
    if b = 0x65 ∨ b = 0x45 then scanExponent negative significand start bs
    else endFloat negative significand start (b :: bs)

/-- Reads the digits after a point. Those that no longer fit are dropped. -/
def scanFraction (negative : Bool) (significand : Nat) (start : Int) : Scanner Number := fun s =>
  let (significand, taken, rest) := takeDigits significand 0 s
  let e := start - taken
  if rest.head?.any isDigitByte then scanExponentPart negative significand e (rest.dropWhile isDigitByte)
  else if taken = 0 then .error (.within (if rest.isEmpty then .endInValue else .invalidNumber) rest)
  else scanExponentPart negative significand e rest

/-- The number of an integer that fits. A negative zero is a floating point number, and so is a negative integer that
does not fit with its sign. -/
def ofInteger (negative : Bool) (n : Nat) : Number :=
  if negative then
    if 1 ≤ n ∧ (n : Int) ≤ Numeral.maxSigned + 1 then .integer (-n) else .float true (Binary64.ofNat n)
  else .integer n

/-- Reads what follows the digits before the point. -/
def scanAfterInteger (negative : Bool) (n : Nat) : Scanner Number
  | [] => .ok (ofInteger negative n, [])
  | b :: bs =>
    if b = 0x2E then scanFraction negative n 0 bs
    else if b = 0x65 ∨ b = 0x45 then scanExponent negative n 0 bs
    else .ok (ofInteger negative n, b :: bs)

/-- Reads the digits before the point that no longer fit, and what follows them. -/
def scanLong (negative : Bool) (n : Nat) : Scanner Number := fun s =>
  let places : Int := (s.takeWhile isDigitByte).length
  match s.dropWhile isDigitByte with
  | [] => endFloat negative n places []
  | b :: bs => if b = 0x2E then scanFraction negative n places bs else scanExponentPart negative n places (b :: bs)

/-- Reads a number whose sign was read. -/
def scanNumber (negative : Bool) : Scanner Number
  | [] => .error (.before .endInValue [])
  | b :: bs =>
    if b = 0x30 then
      if bs.head?.any isDigitByte then .error (.within .invalidNumber bs) else scanAfterInteger negative 0 bs
    else if isDigitByte b then
      let (n, _, rest) := takeDigits (digitOfByte b) 0 bs
      -- a digit is left exactly when the number no longer fits
      if rest.head?.any isDigitByte then scanLong negative n rest else scanAfterInteger negative n rest
    else .error (.before .invalidNumber bs)

end Agenda.Json
