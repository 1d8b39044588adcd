import Agenda.Json.Error
/-!
The tokens of JSON. A scanner takes a token off the front of the bytes and gives what the token says and the bytes
that are left.
-/
namespace Agenda.Json

open Text

abbrev Scanner (α : Type) := Bytes → Except Flaw (α × Bytes)

def isSpace (b : UInt8) : Bool :=
  b == 0x20 || b == 0x0A || b == 0x09 || b == 0x0D

def skipSpace (s : Bytes) : Bytes :=
  s.dropWhile isSpace

def isDigitByte (b : UInt8) : Bool :=
  0x30 ≤ b && b ≤ 0x39

def digitOfByte (b : UInt8) : Nat :=
  b.toNat - 0x30

/-- Takes the rest of a word whose first letter was read. -/
def skipIdent : (word : Bytes) → Bytes → Except Flaw Bytes
  | [], s => .ok s
  | _ :: _, [] => .error (.before .endInValue [])
  | w :: ws, b :: bs => if b = w then skipIdent ws bs else .error (.before .identExpected bs)

/-- The letters after the first of `null`, `true` and `false`. -/
def ull : Bytes := [0x75, 0x6C, 0x6C]
@[inherit_doc ull] def rue : Bytes := [0x72, 0x75, 0x65]
@[inherit_doc ull] def alse : Bytes := [0x61, 0x6C, 0x73, 0x65]

/-- Takes the digits of an exponent, whose letter was read. -/
def skipExponent (s : Bytes) : Except Flaw Bytes :=
  let s := match s with
    | b :: bs => if b = 0x2B ∨ b = 0x2D then bs else s
    | [] => s
  match s with
  | b :: bs => if isDigitByte b then .ok (bs.dropWhile isDigitByte) else .error (.before .invalidNumber bs)
  | [] => .error (.before .invalidNumber [])

def skipExponentPart (s : Bytes) : Except Flaw Bytes :=
  match s with
  | b :: bs => if b = 0x65 ∨ b = 0x45 then skipExponent bs else .ok s
  | [] => .ok s

/-- Takes the digits after a point, and an exponent if one follows. -/
def skipFraction (s : Bytes) : Except Flaw Bytes :=
  match s with
  | b :: bs =>
    if isDigitByte b then skipExponentPart (bs.dropWhile isDigitByte) else .error (.within .invalidNumber s)
  | [] => .error (.within .invalidNumber s)

/-- Takes a fraction and an exponent, if they follow. -/
def skipFractionPart (s : Bytes) : Except Flaw Bytes :=
  match s with
  | b :: bs => if b = 0x2E then skipFraction bs else skipExponentPart s
  | [] => .ok s

/-- Takes a number without its sign. A number that begins with zero has no other digit before its point. -/
def skipMagnitude : Bytes → Except Flaw Bytes
  | b :: bs =>
    if b = 0x30 then
      if bs.head?.any isDigitByte then .error (.within .invalidNumber bs) else skipFractionPart bs
    else if isDigitByte b then skipFractionPart (bs.dropWhile isDigitByte)
    else .error (.before .invalidNumber bs)
  | [] => .error (.before .invalidNumber [])

/-- What the letter after a backslash stands for, when it is not `u`. -/
def escaped? (b : UInt8) : Option UInt8 :=
  if b = 0x22 ∨ b = 0x5C ∨ b = 0x2F then some b
  else if b = 0x62 then some 0x08
  else if b = 0x66 then some 0x0C
  else if b = 0x6E then some 0x0A
  else if b = 0x72 then some 0x0D
  else if b = 0x74 then some 0x09
  else none

end Agenda.Json
