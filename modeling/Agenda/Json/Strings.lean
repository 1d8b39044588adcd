import Agenda.Json.Scan
/-!
Strings of JSON, after the quote that opens them. `scanString` reads one: escapes become the characters they stand
for, two escapes for the halves of a surrogate pair become one character, and the bytes must be text in the end.
`skipString` only finds its end and looks at the form of the escapes, not at what they stand for.
-/
namespace Agenda.Json

open Text

/-- The byte that opens and closes a string. -/
def quote : UInt8 := 0x22

/-- The byte that begins an escape. -/
def backslash : UInt8 := 0x5C

/-- The letter of an escape by number. -/
def letterU : UInt8 := 0x75

/-- Whether a number is the first half of a surrogate pair. -/
def isHighSurrogate (n : Nat) : Bool :=
  0xD800 ≤ n && n ≤ 0xDBFF

/-- Whether a number is the second half of a surrogate pair. -/
def isLowSurrogate (n : Nat) : Bool :=
  0xDC00 ≤ n && n ≤ 0xDFFF

def pairedChar (high low : Nat) : Char :=
  Char.ofNat ((high - 0xD800) * 0x400 + (low - 0xDC00) + 0x10000)

/-- Where the scanner of a string stands. An escape by number has a value as long as its digits are digits. -/
inductive Inside
  | plain
  | escape
  | hex (missing : Nat) (value : Option Nat) (high : Option Nat)
  /-- After the first half of a pair, where a backslash must follow. -/
  | pair (high : Nat)
  /-- After the first half of a pair and a backslash. -/
  | pairEscape (high : Nat)
  deriving DecidableEq

/-- The value of an escape with one more digit. -/
def pushHex (value : Option Nat) (b : UInt8) : Option Nat :=
  match value, Hexadecimal.byteValue? b with
  | some v, some d => some (v * 16 + d)
  | _, _ => none

/-- What an escape by number comes to: the bytes it stands for, and the state after it. -/
def endHex (value high : Option Nat) : Except Reason (Bytes × Inside) :=
  match value, high with
  | none, _ => .error .invalidEscape
  -- the first escape: a character, or the first half of a pair
  | some n, none =>
    if isLowSurrogate n then .error .loneSurrogate
    else if isHighSurrogate n then .ok ([], .pair n)
    else .ok (String.utf8EncodeChar (Char.ofNat n), .plain)
  -- the second escape must be the second half
  | some n, some h =>
    if isLowSurrogate n then .ok (String.utf8EncodeChar (pairedChar h n), .plain) else .error .loneSurrogate

/-- What one byte of a string comes to, when it does not end the string: the bytes it adds, and the state after
it. -/
def stringStep : Inside → UInt8 → Except Reason (Bytes × Inside)
  | .plain, b =>
    if b = backslash then .ok ([], .escape)
    else if b < 0x20 then .error .controlCharacter
    else .ok ([b], .plain)
  | .escape, b =>
    if b = letterU then .ok ([], .hex 4 (some 0) none)
    else match escaped? b with
      | some c => .ok ([c], .plain)
      | none => .error .invalidEscape
  | .hex missing value high, b =>
    let value := pushHex value b
    if missing ≤ 1 then endHex value high else .ok ([], .hex (missing - 1) value high)
  | .pair high, b => if b = backslash then .ok ([], .pairEscape high) else .error .halfSurrogatePair
  | .pairEscape high, b =>
    if b = letterU then .ok ([], .hex 4 (some 0) (some high)) else .error .halfSurrogatePair

/-- The flaw of a string that was read up to its closing quote, when the bytes that it stands for are not text. Its
place is that of the first byte that belongs to no character, counted back from the quote with one byte of the string
for each byte of the text. -/
def notText (content rest : Bytes) : Flaw :=
  ⟨.invalidCodePoint, rest.length + (content.length - Utf8.intactLength content)⟩

/-- Reads a string up to its closing quote; `found` holds the bytes before, the last one first. -/
def scanStringFrom : Inside → (found : Bytes) → Scanner (List Char)
  | _, _, [] => .error (.before .endInString [])
  | state, found, b :: bs =>
    if state = .plain ∧ b = quote then
      match Utf8.decode? found.reverse with
      | some s => .ok (s, bs)
      | none => .error (notText found.reverse bs)
    else
      match stringStep state b with
      | .ok (added, state') => scanStringFrom state' (added.reverse ++ found) bs
      | .error r => .error (.before r bs)

/-- Reads a string whose opening quote was read. -/
def scanString : Scanner (List Char) :=
  scanStringFrom .plain []

theorem scanStringFrom_length {state : Inside} {found s : Bytes} {t : List Char} {r : Bytes}
    (h : scanStringFrom state found s = .ok (t, r)) : r.length < s.length := by
  induction s generalizing state found with
  | nil => simp [scanStringFrom] at h
  | cons b bs ih =>
    simp only [scanStringFrom] at h
    grind

theorem scanString_length {s : Bytes} {t : List Char} {r : Bytes} (h : scanString s = .ok (t, r)) :
    r.length < s.length :=
  scanStringFrom_length h

/-- Where the skipping of a string stands. -/
inductive Skipping
  | plain
  | escape
  | hex (missing : Nat) (valid : Bool)
  deriving DecidableEq

/-- Finds the end of a string that is not kept. A control character is a flaw where it stands. -/
def skipStringFrom : Skipping → Bytes → Except Flaw Bytes
  | _, [] => .error (.before .endInString [])
  | .plain, b :: bs =>
    if b = quote then .ok bs
    else if b = backslash then skipStringFrom .escape bs
    else if b < 0x20 then .error (.before .controlCharacter (b :: bs))
    else skipStringFrom .plain bs
  | .escape, b :: bs =>
    if b = letterU then skipStringFrom (.hex 4 true) bs
    else if (escaped? b).isSome then skipStringFrom .plain bs
    else .error (.before .invalidEscape bs)
  | .hex missing valid, b :: bs =>
    let valid := valid && (Hexadecimal.byteValue? b).isSome
    if missing ≤ 1 then
      if valid then skipStringFrom .plain bs else .error (.before .invalidEscape bs)
    else skipStringFrom (.hex (missing - 1) valid) bs

/-- Skips a string whose opening quote was read. -/
def skipString : Bytes → Except Flaw Bytes :=
  skipStringFrom .plain

theorem skipStringFrom_length {state : Skipping} {s r : Bytes} (h : skipStringFrom state s = .ok r) :
    r.length < s.length := by
  induction s generalizing state with
  | nil => simp [skipStringFrom] at h
  | cons b bs ih =>
    cases state <;> simp only [skipStringFrom] at h <;> grind

theorem skipString_length {s r : Bytes} (h : skipString s = .ok r) : r.length < s.length :=
  skipStringFrom_length h

end Agenda.Json
