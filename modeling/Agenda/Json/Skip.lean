import Agenda.Json.Strings
/-!
Skipping a value whose content does not matter. Brackets that are open stand on a stack, so values may be nested to
any depth. Everything is checked but the meaning of escapes and numbers.
-/
namespace Agenda.Json

open Text

/-- An open bracket. -/
inductive Bracket
  | array
  | object
  deriving DecidableEq

namespace Bracket

def opening : Bracket → UInt8
  | array => 0x5B
  | object => 0x7B

def closing : Bracket → UInt8
  | array => 0x5D
  | object => 0x7D

/-- The flaw of an end of the text inside the bracket. -/
def atEnd : Bracket → Reason
  | array => .endInArray
  | object => .endInObject

/-- The flaw of a byte after an item that neither ends the bracket nor begins another item. -/
def notSeparated : Bracket → Reason
  | array => .commaOrBracketExpected
  | object => .commaOrBraceExpected

end Bracket

def skipScalar : Bytes → Except Flaw Bytes
  | [] => .error (.within .endInValue [])
  | b :: bs =>
    if b = 0x6E then skipIdent ull bs
    else if b = 0x74 then skipIdent rue bs
    else if b = 0x66 then skipIdent alse bs
    else if b = 0x2D then skipMagnitude bs
    else if isDigitByte b then skipMagnitude (b :: bs)
    else if b = quote then skipString bs
    else .error (.within .valueExpected (b :: bs))

def skipColon (s : Bytes) : Except Flaw Bytes :=
  match skipSpace s with
  | b :: bs => if b = 0x3A then .ok bs else .error (.within .colonExpected (b :: bs))
  | [] => .error (.within .endInObject [])

def skipKey (s : Bytes) : Except Flaw Bytes :=
  match skipSpace s with
  | b :: bs => if b = quote then (skipString bs).bind skipColon else .error (.within .keyNotString (b :: bs))
  | [] => .error (.within .endInObject [])

theorem skipSpace_length (s : Bytes) : (skipSpace s).length ≤ s.length :=
  (List.dropWhile_suffix _).length_le

theorem skipIdent_length {word s r : Bytes} (h : skipIdent word s = .ok r) : r.length ≤ s.length := by
  induction word generalizing s with
  | nil => grind [skipIdent]
  | cons w ws ih => cases s <;> grind [skipIdent]

theorem dropDigits_length (s : Bytes) : (s.dropWhile isDigitByte).length ≤ s.length :=
  (List.dropWhile_suffix _).length_le

theorem skipExponent_length {s r : Bytes} (h : skipExponent s = .ok r) : r.length ≤ s.length := by
  unfold skipExponent at h
  grind [dropDigits_length]

theorem skipExponentPart_length {s r : Bytes} (h : skipExponentPart s = .ok r) : r.length ≤ s.length := by
  unfold skipExponentPart at h
  grind [→ skipExponent_length]

theorem skipFraction_length {s r : Bytes} (h : skipFraction s = .ok r) : r.length ≤ s.length := by
  unfold skipFraction at h
  grind [→ skipExponentPart_length, dropDigits_length]

theorem skipFractionPart_length {s r : Bytes} (h : skipFractionPart s = .ok r) : r.length ≤ s.length := by
  unfold skipFractionPart at h
  grind [→ skipFraction_length, → skipExponentPart_length]

theorem skipMagnitude_length {s r : Bytes} (h : skipMagnitude s = .ok r) : r.length < s.length := by
  unfold skipMagnitude at h
  grind [→ skipFractionPart_length, dropDigits_length]

theorem skipScalar_length {s r : Bytes} (h : skipScalar s = .ok r) : r.length < s.length := by
  unfold skipScalar at h
  grind [→ skipIdent_length, → skipMagnitude_length, → skipString_length]

theorem skipColon_length {s r : Bytes} (h : skipColon s = .ok r) : r.length < s.length := by
  unfold skipColon at h
  grind [skipSpace_length]

theorem skipKey_length {s r : Bytes} (h : skipKey s = .ok r) : r.length < s.length := by
  unfold skipKey at h
  have hs := skipSpace_length s
  split at h
  · next b bs hb =>
    rw [hb] at hs
    split at h
    · cases hk : skipString bs with
      | error e => simp [hk, Except.bind] at h
      | ok t =>
        rw [hk] at h
        have h1 := skipString_length hk
        have h2 := skipColon_length h
        simp at hs
        omega
    · simp at h
  · simp at h

/-- What the skipping of a value waits for. -/
inductive Want
  /-- A value. -/
  | value
  /-- The first item of a bracket, or its end. -/
  | first
  /-- What follows an item: the end of its bracket, or another item. -/
  | next
  deriving DecidableEq

/-- Skips the key of the next item, when it has one. -/
def skipItemKey : Bracket → Bytes → Except Flaw Bytes
  | .array, s => .ok s
  | .object, s => skipKey s

theorem skipItemKey_length {b : Bracket} {s r : Bytes} (h : skipItemKey b s = .ok r) : r.length ≤ s.length := by
  cases b with
  | array => simp only [skipItemKey] at h; cases h; exact Nat.le_refl _
  | object => exact Nat.le_of_lt (skipKey_length h)

set_option linter.unusedVariables false in
/-- Skips up to the end of the outermost open bracket, or of a value when no bracket is open. -/
def skipFrom : Want → (stack : List Bracket) → Bytes → Except Flaw Bytes
  | .value, stack, s =>
    match hs : skipSpace s with
    | [] => .error (.within .endInValue [])
    | b :: bs =>
      if b = Bracket.array.opening then skipFrom .first (.array :: stack) bs
      else if b = Bracket.object.opening then skipFrom .first (.object :: stack) bs
      else
        match hr : skipScalar (b :: bs) with
        | .error f => .error f
        | .ok rest => skipFrom .next stack rest
  -- with no open bracket the value is over
  | .first, [], s => .ok s
  | .first, bracket :: stack, s =>
    match hs : skipSpace s with
    | [] => .error (.within bracket.atEnd [])
    | b :: bs =>
      if b = bracket.closing then skipFrom .next stack bs
      else
        match hr : skipItemKey bracket (b :: bs) with
        | .error f => .error f
        | .ok rest => skipFrom .value (bracket :: stack) rest
  | .next, [], s => .ok s
  | .next, bracket :: stack, s =>
    match hs : skipSpace s with
    | [] => .error (.within bracket.atEnd [])
    | b :: bs =>
      if b = 0x2C then
        match hr : skipItemKey bracket bs with
        | .error f => .error f
        | .ok rest => skipFrom .value (bracket :: stack) rest
      else if b = bracket.closing then skipFrom .next stack bs
      else .error (.within bracket.notSeparated (b :: bs))
termination_by want _ s => (s.length, if want = .first then 1 else 0)
decreasing_by
  all_goals
    have hlen := skipSpace_length s
    rw [hs] at hlen
    simp only [List.length_cons] at hlen
    -- each step takes a byte, except that a first item in an array becomes a value
    first
    | exact Prod.Lex.left _ _ (by omega)
    | have hrest := skipScalar_length hr
      simp only [List.length_cons] at hrest
      exact Prod.Lex.left _ _ (by omega)
    | have hrest := skipItemKey_length hr
      exact Prod.Lex.left _ _ (by omega)
    | have hrest := skipItemKey_length hr
      simp only [List.length_cons] at hrest
      rcases Nat.lt_or_ge rest.length s.length with hlt | hge
      · exact Prod.Lex.left _ _ hlt
      · rw [show rest.length = s.length by omega]
        exact Prod.Lex.right _ (by simp)

theorem skipFrom_length {want : Want} {stack : List Bracket} {s r : Bytes} (h : skipFrom want stack s = .ok r) :
    r.length ≤ s.length := by
  fun_induction skipFrom want stack s <;>
    grind [skipSpace_length, → skipScalar_length, → skipItemKey_length, List.length_cons]

def skipValue (s : Bytes) : Except Flaw Bytes :=
  skipFrom .value [] s

theorem skipValue_length {s r : Bytes} (h : skipValue s = .ok r) : r.length ≤ s.length :=
  skipFrom_length h

end Agenda.Json
