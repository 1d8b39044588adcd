import Agenda.Decimal.Shortest
import Agenda.Text.Quoted
/-!
What can be wrong with a JSON text, and where. A reader works on the bytes that are left, so it tells a place by
their number; `Flaw.locate` turns that into a line and a column.
-/
namespace Agenda.Json

open Text

/-- A number as its text gives it. -/
inductive Number
  | integer (n : Int)
  | float (negative : Bool) (magnitude : Binary64)
  deriving DecidableEq

/-- What stands where something else is expected. -/
inductive Found
  | null
  | boolean (b : Bool)
  | number (n : Number)
  | string (s : List Char)
  | array
  | object
  deriving DecidableEq

/-- What is expected where something else stands. -/
inductive Expected
  | string
  | task
  deriving DecidableEq

/-- What is wrong. -/
inductive Reason
  | endInArray
  | endInObject
  | endInString
  | endInValue
  | colonExpected
  | commaOrBracketExpected
  | commaOrBraceExpected
  | identExpected
  | valueExpected
  | invalidEscape
  | invalidNumber
  | numberOutOfRange
  | invalidCodePoint
  | controlCharacter
  | keyNotString
  | loneSurrogate
  | halfSurrogatePair
  | trailingComma
  | trailingCharacters
  | wrongType (found : Found) (expected : Expected)
  | duplicateField (name : String)
  deriving DecidableEq

def Found.message : Found → String
  | null => "null"
  | boolean b => s!"boolean `{b}`"
  | number (.integer n) =>
    let digits := String.ofList (Numeral.ofInt n)
    s!"integer `{digits}`"
  | number (.float negative x) =>
    let digits := String.ofList (if negative then '-' :: x.text else x.text)
    s!"floating point `{digits}`"
  | string s =>
    let quoted := Quoted.text s
    s!"string {quoted}"
  | array => "sequence"
  | object => "map"

def Expected.message : Expected → String
  | string => "a string"
  | task => "struct Task"

def Reason.message : Reason → String
  | endInArray => "EOF while parsing a list"
  | endInObject => "EOF while parsing an object"
  | endInString => "EOF while parsing a string"
  | endInValue => "EOF while parsing a value"
  | colonExpected => "expected `:`"
  | commaOrBracketExpected => "expected `,` or `]`"
  | commaOrBraceExpected => "expected `,` or `\x7d`"
  | identExpected => "expected ident"
  | valueExpected => "expected value"
  | invalidEscape => "invalid escape"
  | invalidNumber => "invalid number"
  | numberOutOfRange => "number out of range"
  | invalidCodePoint => "invalid unicode code point"
  | controlCharacter => "control character (\\u0000-\\u001F) found while parsing a string"
  | keyNotString => "key must be a string"
  | loneSurrogate => "lone leading surrogate in hex escape"
  | halfSurrogatePair => "unexpected end of hex escape"
  | trailingComma => "trailing comma"
  | trailingCharacters => "trailing characters"
  | wrongType found expected =>
    let was := found.message
    let should := expected.message
    s!"invalid type: {was}, expected {should}"
  | duplicateField name => s!"duplicate field `{name}`"

/-- What is wrong, and how many bytes are left from there. -/
structure Flaw where
  reason : Reason
  left : Nat
  deriving DecidableEq

namespace Flaw

/-- A flaw that is seen when some bytes are left. -/
def before (reason : Reason) (rest : Bytes) : Flaw :=
  ⟨reason, rest.length⟩

/-- A flaw that the next byte shows, if there is one. -/
def within (reason : Reason) (rest : Bytes) : Flaw :=
  ⟨reason, rest.length - 1⟩

end Flaw

/-- What is wrong with a JSON text, and its place: the line, from 1, and the bytes of the line up to there. -/
structure Error where
  reason : Reason
  line : Nat
  column : Nat
  deriving DecidableEq

def Error.message (e : Error) : String :=
  let reason := e.reason.message
  let line := e.line
  let column := e.column
  s!"{reason} at line {line} column {column}"

def Flaw.locate (text : Bytes) (f : Flaw) : Error :=
  let consumed := text.take (text.length - f.left)
  ⟨f.reason, 1 + consumed.count 0x0A, (consumed.reverse.takeWhile (· != 0x0A)).length⟩

end Agenda.Json
