import Agenda.Text.Utf8
/-!
Arguments of a command line as tokens. An argument that begins with two dashes is a long option, one that begins with
a single dash is a row of short options, and any other is a plain one; after an argument of just two dashes all are
plain. An option with a value has it in the same argument, after an equals sign or, when it is short, right after its
letter; or else the next argument is its value.
-/
namespace Agenda

open Text

/-- An option by its letter or by its name. -/
inductive OptionName
  | short (letter : Char)
  | long (name : String)
  deriving DecidableEq, Repr

def OptionName.written : OptionName → String
  | short letter => String.ofList ['-', letter]
  | long name => "--" ++ name

/-- A part of a command line. -/
inductive Token
  /-- An option that takes no value. -/
  | flag (name : OptionName)
  /-- An option with its value. -/
  | setting (name : OptionName) (value : Bytes)
  /-- An option that lacks its value, at the end of the line. -/
  | missing (name : OptionName)
  /-- A value of an option that takes none; the option itself comes before it as a token. -/
  | surplus (name : OptionName) (value : Bytes)
  /-- A plain argument. -/
  | plain (value : Bytes)
  deriving DecidableEq

namespace Token

/-- The byte that options begin with. -/
def dashByte : UInt8 := 0x2D

/-- The byte between an option and its value. -/
def equalsByte : UInt8 := 0x3D

/-- The argument after which all are plain. -/
def endOfOptions : Bytes := [dashByte, dashByte]

def pieceBytes : Utf8.Piece → Bytes
  | .char c => String.utf8EncodeChar c
  | .broken bs => bs

/-- The bytes of pieces after an equals sign, if they begin with one. -/
def valueBytes (ps : List Utf8.Piece) : Bytes :=
  match ps with
  | p :: rest => if p = .char '=' then rest.flatMap pieceBytes else ps.flatMap pieceBytes
  | [] => []

/-- The tokens of a row of short options, and the option at its end that waits for its value. An equals sign after an
option that takes no value makes what follows it a surplus. -/
def ofShorts (takesValue : OptionName → Bool) (last : Option OptionName) :
    List Utf8.Piece → List Token × Option OptionName
  | [] => ([], none)
  | p :: ps =>
    -- an equals sign right at the front is an option like any other
    match if p = .char '=' then last else none with
    | some name => ([surplus name (ps.flatMap pieceBytes)], none)
    | none =>
      let name := .short p.shown
      if takesValue name then
        if ps.isEmpty then ([], some name) else ([setting name (valueBytes ps)], none)
      else
        let (ts, waiting) := ofShorts takesValue (some name) ps
        (flag name :: ts, waiting)

/-- The tokens of a long option, without its dashes, and the option if it waits for its value. -/
def ofLong (takesValue : OptionName → Bool) (s : Bytes) : List Token × Option OptionName :=
  let name := .long (String.ofList (Utf8.lossy (s.takeWhile (· != equalsByte))))
  match s.dropWhile (· != equalsByte) with
  | _ :: value => if takesValue name then ([setting name value], none) else ([flag name, surplus name value], none)
  | [] => if takesValue name then ([], some name) else ([flag name], none)

/-- The tokens of one argument, and the option that waits for its value. -/
def ofArgument (takesValue : OptionName → Bool) (a : Bytes) : List Token × Option OptionName :=
  match a with
  | x :: y :: rest =>
    if x = dashByte then
      if y = dashByte then ofLong takesValue rest else ofShorts takesValue none (Utf8.pieces (y :: rest))
    else ([plain a], none)
  | _ => ([plain a], none)

def ofArguments (takesValue : OptionName → Bool) : List Bytes → List Token
  | [] => []
  | a :: rest =>
    if a = endOfOptions then rest.map plain
    else
      match ofArgument takesValue a with
      | (ts, none) => ts ++ ofArguments takesValue rest
      | (ts, some name) =>
        match rest with
        | [] => ts ++ [missing name]
        | value :: rest' => ts ++ setting name value :: ofArguments takesValue rest'

end Token

/-- The arguments that are left of a command line, and whether all of them are plain. -/
structure Arguments where
  items : List Bytes
  allPlain : Bool

namespace Arguments

def ofList (items : List Bytes) : Arguments :=
  ⟨items, false⟩

def tokens (takesValue : OptionName → Bool) (a : Arguments) : List Token :=
  if a.allPlain then a.items.map .plain else Token.ofArguments takesValue a.items

/-- The first token, where no option takes a value, and the arguments after it if it is a plain one. -/
def first (a : Arguments) : Option (Token × Arguments) :=
  match a.items with
  | [] => none
  | item :: rest =>
    if a.allPlain then some (.plain item, ⟨rest, true⟩)
    else if item = Token.endOfOptions then
      match rest with
      | [] => none
      | item' :: rest' => some (.plain item', ⟨rest', true⟩)
    else ((Token.ofArgument (fun _ => false) item).1.head?).map (·, ⟨rest, false⟩)

end Arguments

end Agenda
