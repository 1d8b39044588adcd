import Agenda.Command.Run
import Agenda.Command.Token
import Agenda.Input.Argument
import Agenda.Manual.Page
import Agenda.Text.Quoted
/-!
The options of the commands. An option with a value reads it from its token; a token that a command does not know asks
for the manual or the version, or is refused.
-/
namespace Agenda

open Text

/-- An option by its letter, if it has one, and its name. -/
structure Setting where
  letter : Option Char
  name : String
  /-- How messages call it. -/
  label : String

namespace Setting

def now : Setting :=
  ⟨some 'n', "now", "-n/--now"⟩

def count : Setting :=
  ⟨some 'c', "count", "-c/--count"⟩

def isNamed (o : Setting) : OptionName → Bool
  | .short letter => o.letter == some letter
  | .long name => o.name == name

def ofValue {α : Type} (o : Setting) (read : String → Except Cause α) (value : Bytes) : Except Failure α :=
  let result : Except Cause α := match Utf8.decode? value with
    | none => .error (.argument (.notUnicode (Quoted.bytes value)))
    | some s => read (String.ofList s)
  result.mapError fun cause => (Failure.of cause).during (.option o.label)

def value? {α : Type} (o : Setting) (read : String → Except Cause α) : Token → Option (Except Failure α)
  | .setting name value => if o.isNamed name then some (o.ofValue read value) else none
  | .missing name =>
    if o.isNamed name then
      some (.error ((Failure.of (.argument (.missingValue name.written))).during (.option o.label)))
    else none
  | _ => none

def readNow (text : String) : Except Cause Date :=
  (Date.parse text).mapError fun e => .engine (.spec e)

/-- Reads the value of the option that says how many occurrences are wanted. -/
def readTimes (text : String) : Except Cause Nat :=
  (readCount text).mapError CountFlaw.cause

end Setting

namespace Token

/-- What an option without a value leads to, when the command has none of its name. -/
def refuseFlag (short long : String) (name : OptionName) : Stop :=
  if name = .short 'h' then .page short
  else if name = .long "help" then .page long
  else if name = .long "version" then .page Manual.version
  else .failed (.of (.argument (.unknownOption name.written)))

/-- What a token leads to that a command with the given manual page, in its two forms, does not know. -/
def refuse (short long : String) : Token → Stop
  | flag name => refuseFlag short long name
  | setting name _ => refuseFlag short long name
  | missing name => .failed (.of (.argument (.missingValue name.written)))
  | surplus name value => .failed (.of (.argument (.unexpectedValue name.written (Quoted.bytes value))))
  | plain value => .failed (.of (.argument (.extra (Quoted.bytes value))))

end Token

namespace Arguments

/-- Takes the name of a command off the arguments. -/
def command (manual : String) (a : Arguments) : Except Stop (String × Arguments) :=
  match a.first with
  | none => .error (.failed (.of (.noCommand manual)))
  | some (.plain value, rest) =>
    match Utf8.decode? value with
    | some s => .ok (String.ofList s, rest)
    | none => .error (.failed (.of (.argument (.notUnicode (Quoted.bytes value)))))
  | some (token, _) => .error (token.refuse manual manual)

end Arguments

end Agenda
