import Agenda.Json.Error
import Agenda.Recurrence.Error
/-!
Why something was not done. A failure has a cause, and what was being done when it arose, the outermost first.
`Failure.message` tells all of that on one line, `Failure.details` tells it with one cause on a line. Where in the
program a failure arose is no part of either.
-/
namespace Agenda

open Text

/-- Why a text is not a natural number of 64 bits. -/
inductive NumeralFlaw
  | empty
  | digit
  | tooLarge
  deriving DecidableEq, Repr

def NumeralFlaw.message : NumeralFlaw → String
  | empty => "cannot parse integer from empty string"
  | digit => "invalid digit found in string"
  | tooLarge => "number too large to fit in target type"

/-- Why a file cannot be opened or read. -/
inductive FileFlaw
  | missing
  | notDirectory
  | isDirectory
  | nameTooLong
  /-- Anything else, in the words of the system. No reading comes upon a pipe without a reader. -/
  | other (words : String)
  deriving DecidableEq, Repr

def FileFlaw.message : FileFlaw → String
  | missing => "No such file or directory (os error 2)"
  | notDirectory => "Not a directory (os error 20)"
  | isDirectory => "Is a directory (os error 21)"
  | nameTooLong => "File name too long (os error 36)"
  | other words => words

/-- What is wrong with the arguments of a command. -/
inductive ArgumentFlaw
  | unknownOption (option : String)
  | missingValue (option : String)
  | unexpectedValue (option value : String)
  | notUnicode (quoted : String)
  | notText (quoted : String)
  | extra (argument : String)
  | dateMissing
  | ruleMissing
  | unknownCommand (name : String)
  deriving DecidableEq, Repr

def ArgumentFlaw.message : ArgumentFlaw → String
  | unknownOption option => s!"invalid option '{option}'"
  | missingValue option => s!"missing argument for option '{option}'"
  | unexpectedValue option value => s!"unexpected argument for option '{option}': {value}"
  | notUnicode quoted => s!"argument is invalid unicode: {quoted}"
  | notText quoted => s!"argument `{quoted}` is not valid UTF-8"
  | extra argument => s!"unexpected extra argument `{argument}`"
  | dateMissing => "a date is required"
  | ruleMissing => "a recurrence rule is required"
  | unknownCommand name => s!"unrecognized command '{name}'"

/-- The cause of a failure. -/
inductive Cause
  | engine (error : EngineError)
  | json (error : Json.Error)
  | titleMissing
  | encoding (offset : Nat)
  | numeral (flaw : NumeralFlaw)
  | notInteger (text : String)
  | zeroCount
  | file (flaw : FileFlaw)
  | argument (flaw : ArgumentFlaw)
  | logLevel (name : String)
  /-- No command was given, so its manual is shown. -/
  | noCommand (manual : String)
  deriving DecidableEq

namespace Cause

def message : Cause → String
  | engine e => e.message
  | json e => e.message
  | titleMissing => "task title is required"
  | encoding offset => s!"invalid UTF-8 found at byte offset {offset}"
  | numeral flaw => flaw.message
  | notInteger text => s!"failed to parse `{text}` as an integer"
  | zeroCount => "number of occurrences must be greater than 0"
  | file flaw => flaw.message
  | argument flaw => flaw.message
  | logLevel name => s!"unrecognized log level '{name}'"
  | noCommand manual => manual

end Cause

/-- What was being done when a failure arose. -/
inductive Context
  | taskJson
  | taskDate
  | taskRecurrence
  | taskMove
  | ruleText (shown : String)
  | integer (text : String)
  | option (name : String)
  | line (number : Nat) (input : String)
  | file (name : String)
  deriving DecidableEq, Repr

def Context.message : Context → String
  | taskJson => "invalid task JSON"
  | taskDate => "invalid task date"
  | taskRecurrence => "invalid task recurrence"
  | taskMove => "failed to move task to its next occurrence"
  | ruleText shown => s!"invalid recurrence rule `{shown}`: not valid UTF-8"
  | integer text => s!"failed to parse `{text}` as an integer"
  | option name => name
  | line number input => s!"line {number} of {input}"
  | file name => name

/-- A cause, and what was being done when it arose, the outermost first. -/
structure Failure where
  contexts : List Context
  cause : Cause
  deriving DecidableEq

namespace Failure

def of (cause : Cause) : Failure :=
  ⟨[], cause⟩

def during (context : Context) (f : Failure) : Failure :=
  { f with contexts := context :: f.contexts }

def ofEngine (e : EngineError) : Failure :=
  of (.engine e)

/-- What the failure tells, the outermost first. -/
def messages (f : Failure) : List String :=
  f.contexts.map Context.message ++ [f.cause.message]

/-- The failure on one line. -/
def message (f : Failure) : String :=
  ": ".intercalate f.messages

/-- A text whose lines after the first are indented. -/
def indented (width : Nat) (text : String) : String :=
  String.ofList (text.toList.flatMap fun c => if c = '\n' then '\n' :: List.replicate width ' ' else [c])

/-- A number in at least five columns. -/
def numbered (n : Nat) : String :=
  let digits := Numeral.digits n
  String.ofList (List.replicate (5 - digits.length) ' ' ++ digits ++ [':', ' '])

/-- The list of causes below the outermost message, with numbers if there is more than one. -/
def causeLines : List String → List String
  | [] => []
  | [m] => ["    " ++ indented 4 m]
  | ms => (ms.zipIdx).map fun (m, i) => numbered i ++ indented 7 m

/-- The failure with one cause on a line, without the list of calls that may follow it on the terminal. -/
def details (f : Failure) : String :=
  match f.messages with
  | [] => ""
  | m :: ms => if ms.isEmpty then m else "\n".intercalate (m :: "" :: "Caused by:" :: causeLines ms)

/-- Whether the failure is that a well formed request has no answer. -/
def isFault (f : Failure) : Bool :=
  match f.cause with
  | .engine (.fault _) => true
  | _ => false

end Failure

end Agenda
