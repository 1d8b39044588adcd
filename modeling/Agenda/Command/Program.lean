import Agenda.Command.Rules
import Agenda.Command.Tasks
/-!
The program as a whole. Without arguments it prints today's date; otherwise the first argument names a command. The
outcome of a run is its exit code, what it printed, what it has to say about its failure, and its records.
-/
namespace Agenda

def runTaskCommand (w : World) (a : Arguments) : Run Unit :=
  match a.command Manual.task with
  | .error s => Run.stop s
  | .ok (name, rest) =>
    if name = "check" then runTasks w Manual.taskCheck Task.printChecked rest
    else if name = "done" then runTasks w Manual.taskDone Task.printCompleted rest
    else Run.fail (.of (.argument (.unknownCommand name)))

def runCommand (w : World) : Run Unit :=
  match (Arguments.ofList w.arguments).command Manual.program with
  | .error s => Run.stop s
  | .ok (name, rest) =>
    if name = "next" then runNext w rest
    else if name = "rule" then runRules w rest
    else if name = "task" then runTaskCommand w rest
    else Run.fail (.of (.argument (.unknownCommand name)))

def runProgram (w : World) : Run Unit :=
  if w.arguments.isEmpty then do
    let d ← w.today
    Run.print d.compact
  else runCommand w

/-- What a run comes to. -/
structure Outcome where
  exitCode : Nat
  /-- The lines printed. -/
  lines : List String
  /-- What is said about the failure, if there is one. -/
  complaint : Option String
  /-- The records that were kept. -/
  records : List Record

namespace Outcome

def codeOf (f : Failure) : Nat :=
  if f.isFault then 2 else 1

def complaintOf (e : Environment) (f : Failure) : String :=
  if e.wantsDetails then f.details else f.message

def ofRun (w : World) : Except Stop Unit × Console → Outcome
  | (result, c) =>
    let lines := c.printed.reverse
    let records := c.records.reverse
    match result with
    | .ok () => ⟨0, lines, none, records⟩
    | .error (.page text) => ⟨0, if c.isOpen then lines ++ [text] else lines, none, records⟩
    | .error .closed => ⟨0, lines, none, records⟩
    | .error (.failed f) => ⟨codeOf f, lines, some (complaintOf w.environment f), records⟩

def stdout (o : Outcome) : String :=
  String.join (o.lines.map (· ++ "\n"))

def stderr (o : Outcome) : String :=
  (o.complaint.map (· ++ "\n")).getD ""

end Outcome

namespace World

def console (w : World) : Console :=
  Console.start w.stdin w.isOpen w.environment.keptLevel

/-- The outcome of running the program. A level of records that does not exist stops it before anything else. -/
def outcome (w : World) : Outcome :=
  match w.environment.level with
  | .error f => ⟨Outcome.codeOf f, [], some (Outcome.complaintOf w.environment f), []⟩
  | .ok _ => Outcome.ofRun w (runProgram w w.console)

def asksForInput (w : World) : Bool :=
  -- a run asks for its input before it reads any, so it may as well be empty
  let w := { w with stdin := [] }
  (runProgram w w.console).2.wasAsked

def hasColor (w : World) : Bool :=
  w.hasTerminal && w.environment.allowsColor

end World

/-- A text in a terminal style, which ends with it. -/
def styled (style text : String) : String :=
  style ++ text ++ "\x1b[0m"

namespace Record

def levelText (color : Bool) (r : Record) : String :=
  if color then
    match r.level with
    | .error => styled "\x1b[1m\x1b[31m" r.level.name
    | .warn => styled "\x1b[33m" r.level.name
    | _ => r.level.name
  else r.level.name

/-- A record on a line: the time it was made, its level and its message. The place in the program that made it, which
stands in front of the message with a colon and a blank after it, is left out. -/
def line (color : Bool) (time : String) (r : Record) : String :=
  let time := if color then styled "\x1b[1m\x1b[35m" time else time
  let level := r.levelText color
  let message := r.message
  s!"{time}|{level}|{message}"

end Record

end Agenda
