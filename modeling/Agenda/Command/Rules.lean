import Agenda.Command.Setting
import Agenda.Command.World
/-!
The command that prints rules, in canonical form or as JSON objects. The rules are its arguments, or else the lines of
the standard input.
-/
namespace Agenda

open Text

/-- What the command was asked for. -/
structure RuleRequest where
  json : Bool
  /-- The plain arguments, the latest first. -/
  rules : List Bytes

namespace RuleRequest

def empty : RuleRequest :=
  ⟨false, []⟩

def take (q : RuleRequest) (t : Token) : Run RuleRequest :=
  match t with
  | .plain value => Run.done { q with rules := value :: q.rules }
  | _ =>
    if t = .flag (.long "json") then Run.done { q with json := true }
    else Run.stop (t.refuse Manual.rule.short Manual.rule.long)

def ofTokens (ts : List Token) : Run RuleRequest :=
  ts.foldlM take empty

end RuleRequest

/-- A rule in one of its two forms. -/
def Rule.shown (json : Bool) (r : Rule) : String :=
  if json then r.json else r.canonical

def printRule (json : Bool) (bs : Bytes) : Run Unit := do
  let r ← Run.ofExcept (Rule.ofBytes bs)
  Run.print (r.shown json)

def runRules (w : World) (a : Arguments) : Run Unit := do
  let q ← RuleRequest.ofTokens (a.tokens fun _ => false)
  if q.rules.isEmpty then
    Run.eachInputLine w.stdinFlaw fun l =>
      Run.during (.line l.number Source.stdin.display) (printRule q.json l.content)
  else Run.each (printRule q.json) q.rules.reverse

end Agenda
