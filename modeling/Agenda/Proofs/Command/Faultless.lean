import Agenda.Command.Rules
import Agenda.Proofs.Command.Lines
import Agenda.Proofs.Command.Setting
/-!
Runs that the engine cannot stop. What a run prints or what was being done when it failed does not make a fault, so a
run is faultless when its parts are. The command that prints rules asks the engine for nothing.
-/
namespace Agenda

open Text

/-- To do anything, without a fault of the engine. -/
def Scope.faultless : Scope :=
  ⟨fun _ _ => True, fun s => s.isFault = false, fun _ => trivial, fun _ _ => trivial⟩

namespace Run

variable {α : Type} {run : Run α} {c c' : Console} {s : Stop}

/-- Whether a run is not stopped by a fault when it starts at a console. -/
def IsFaultlessFrom (run : Run α) (c : Console) : Prop :=
  ∀ c' s, run c = (.error s, c') → s.isFault = false

theorem isFaultlessFrom_of_stop (h : run c = (.error s, c')) (hs : s.isFault = false) : run.IsFaultlessFrom c := by
  intro c₁ s₁ h₁
  cases h.symm.trans h₁
  exact hs

theorem isWithin_faultless (h : ∀ c, run.IsFaultlessFrom c) : run.IsWithin .faultless :=
  fun c => ⟨trivial, fun s hs => h c (run c).2 s (Prod.ext hs rfl)⟩

theorem IsWithin.isFaultlessFrom (h : run.IsWithin .faultless) (c : Console) : run.IsFaultlessFrom c :=
  fun _ s hc => (h.of_eq hc).2 s rfl

/-- What is only asked for is asked for without a fault. -/
theorem IsWithin.faultless (h : run.IsWithin .notes) : run.IsWithin .faultless :=
  h.mono (fun _ => trivial) fun hs => hs

theorem isWithin_print (line : String) : (print line).IsWithin .faultless := by
  apply isWithin_faultless
  intro c c' s h
  unfold print at h
  split at h
  · cases h
  · cases h
    rfl

end Run

theorem isFault_ofBytes {bs : Bytes} {f : Failure} (h : Rule.ofBytes bs = .error f) : f.isFault = false := by
  unfold Rule.ofBytes at h
  split at h
  · cases h
    rfl
  · obtain ⟨e, -, rfl⟩ := mapError_eq_error_iff.mp h
    rfl

theorem RuleRequest.isWithin_ofTokens (ts : List Token) : (ofTokens ts).IsWithin .notes := by
  have htake (q : RuleRequest) (t : Token) : (q.take t).IsWithin .notes := by
    unfold take
    split
    · exact Run.isWithin_done _ _
    · split_ifs
      · exact Run.isWithin_done _ _
      · exact Run.isWithin_stop (Token.isFault_refuse _ _ _)
  exact Run.isWithin_foldlM (fun t _ q => htake q t) empty

/-- What the command does with the rules from its arguments it does with those from the lines as well, so it is within a
scope if reading its arguments and printing one rule are. -/
theorem isWithin_runRules_of_printRule {p : Scope} {w : World} {a : Arguments}
    (hinput : ∀ (c : Console) stdin wasAsked, p.leads c { c with stdin, wasAsked })
    (hflaw : ∀ flaw, p.stops (.unreadable flaw))
    (hduring : ∀ context s, p.stops s → p.stops (s.during context))
    (hrequest : (RuleRequest.ofTokens (a.tokens fun _ => false)).IsWithin p)
    (hprint : ∀ {c q c'}, RuleRequest.ofTokens (a.tokens fun _ => false) c = (.ok q, c') →
      ∀ bs, (printRule q.json bs).IsWithin p) : (runRules w a).IsWithin p := by
  apply hrequest.bind_of_results
  intro c q c' hq
  split_ifs
  · apply Run.isWithin_eachInputLine hinput hflaw
    intro l
    exact (hprint hq l.content).during (hduring _)
  · exact Run.isWithin_each (hprint hq) _

theorem isWithin_runRules (w : World) (a : Arguments) : (runRules w a).IsWithin .faultless := by
  apply isWithin_runRules_of_printRule
  · exact fun _ _ _ => trivial
  · exact fun _ => rfl
  · exact fun context s hs => (s.isFault_during context).trans hs
  · exact (RuleRequest.isWithin_ofTokens _).faultless
  · intro c q c' _ bs
    exact (Run.isWithin_ofExcept fun _ => isFault_ofBytes).bind fun r => Run.isWithin_print _

end Agenda
