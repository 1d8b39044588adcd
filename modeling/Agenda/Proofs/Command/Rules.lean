import Agenda.Proofs.Command.Lines
import Agenda.Proofs.Command.Program
import Agenda.Proofs.Recurrence.Grammar
/-!
The command that prints rules. It reads its rules in order, from its arguments or from the lines of the standard input,
and prints each one as soon as it was read, up to the first that cannot be read. So it makes no difference where the
rules come from.
-/
namespace Agenda

open Text

/-- What reading items in order comes to: the rules of those before the first that cannot be read, and the failure of
that one if there is one. -/
inductive ReadsRules {α : Type} (read : α → Except Failure Rule) : List α → List Rule → Option Failure → Prop
  | nil : ReadsRules read [] [] none
  | rule {a : α} {as : List α} {r : Rule} {rs : List Rule} {failure : Option Failure} (h : read a = .ok r)
    (hs : ReadsRules read as rs failure) : ReadsRules read (a :: as) (r :: rs) failure
  | failure {a : α} {f : Failure} (h : read a = .error f) (as : List α) : ReadsRules read (a :: as) [] (some f)

/-- Whether the standard input gives data, in chunks, and can be read to its end. -/
structure World.Gives (w : World) (data : Bytes) : Prop where
  flatten : w.stdin.flatten = data
  flawless : w.stdinFlaw = none

/-- The rule on a line of the standard input. -/
def Line.rule (l : Line) : Except Failure Rule :=
  (Rule.ofBytes l.content).mapError (Failure.during (.line l.number Source.stdin.display))

/-- Whether a line is made of bytes and one of the two ends of lines, of which the bytes are no part. -/
structure Line.IsEnded (bs full : Bytes) : Prop where
  feed_not_mem : feed ∉ bs
  carriage_not_last : bs.getLast? ≠ some carriage
  ended : full = bs ++ [feed] ∨ full = bs ++ [carriage, feed]

variable {α : Type} {read : α → Except Failure Rule} {as : List α} {rs : List Rule} {r : Rule} {f : Failure}
  {failure : Option Failure} {bs full : Bytes} {rules lines : List Bytes} {json : Bool} {w w' : World} {a : Arguments}
  {texts : List String} {act : α → Run Unit} {items : List Bytes} {level : Option Level}

section Reading

theorem readsRules_none_iff : ReadsRules read as rs none ↔ List.Forall₂ (fun a r => read a = .ok r) as rs := by
  constructor
  · intro h
    generalize hnone : (none : Option Failure) = failure at h
    induction h with
    | nil => exact .nil
    | rule h _ ih => exact .cons h (ih hnone)
    | failure => cases hnone
  · intro h
    induction h with
    | nil => exact .nil
    | cons h _ ih => exact .rule h ih

theorem Line.IsEnded.content (h : IsEnded bs full) (n : Nat) : (⟨n, full⟩ : Line).content = bs := by
  rcases h.ended with rfl | rfl
  · exact content_of_feed h.carriage_not_last n
  · exact content_of_carriage bs n

theorem Line.IsEnded.exists_feed (h : IsEnded bs full) : ∃ begun, full = begun ++ [feed] ∧ feed ∉ begun := by
  rcases h.ended with rfl | rfl
  · exact ⟨bs, rfl, h.feed_not_mem⟩
  · refine ⟨bs ++ [carriage], by rw [List.append_assoc]; rfl, ?_⟩
    rw [List.mem_append, List.mem_singleton]
    exact not_or.mpr ⟨h.feed_not_mem, by decide⟩

theorem linesOf_of_isEnded (h : List.Forall₂ Line.IsEnded rules lines) :
    linesOf lines.flatten = Line.numbered 1 lines := by
  have hfeeds : List.Forall₂ (fun bs full => Line.IsEnded bs full ∧
      ∃ begun, full = begun ++ [Line.feed] ∧ Line.feed ∉ begun) rules lines :=
    h.imp fun bs full hended => ⟨hended, hended.exists_feed⟩
  have hdivision : IsDivision lines.flatten lines := isDivision_of_feeds (Rule.forall₂_and_right.mp hfeeds).2
  exact hdivision.linesOf_eq

/-- From the lines of the standard input the same rules are read, and a failure has the number of its line. -/
theorem ReadsRules.numbered (h : ReadsRules Rule.ofBytes rules rs failure) (hlines : List.Forall₂ Line.IsEnded rules lines)
    (n : Nat) : ReadsRules Line.rule (Line.numbered n lines) rs
      (failure.map (Failure.during (.line (n + rs.length) Source.stdin.display))) := by
  -- there are as many rules as lines before the one that cannot be read
  induction h generalizing n lines with
  | nil =>
    cases hlines
    exact .nil
  | @rule bs _ r rs failure h _ ih =>
    cases hlines with
    | @cons _ full _ lines hended hlines =>
      have hread : Line.rule ⟨n, full⟩ = .ok r := by
        rw [Line.rule, hended.content, h]
        rfl
      have hrest := ih hlines (n + 1)
      rw [Nat.add_right_comm] at hrest
      exact .rule hread hrest
  | @failure bs f h _ =>
    cases hlines with
    | @cons _ full _ lines hended _ =>
      have hread : Line.rule ⟨n, full⟩ = .error (f.during (.line n Source.stdin.display)) := by
        rw [Line.rule, hended.content, h]
        rfl
      exact .failure hread _

end Reading

section Printing

/-- How a run ends that prints lines and then may fail. When nobody reads the lines, the first of them ends it. -/
def endOfPrinting (isOpen : Bool) (texts : List String) (failure : Option Failure) : Except Stop Unit :=
  if isOpen ∨ texts = [] then failure.elim (.ok ()) fun f => .error (.failed f) else .error .closed

/-- Whether a run prints lines, if somebody reads them, and then fails or not. -/
def Run.Prints (run : Run Unit) (texts : List String) (failure : Option Failure) (c : Console) : Prop :=
  ∃ c', run c = (endOfPrinting c.isOpen texts failure, c') ∧
    c'.printed = if c.isOpen then texts.reverse ++ c.printed else c.printed

namespace Run

variable {run : Run Unit} {c c' : Console} {text : String}

theorem prints_nil (h : run c = (failure.elim (.ok ()) fun f => .error (.failed f), c)) : run.Prints [] failure c := by
  refine ⟨c, ?_, (ite_self c.printed).symm⟩
  rw [h, endOfPrinting, if_pos (Or.inr rfl)]

theorem prints_open {rest : Run Unit} (hopen : c.isOpen = true) (h : run c = rest { c with printed := text :: c.printed })
    (hrest : rest.Prints texts failure { c with printed := text :: c.printed }) :
    run.Prints (text :: texts) failure c := by
  obtain ⟨c', hend, hprinted⟩ := hrest
  refine ⟨c', ?_, ?_⟩
  · rw [h, hend, endOfPrinting, endOfPrinting, if_pos (Or.inl hopen), if_pos (Or.inl hopen)]
  · rw [hprinted, if_pos hopen, if_pos hopen, List.reverse_cons, List.append_assoc, List.singleton_append]

theorem prints_closed (hopen : c.isOpen = false) (h : run c = (.error .closed, c)) :
    run.Prints (text :: texts) failure c := by
  have hclosed : ¬ c.isOpen = true := by simp [hopen]
  refine ⟨c, ?_, (if_neg hclosed).symm⟩
  rw [h, endOfPrinting, if_neg (not_or.mpr ⟨hclosed, List.cons_ne_nil _ _⟩)]

theorem during_print (context : Context) (text : String) (c : Console) : Run.during context (print text) c = print text c := by
  unfold Run.during print
  split_ifs <;> rfl

theorem prints_eachInputLine {act : Line → Run Unit}
    (h : (each act (linesOf c.stdin.flatten)).Prints texts failure { c with wasAsked := true }) :
    (eachInputLine none act).Prints texts failure c := by
  obtain ⟨c', hrun, hprinted⟩ := h
  dsimp only at hrun
  unfold Prints
  rw [eachInputLine_eq, eachLineOf_none]
  cases hend : endOfPrinting c.isOpen texts failure with
  | ok _ =>
    rw [hend] at hrun
    exact ⟨{ c' with stdin := [] }, bind_of_ok hrun, hprinted⟩
  | error s =>
    rw [hend] at hrun
    exact ⟨c', bind_of_error hrun, hprinted⟩

end Run

theorem prints_each (hact : ∀ a, act a = Run.ofExcept (read a) >>= fun r => Run.print (r.shown json))
    (h : ReadsRules read as rs failure) (c : Console) : (Run.each act as).Prints (rs.map (Rule.shown json)) failure c := by
  induction h generalizing c with
  | nil => exact Run.prints_nil rfl
  | @rule a as r rs failure h _ ih =>
    have hprint : act a c = Run.print (r.shown json) c := by
      rw [hact, h]
      rfl
    cases hopen : c.isOpen with
    | true =>
      rw [Run.print_of_isOpen hopen] at hprint
      exact Run.prints_open hopen (Run.each_of_ok as hprint) (ih _)
    | false =>
      -- the first rule stops the run, however many follow
      have hclosed : act a c = (.error .closed, c) := by
        rw [hprint]
        exact if_neg (by simp [hopen])
      exact Run.prints_closed hopen (Run.each_of_error as hclosed)
  | @failure a f h as =>
    have hfail : act a c = (.error (.failed f), c) := by
      rw [hact, h]
      rfl
    exact Run.prints_nil (Run.each_of_error as hfail)

theorem printRule_eq (json : Bool) (bs : Bytes) :
    printRule json bs = Run.ofExcept (Rule.ofBytes bs) >>= fun r => Run.print (r.shown json) :=
  rfl

/-- The line is told of the failure to read its rule, and of nothing else that stops the run. -/
theorem during_printRule (json : Bool) (l : Line) :
    Run.during (.line l.number Source.stdin.display) (printRule json l.content) =
      Run.ofExcept l.rule >>= fun r => Run.print (r.shown json) := by
  rw [Line.rule, printRule_eq]
  funext c
  cases Rule.ofBytes l.content with
  | error f => rfl
  | ok r => exact Run.during_print _ (r.shown json) c

end Printing

section Running

def ruleBytes : Bytes := Environment.bytesOf "rule"

/-- The option for JSON objects, if they are wanted. -/
def jsonOption (json : Bool) : List Bytes :=
  if json then [Environment.bytesOf "--json"] else []

theorem tokens_of_rules (json : Bool) (rules : List Bytes) :
    Arguments.tokens (fun _ => false) ⟨jsonOption json ++ Token.endOfOptions :: rules, false⟩ =
      Arguments.tokens (fun _ => false) ⟨jsonOption json, false⟩ ++ rules.map .plain := by
  cases json <;> rfl

theorem RuleRequest.ofTokens_option (json : Bool) (c : Console) :
    ofTokens (Arguments.tokens (fun _ => false) ⟨jsonOption json, false⟩) c = (.ok ⟨json, []⟩, c) := by
  cases json <;> rfl

theorem RuleRequest.ofTokens_rules (json : Bool) (rules : List Bytes) (c : Console) :
    ofTokens (Arguments.tokens (fun _ => false) ⟨jsonOption json ++ Token.endOfOptions :: rules, false⟩) c =
      (.ok ⟨json, rules.reverse⟩, c) := by
  have hadd (bs : List Bytes) (value : Bytes) : take ⟨json, bs⟩ (.plain value) = Run.done ⟨json, value :: bs⟩ := rfl
  have hplain := Run.foldlM_collect hadd [] rules c
  rw [List.append_nil] at hplain
  rw [tokens_of_rules]
  cases json with
  | false => exact hplain
  | true => exact hplain

theorem runProgram_of_rule (hw : w.arguments = ruleBytes :: items) : runProgram w = runRules w ⟨items, false⟩ := by
  unfold runProgram runCommand
  rw [hw]
  rfl

theorem World.prints_of_arguments (hw : w.arguments = ruleBytes :: (jsonOption json ++ Token.endOfOptions :: rules))
    (hne : rules ≠ []) (h : ReadsRules Rule.ofBytes rules rs failure) :
    (runProgram w).Prints (rs.map (Rule.shown json)) failure w.console := by
  have hrun : runProgram w w.console = Run.each (printRule json) rules w.console := by
    rw [runProgram_of_rule hw, runRules, Run.bind_of_ok (RuleRequest.ofTokens_rules json rules w.console)]
    dsimp only
    rw [if_neg (by simpa using hne), List.reverse_reverse]
  unfold Run.Prints
  rw [hrun]
  exact prints_each (printRule_eq json) h w.console

theorem World.prints_of_lines {data : Bytes} (hw : w.arguments = ruleBytes :: jsonOption json) (hstdin : w.Gives data)
    (h : ReadsRules Line.rule (linesOf data) rs failure) :
    (runProgram w).Prints (rs.map (Rule.shown json)) failure w.console := by
  have hrun : runProgram w w.console = Run.eachInputLine none (fun l =>
      Run.during (.line l.number Source.stdin.display) (printRule json l.content)) w.console := by
    rw [runProgram_of_rule hw, runRules, Run.bind_of_ok (RuleRequest.ofTokens_option json w.console), hstdin.flawless]
    rfl
  rw [← hstdin.flatten] at h
  unfold Run.Prints
  rw [hrun]
  exact Run.prints_eachInputLine (prints_each (during_printRule json) h _)

/-- The failure that a run tells that prints lines and then fails, if it gets that far. -/
def World.told (w : World) (texts : List String) (failure : Option Failure) : Option Failure :=
  if w.isOpen ∨ texts = [] then failure else none

theorem World.outcome_of_prints (h : (runProgram w).Prints texts failure w.console) (hlevel : w.environment.level = .ok level) :
    w.outcome.lines = (if w.isOpen then texts else []) ∧
      w.outcome.exitCode = (w.told texts failure).elim 0 Outcome.codeOf ∧
      w.outcome.complaint = (w.told texts failure).map (Outcome.complaintOf w.environment) := by
  obtain ⟨c', hrun, hprinted⟩ := h
  have hstart : w.console.printed = [] := rfl
  have hopen : w.console.isOpen = w.isOpen := rfl
  rw [hopen, hstart, List.append_nil] at hprinted
  have hlines : c'.printed.reverse = if w.isOpen then texts else [] := by
    rw [hprinted, apply_ite List.reverse, List.reverse_reverse]
    rfl
  rw [World.outcome_of_level hlevel, hrun, ← hlines, hopen, endOfPrinting, World.told]
  split_ifs
  · cases failure with
    | none => exact ⟨rfl, rfl, rfl⟩
    | some f => exact ⟨rfl, rfl, rfl⟩
  · exact ⟨rfl, rfl, rfl⟩

end Running

/-- The program with arguments and chunks of the standard input that are texts, and nothing set in the environment. -/
def World.ofTexts (arguments chunks : List String) : World :=
  ⟨arguments.map Environment.bytesOf, ⟨none, none, none, none, none, none, none⟩, chunks.map Environment.bytesOf,
    none, fun _ => .error .missing, 0, .shipped, true, false⟩

end Agenda
