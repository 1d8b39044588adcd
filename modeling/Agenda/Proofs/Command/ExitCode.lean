import Agenda.Proofs.Command.Faultless
import Agenda.Proofs.Command.Occurrences
import Agenda.Proofs.Command.Tasks
import Agenda.Proofs.Command.Written
import Agenda.Proofs.Task.Check
/-!
Exit codes. A run ends with the code 2 when it was stopped at a piece of work that is well formed but has no occurrence
left, which only a run that is asked for occurrences or to deal with tasks can come to. Any other failure has the code
1.
-/
namespace Agenda

open Text

section Commands

variable {w : World} {a : Arguments} {name : String}

theorem World.asksNext_or_faultless (hopen : w.isOpen = true) (hlevel : ∃ level, w.environment.level = .ok level)
    (ha : (Arguments.ofList w.arguments).command Manual.program = .ok ("next", a)) :
    (∃ r now stored count, w.AsksNext r now stored count) ∨ (runNext w a).IsFaultlessFrom w.console := by
  -- the engine is reached when the arguments were read and give a date and a rule that can be read
  rcases hq : NextRequest.ofTokens (a.tokens NextRequest.takesValue) w.console with ⟨s | q, c⟩
  · right
    apply Run.isFaultlessFrom_of_stop (Run.bind_of_error hq)
    exact (NextRequest.isWithin_ofTokens _).faultless.isFaultlessFrom _ _ s hq
  unfold Run.IsFaultlessFrom
  rw [runNext, Run.bind_of_ok hq]
  obtain ⟨now, stored, recurrence, count⟩ := q
  cases stored with
  | none => exact Or.inr (Run.isFaultlessFrom_of_stop rfl rfl)
  | some stored =>
    cases recurrence with
    | none => exact Or.inr (Run.isFaultlessFrom_of_stop rfl rfl)
    | some text =>
      cases hr : Rule.parse text with
      | error e =>
        right
        dsimp only [NextRequest.answer]
        rw [Run.ofExcept_of_error hr]
        exact Run.isFaultlessFrom_of_stop rfl rfl
      | ok r =>
        have hread : (NextRequest.ofTokens (a.tokens NextRequest.takesValue) w.console).1 = _ :=
          congrArg Prod.fst hq
        exact Or.inl ⟨r, _, stored, count, hopen, hlevel, a, _, text, ha, hread, rfl, rfl, hr, rfl, rfl⟩

theorem World.asksTasks_or_faultless (command : TaskCommand) {b : Arguments} (hopen : w.isOpen = true)
    (hlevel : ∃ level, w.environment.level = .ok level)
    (ha : (Arguments.ofList w.arguments).command Manual.program = .ok ("task", a))
    (hb : a.command Manual.task = .ok (command.name, b)) : (∃ today sources, w.AsksTasks command today sources) ∨
      (runTasks w command.manual command.act b).IsFaultlessFrom w.console := by
  rcases hq : TaskRequest.ofTokens command.manual (b.tokens Setting.now.isNamed) w.console with ⟨s | q, c⟩
  · right
    apply Run.isFaultlessFrom_of_stop (Run.bind_of_error hq)
    exact (TaskRequest.isWithin_ofTokens _ _).faultless.isFaultlessFrom _ _ s hq
  · have hread : (TaskRequest.ofTokens command.manual (b.tokens Setting.now.isNamed) w.console).1 = _ :=
      congrArg Prod.fst hq
    exact Or.inl ⟨_, _, hopen, hlevel, a, b, q, ha, hb, hread, rfl, rfl⟩

theorem World.asksTask_or_faultless (hopen : w.isOpen = true) (hlevel : ∃ level, w.environment.level = .ok level)
    (ha : (Arguments.ofList w.arguments).command Manual.program = .ok ("task", a)) :
    (∃ command today sources, w.AsksTasks command today sources) ∨ (runTaskCommand w a).IsFaultlessFrom w.console := by
  unfold runTaskCommand
  cases hb : a.command Manual.task with
  | error s => exact Or.inr (Run.isFaultlessFrom_of_stop rfl (Arguments.isFault_command hb))
  | ok p =>
    obtain ⟨name, b⟩ := p
    dsimp only
    split_ifs with hcheck hdone
    · subst hcheck
      exact (World.asksTasks_or_faultless .check hopen hlevel ha hb).imp_left fun h => ⟨.check, h⟩
    · subst hdone
      exact (World.asksTasks_or_faultless .complete hopen hlevel ha hb).imp_left fun h => ⟨.complete, h⟩
    · exact Or.inr (Run.isFaultlessFrom_of_stop rfl rfl)

/-- A run that is not asked for occurrences or to deal with tasks has nothing to do with the engine. -/
theorem World.asks_or_faultless (hopen : w.isOpen = true) (hlevel : ∃ level, w.environment.level = .ok level) :
    (∃ r now stored count, w.AsksNext r now stored count) ∨
      (∃ command today sources, w.AsksTasks command today sources) ∨ (runProgram w).IsFaultlessFrom w.console := by
  unfold runProgram
  split_ifs
  · have hprinted : (w.referenceDate none >>= fun d => Run.print d.compact).IsWithin .faultless :=
      (w.isWithin_referenceDate none).faultless.bind fun d => Run.isWithin_print _
    exact Or.inr (Or.inr (hprinted.isFaultlessFrom _))
  unfold runCommand
  cases ha : (Arguments.ofList w.arguments).command Manual.program with
  | error s => exact Or.inr (Or.inr (Run.isFaultlessFrom_of_stop rfl (Arguments.isFault_command ha)))
  | ok p =>
    obtain ⟨name, a⟩ := p
    dsimp only
    split_ifs with hnext hrule htask
    · subst hnext
      exact (World.asksNext_or_faultless hopen hlevel ha).imp_right Or.inr
    · exact Or.inr (Or.inr ((isWithin_runRules w a).isFaultlessFrom _))
    · subst htask
      exact Or.inr (World.asksTask_or_faultless hopen hlevel ha)
    · exact Or.inr (Or.inr (Run.isFaultlessFrom_of_stop rfl rfl))

end Commands

section Lacking

variable {w : World} {command : TaskCommand} {today now stored : Date} {t : Task} {i : Item} {f : Failure}
  {fault : Fault} {r : Rule} {count : Nat} {sources : List Source}

/-- Whether a command has to find the next occurrence of a rule for a task, after a date. -/
def TaskCommand.Searches (command : TaskCommand) (today : Date) (t : Task) (d : Date) (r : Rule) : Prop :=
  match command with
  | check => allBlank t.title = false ∧ Date.parse t.date = .ok d ∧ d < today ∧ Rule.parse t.recurrence = .ok r
  | complete => Date.parse t.date = .ok d ∧ Rule.parse t.recurrence = .ok r

/-- Whether a command has to find an occurrence for a task where there is none. -/
def TaskCommand.LacksOccurrence (command : TaskCommand) (today : Date) (t : Task) : Prop :=
  ∃ d r, command.Searches today t d r ∧ ∀ e, e ∉ r.upcoming today d

theorem TaskCommand.exists_fault_iff : (∃ f, command.result today t = .error f ∧ f.cause = .engine (.fault fault)) ↔
    ∃ d r, command.Searches today t d r ∧ r.next today d = .error fault := by
  cases command with
  | check =>
    have hresult (f : Failure) : TaskCommand.check.result today t = .error f ↔ t.check today = .error f :=
      map_eq_error_iff
    simp only [hresult, Task.exists_check_fault_iff, Searches]
  | complete =>
    have hresult (f : Failure) : TaskCommand.complete.result today t = .error f ↔
        ∃ e, t.complete today = .error e ∧ Failure.ofEngine e = f := map_eq_error_iff.trans mapError_eq_error_iff
    simp only [hresult, Searches, ← Task.complete_eq_fault_iff]
    constructor
    · rintro ⟨f, ⟨e, he, rfl⟩, hcause⟩
      cases hcause
      exact he
    · intro h
      exact ⟨_, ⟨_, h, rfl⟩, rfl⟩

/-- A line stops a command with a fault when the task on it lacks an occurrence; an input that cannot be read does
not. -/
theorem Item.exists_fault_iff : (∃ f, i.result command today = .error f ∧ f.cause = .engine (.fault fault)) ↔
    ∃ input l t, i = .line input l ∧ Task.read l.content = .ok t ∧
      ∃ d r, command.Searches today t d r ∧ r.next today d = .error fault := by
  constructor
  · rintro ⟨f, hf, hcause⟩
    cases i with
    | unreadable contexts flaw =>
      cases hf
      cases hcause
    | line input l =>
      obtain ⟨f', hf', rfl⟩ := mapError_eq_error_iff.mp hf
      rcases bind_eq_error_iff.mp hf' with hread | ⟨t, hread, hresult⟩
      · obtain ⟨e, -, rfl⟩ := mapError_eq_error_iff.mp hread
        cases hcause
      · exact ⟨input, l, t, rfl, hread, TaskCommand.exists_fault_iff.mp ⟨f', hresult, hcause⟩⟩
  · rintro ⟨input, l, t, rfl, hread, hsearch⟩
    obtain ⟨f, hf, hcause⟩ := TaskCommand.exists_fault_iff.mpr hsearch
    have hbind : (Task.read l.content >>= command.result today) = .error f :=
      bind_eq_error_iff.mpr (Or.inr ⟨t, hread, hf⟩)
    exact ⟨f.during (.line l.number input), mapError_eq_error_iff.mpr ⟨f, hbind, rfl⟩, hcause⟩

/-- Whether the first item that fails lacks an occurrence. -/
def Item.StopsAtLack (command : TaskCommand) (today : Date) (items : List Item) : Prop :=
  ∃ before input l later t, items = before ++ .line input l :: later ∧
    (∀ i ∈ before, ∃ out, Item.result command today i = .ok out) ∧ Task.read l.content = .ok t ∧
    command.LacksOccurrence today t

theorem TaskCommand.lacksOccurrence_iff : command.LacksOccurrence today t ↔
    ∃ fault d r, command.Searches today t d r ∧ r.next today d = .error fault := by
  simp only [LacksOccurrence, ← Rule.next_isError_iff]
  constructor
  · rintro ⟨d, r, hsearch, fault, hnext⟩
    exact ⟨fault, d, r, hsearch, hnext⟩
  · rintro ⟨fault, d, r, hsearch, hnext⟩
    exact ⟨d, r, hsearch, fault, hnext⟩

theorem World.AsksTasks.exitCode_eq_two_iff (h : w.AsksTasks command today sources) :
    w.outcome.exitCode = 2 ↔ Item.StopsAtLack command today (w.items w.stdin.flatten sources) := by
  obtain ⟨-, hend, -⟩ := h.outcome_spec
  have hcode : w.outcome.exitCode = 2 ↔ ∃ f, (w.effect command today sources).failure = some f ∧ f.isFault = true := by
    rcases hend with ⟨hnone, hzero, -⟩ | ⟨f, hsome, hcode, -⟩
    · rw [hnone, hzero]
      simp
    · rw [hsome, hcode, Outcome.codeOf_eq_two_iff]
      simp
  rw [hcode]
  constructor
  · rintro ⟨f, hf, hfault⟩
    -- the run failed with what its first failing item failed with
    obtain ⟨before, rest, outs, hitems, hresults, -, hending⟩ := w.exists_split command today sources
    rcases hending with ⟨-, hnone, -⟩ | ⟨i, later, f', rfl, hi, hsome, -⟩
    · cases hnone.symm.trans hf
    obtain rfl := Option.some.inj (hsome.symm.trans hf)
    obtain ⟨fault, hcause⟩ := Failure.isFault_iff.mp hfault
    obtain ⟨input, l, t, rfl, hread, hsearch⟩ := Item.exists_fault_iff.mp ⟨f', hi, hcause⟩
    have hlack := TaskCommand.lacksOccurrence_iff.mpr ⟨fault, hsearch⟩
    exact ⟨before, input, l, later, t, hitems, Item.exists_result hresults, hread, hlack⟩
  · rintro ⟨before, input, l, later, t, hitems, hbefore, hread, hlack⟩
    obtain ⟨fault, hsearch⟩ := TaskCommand.lacksOccurrence_iff.mp hlack
    obtain ⟨f, hf, hcause⟩ := Item.exists_fault_iff.mpr ⟨input, l, t, rfl, hread, hsearch⟩
    refine ⟨f, ?_, Failure.isFault_iff.mpr ⟨fault, hcause⟩⟩
    rw [World.effect, hitems]
    exact Item.failure_of_error hbefore hf

theorem World.AsksNext.exitCode_eq_two_iff (h : w.AsksNext r now stored count) :
    w.outcome.exitCode = 2 ↔ ∃ i < count, ∀ d, ¬ r.Term now stored i d := by
  obtain ⟨-, hend⟩ := h.outcome_spec
  have hnone := (r.term_isRow now stored).occurrences_eq_none_iff count
  rcases hend with ⟨hquiet, hzero, -⟩ | ⟨f, hsome, htwo, -⟩
  · have hall := hnone.mp hquiet
    rw [hzero]
    simpa using hall
  · have hnot : ¬ ∀ i < count, ∃ d, r.Term now stored i d := by
      rw [← hnone, hsome]
      exact Option.some_ne_none f
    rw [htwo]
    simpa using hnot

/-- Whether the program is asked for an occurrence that there is not: for more occurrences than a rule has, or to find
the next one for a task that has none, after dealing with all that comes before. -/
def World.LacksOccurrence (w : World) : Prop :=
  (∃ r now stored count, w.AsksNext r now stored count ∧ ∃ i < count, ∀ d, ¬ r.Term now stored i d) ∨
    ∃ command today sources, w.AsksTasks command today sources ∧
      Item.StopsAtLack command today (w.items w.stdin.flatten sources)

/-- The failures of a run of the program are those of the engine only where the engine found no occurrence. -/
theorem World.exists_next_of_failed (hopen : w.isOpen = true) (hlevel : ∃ level, w.environment.level = .ok level)
    (hf : (runProgram w w.console).1 = .error (.failed f)) (hcause : f.cause = .engine (.fault fault)) :
    ∃ (r : Rule) (now stored : Date), r.next now stored = .error fault := by
  rcases World.asks_or_faultless hopen hlevel with ⟨r, now, stored, count, h⟩ | ⟨command, today, sources, h⟩ | h
  · obtain ⟨c, hrun, -⟩ := h.runProgram_eq
    rw [hrun] at hf
    cases hend : (r.occurrences now stored count).2 with
    | none =>
      rw [hend] at hf
      cases hf
    | some fault' =>
      rw [hend] at hf
      cases hf
      cases hcause
      exact ⟨r, Rule.exists_next_of_occurrences hend⟩
  · obtain ⟨c, c', -, hrun, -⟩ := h.runProgram_eq
    rw [hrun] at hf
    obtain ⟨before, rest, outs, -, -, -, hending⟩ := w.exists_split command today sources
    rcases hending with ⟨-, hnone, -⟩ | ⟨i, later, f', -, hi, hsome, -⟩
    · rw [Effect.result_of_none hnone] at hf
      cases hf
    · rw [Effect.result_of_some hsome] at hf
      cases hf
      obtain ⟨input, l, t, -, -, d, r, -, hnext⟩ := Item.exists_fault_iff.mp ⟨f, hi, hcause⟩
      exact ⟨r, today, d, hnext⟩
  · have hfault := h _ _ (Prod.ext hf rfl)
    rw [Stop.isFault, Failure.isFault_iff.mpr ⟨fault, hcause⟩] at hfault
    cases hfault

theorem World.exitCode_eq_two_iff (hopen : w.isOpen = true) (hlevel : ∃ level, w.environment.level = .ok level) :
    w.outcome.exitCode = 2 ↔ w.LacksOccurrence := by
  constructor
  · intro htwo
    rcases World.asks_or_faultless hopen hlevel with ⟨r, now, stored, count, h⟩ | ⟨command, today, sources, h⟩ | h
    · exact Or.inl ⟨r, now, stored, count, h, h.exitCode_eq_two_iff.mp htwo⟩
    · exact Or.inr ⟨command, today, sources, h, h.exitCode_eq_two_iff.mp htwo⟩
    · obtain ⟨level, hlevel⟩ := hlevel
      rcases World.outcome_cases hlevel with ⟨-, hzero, -⟩ | ⟨f, hf, hcode, -⟩
      · cases hzero.symm.trans htwo
      · have hfault : f.isFault = true := Outcome.codeOf_eq_two_iff.mp (hcode.symm.trans htwo)
        cases hfault.symm.trans (h _ _ (Prod.ext hf rfl))
  · rintro (⟨r, now, stored, count, h, hlack⟩ | ⟨command, today, sources, h, hlack⟩)
    · exact h.exitCode_eq_two_iff.mpr hlack
    · exact h.exitCode_eq_two_iff.mpr hlack

/-- When somebody reads what is printed, the exit code is 2 just when the program is asked for an occurrence that there
is not. It is 0 when nothing failed and 1 for all other failures. Faults are only those of a search for an occurrence;
for a date and a rule given as texts, a specification is refused just when one of them is outside its language. -/
theorem exit_code_two_iff_lacks_occurrence (hopen : w.isOpen = true) :
    (w.outcome.exitCode = 2 ↔ w.LacksOccurrence) ∧ w.outcome.exitCode ≤ 2 ∧
      (w.outcome.exitCode = 0 ↔ w.outcome.complaint = none) ∧
      (∀ level, w.environment.level = .ok level →
        (w.outcome.exitCode = 0 ↔ ∀ f, (runProgram w w.console).1 ≠ .error (.failed f)) ∧
        ∀ f fault, (runProgram w w.console).1 = .error (.failed f) → f.cause = .engine (.fault fault) →
          ∃ (r : Rule) (now stored : Date), r.next now stored = .error fault) ∧
      ∀ (now : Date) (stored text : String),
        ((∃ e, dateAfter now stored text = .error (.spec e)) ↔
          ¬ ((∃ d : Date, 0 ≤ d.year ∧ d.compact = stored) ∧ ∃ r, Rule.Denotes text r)) ∧
        ∀ fault, dateAfter now stored text = .error (.fault fault) ↔
          ∃ (d : Date) (r : Rule), (0 ≤ d.year ∧ d.compact = stored) ∧ Rule.Denotes text r ∧
            r.next now d = .error fault := by
  cases hlevel : w.environment.level with
  | error f =>
    -- without a level of records nothing is asked for
    have hlack : ¬ w.LacksOccurrence := by
      rintro (⟨r, now, stored, count, h, -⟩ | ⟨command, today, sources, h, -⟩)
      · obtain ⟨level, hok⟩ := h.level
        cases hlevel.symm.trans hok
      · obtain ⟨level, hok⟩ := h.level
        cases hlevel.symm.trans hok
    obtain ⟨hone, htold⟩ := World.outcome_of_level_error hlevel
    rw [hone, htold]
    refine ⟨by simp [hlack], Nat.le_succ 1, by simp, fun level hok => ?_, dateAfter_error_spec⟩
    cases hok
  | ok level =>
    have htwo := World.exitCode_eq_two_iff hopen ⟨level, hlevel⟩
    obtain ⟨hle, hquiet, hzero⟩ := World.exitCode_spec hlevel
    refine ⟨htwo, hle, hquiet, fun _ _ => ⟨hzero, fun f fault hf hcause => ?_⟩, dateAfter_error_spec⟩
    exact World.exists_next_of_failed hopen ⟨level, hlevel⟩ hf hcause

/-- No February has a day 30. -/
theorem exit_code_two_for_missing_day : ∃ w : World, w.isOpen = true ∧ w.outcome.exitCode = 2 := by
  let t : Task := ⟨"", "20240101", "", "", "m 30 2"⟩
  let environment : Environment := ⟨some (Environment.bytesOf "20240126"), none, none, none, none, none, none⟩
  let arguments := ["task", "done"].map Environment.bytesOf
  let w : World := ⟨arguments, environment, [t.written], none, fun _ => .error .missing, 0, .shipped, true, false⟩
  have h : w.AsksTasks .complete w.todayDate [.stdin] :=
    World.asksTasks_of_arguments rfl rfl ⟨none, rfl⟩ (List.forall_mem_nil _)
  have hread : Task.read (Line.content ⟨1, t.written⟩) = .ok t := by
    rw [Task.content_written]
    exact Task.read_written t
  have hdate : Date.parse "20240101" = .ok ⟨2024, 1, 1, by decide, by decide, by decide⟩ := by rfl
  have hrule : Rule.parse "m 30 2" = .ok (.monthly [30] (some [2])) := by rfl
  have hnone (now stored e : Date) : e ∉ (Rule.monthly [30] (some [2])).upcoming now stored := by
    rintro ⟨-, -, hmonth, v, hv, hday⟩
    obtain rfl := List.mem_singleton.mp hv
    have hfebruary := List.mem_singleton.mp (hmonth _ rfl)
    have hlength := monthLength_le_longest e.year e.month
    have hlast := e.day_mem.2
    rw [hfebruary, longestLength, if_pos rfl] at hlength
    rcases hday with ⟨-, hday⟩ | ⟨hneg, -⟩
    · omega
    · omega
  have hitems : w.items w.stdin.flatten [.stdin] = [] ++ .line "<stdin>" ⟨1, t.written⟩ :: [] := by
    have hlines : linesOf [t.written].flatten = [⟨1, t.written⟩] := Task.linesOf_written [t]
    change Item.ofData "<stdin>" none [t.written].flatten ++ [] = _
    rw [Item.ofData, delivered, hlines, List.filter_cons_of_pos (by simp [Task.isBlank_written])]
    rfl
  have hlack : TaskCommand.complete.LacksOccurrence w.todayDate t := ⟨_, _, ⟨hdate, hrule⟩, hnone _ _⟩
  have hstops : Item.StopsAtLack .complete w.todayDate (w.items w.stdin.flatten [.stdin]) :=
    ⟨[], "<stdin>", ⟨1, t.written⟩, [], t, hitems, List.forall_mem_nil _, hread, hlack⟩
  exact ⟨w, rfl, (exit_code_two_iff_lacks_occurrence rfl).1.mpr (Or.inr ⟨.complete, w.todayDate, [.stdin], h, hstops⟩)⟩

end Lacking

end Agenda
