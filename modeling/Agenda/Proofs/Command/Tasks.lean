import Agenda.Proofs.Command.Items
import Agenda.Proofs.Command.Program
import Agenda.Proofs.Command.Token
import Mathlib.Data.List.ReduceOption
/-!
What the commands on tasks come to. Of the items of their inputs those before the first failure are dealt with, and all
that is printed comes from them. Completing a task leaves one record at the debug level, of its end or of its move.
-/
namespace Agenda

open Text

/-- Whether a run is to deal with the tasks of sources: its arguments ask for that, and somebody reads what is
printed. -/
structure World.AsksTasks (w : World) (command : TaskCommand) (today : Date) (sources : List Source) : Prop where
  isOpen : w.isOpen = true
  level : ∃ level, w.environment.level = .ok level
  request : ∃ a b q, (Arguments.ofList w.arguments).command Manual.program = .ok ("task", a) ∧
    a.command Manual.task = .ok (command.name, b) ∧
    (TaskRequest.ofTokens command.manual (b.tokens Setting.now.isNamed) w.console).1 = .ok q ∧
    q.now.getD w.todayDate = today ∧ sourcesNamed (b.tokens Setting.now.isNamed) = sources

variable {w : World} {command : TaskCommand} {today : Date} {sources : List Source} {t : Task} {i : Item} {f : Failure}
  {out : Option Task}

def taskBytes : Bytes := Environment.bytesOf "task"

/-- Any paths make a command line that asks for their tasks to be dealt with today. -/
theorem World.asksTasks_of_arguments {paths : List Bytes}
    (hw : w.arguments = taskBytes :: Environment.bytesOf command.name :: paths) (hopen : w.isOpen = true)
    (hlevel : ∃ level, w.environment.level = .ok level)
    (hpaths : ∀ path ∈ paths, path = dash ∨ path.head? ≠ some Token.dashByte) :
    w.AsksTasks command w.todayDate (sourcesNamed (paths.map Token.plain)) := by
  have htokens : Arguments.tokens Setting.now.isNamed ⟨paths, false⟩ = paths.map Token.plain :=
    Token.ofArguments_paths _ hpaths
  refine ⟨hopen, hlevel, ⟨Environment.bytesOf command.name :: paths, false⟩, ⟨paths, false⟩, ⟨none, paths.reverse ++ []⟩,
    ?_, ?_, ?_, rfl, ?_⟩
  · rw [hw]
    rfl
  · cases command <;> rfl
  · rw [htokens, TaskRequest.ofTokens, TaskRequest.foldlM_plain]
    rfl
  · rw [htokens]

/-- The effect of a command on the sources of a run. -/
def World.effect (w : World) (command : TaskCommand) (today : Date) (sources : List Source) : Effect :=
  .inOrder ((w.items w.stdin.flatten sources).map (Item.effect command today))

/-- The program, when it is asked to deal with tasks. -/
theorem World.AsksTasks.runProgram_eq (h : w.AsksTasks command today sources) : ∃ c c', w.console.Noted c ∧
    runProgram w w.console = ((w.effect command today sources).result, c') ∧
      c.Shows c' (w.effect command today sources) := by
  obtain ⟨a, b, q, ha, hb, hq, hnow, hsources⟩ := h.request
  have hrun : runProgram w = runTasks w command.manual command.act b := by
    have htasks : runProgram w = runTaskCommand w a := runProgram_of_command ha
    rw [htasks, runTaskCommand, hb]
    cases command <;> rfl
  -- reading the request and finding out the date only add notes, so the work starts with all of the standard input
  obtain ⟨c₁, hc⟩ : ∃ c₁, TaskRequest.ofTokens command.manual (b.tokens Setting.now.isNamed) w.console = (.ok q, c₁) :=
    ⟨_, Prod.ext hq rfl⟩
  obtain ⟨c₂, hdate, hnoted₂⟩ := w.referenceDate_eq q.now c₁
  have hnoted := ((TaskRequest.isWithin_ofTokens _ _).of_eq hc).1.trans hnoted₂
  obtain ⟨after, heffect⟩ := hasEffect_sources w command today sources w.stdin.flatten
  obtain ⟨c₃, hworked, hshows, -⟩ := heffect c₂ (hnoted.isOpen.trans h.isOpen) (congrArg List.flatten hnoted.stdin)
  refine ⟨c₂, c₃, hnoted, ?_, hshows⟩
  rw [hrun, runTasks, Run.bind_of_ok hc, TaskRequest.answer, Run.bind_of_ok hdate, hnow,
    TaskRequest.sources_of_ofTokens hc, hsources]
  exact hworked

/-- The records at the debug level. -/
def debugRecords (rs : List Record) : List Record :=
  rs.filter fun r => r.level = .debug

theorem debugRecords_append (rs rs' : List Record) : debugRecords (rs ++ rs') = debugRecords rs ++ debugRecords rs' :=
  List.filter_append _ _

theorem debugRecords_eq_nil {rs : List Record} (h : ∀ r ∈ rs, r.level ≠ .debug) : debugRecords rs = [] := by
  apply List.filter_eq_nil_iff.mpr
  intro r hr
  rw [decide_eq_true_iff]
  exact h r hr

/-- Where records at the debug level are kept, all of them are. -/
theorem debugRecords_filter_isKept {level : Level} (h : Level.debug.rank ≤ level.rank) (rs : List Record) :
    debugRecords (rs.filter (·.isKept (some level))) = debugRecords rs := by
  rw [debugRecords, List.filter_filter]
  apply List.filter_congr
  intro r _
  by_cases hr : r.level = .debug
  · simpa [hr, Record.isKept] using h
  · simp [hr]

/-- The outcome of a run that was asked to deal with tasks shows the effect of doing that. -/
theorem World.AsksTasks.outcome_spec (h : w.AsksTasks command today sources) :
    w.outcome.lines = (w.effect command today sources).lines ∧
      ((w.effect command today sources).failure = none ∧ w.outcome.exitCode = 0 ∧ w.outcome.complaint = none ∨
        ∃ f, (w.effect command today sources).failure = some f ∧ w.outcome.exitCode = Outcome.codeOf f ∧
          w.outcome.complaint = some (Outcome.complaintOf w.environment f)) ∧
      ∀ level, w.environment.level = .ok (some level) → Level.debug.rank ≤ level.rank →
        debugRecords w.outcome.records = debugRecords (w.effect command today sources).records := by
  obtain ⟨level, hlevel⟩ := h.level
  obtain ⟨c, c', hnoted, hrun, hshows⟩ := h.runProgram_eq
  obtain ⟨noted, hrecords, hquiet⟩ := hnoted.records
  have hlines : c'.printed.reverse = (w.effect command today sources).lines := by
    rw [hshows.printed, hnoted.printed, List.reverse_append, List.reverse_reverse]
    exact List.nil_append _
  -- what was noted before the work is not at the debug level
  have hshown : ∀ level', w.environment.level = .ok (some level') → Level.debug.rank ≤ level'.rank →
      debugRecords c'.records.reverse = debugRecords (w.effect command today sources).records := by
    intro level' hlevel' hrank
    have hempty : w.console.records = [] := rfl
    have hkept : c.level = some level' := hnoted.level.trans (World.level_console hlevel')
    rw [hshows.records, hrecords, hempty, List.append_nil, List.reverse_append, List.reverse_reverse,
      debugRecords_append, debugRecords_eq_nil fun r hr => hquiet r (List.mem_reverse.mp hr), List.nil_append, hkept,
      debugRecords_filter_isKept hrank]
  rw [World.outcome_of_level hlevel, hrun]
  cases hf : (w.effect command today sources).failure with
  | none =>
    rw [Effect.result_of_none hf]
    exact ⟨hlines, Or.inl ⟨rfl, rfl, rfl⟩, hshown⟩
  | some f =>
    rw [Effect.result_of_some hf]
    exact ⟨hlines, Or.inr ⟨f, rfl, rfl, rfl⟩, hshown⟩

namespace Item

theorem effect_of_ok (h : i.result command today = .ok out) :
    i.effect command today = ⟨out.toList.map Task.json, i.records command today, none⟩ := by
  rw [effect, h]
  rfl

theorem effect_of_error (h : i.result command today = .error f) :
    i.effect command today = ⟨[], i.records command today, some f⟩ := by
  rw [effect, h]
  rfl

/-- What is printed and recorded for items up to the first one that fails. -/
structure Split (command : TaskCommand) (today : Date) (items before rest : List Item) (outs : List (Option Task))
    (e : Effect) : Prop where
  items_eq : items = before ++ rest
  results : List.Forall₂ (fun i out => i.result command today = .ok out) before outs
  lines : e.lines = outs.reduceOption.map Task.json
  ending : rest = [] ∧ e.failure = none ∧ e.records = before.flatMap (records command today) ∨
    ∃ i later f, rest = i :: later ∧ i.result command today = .error f ∧ e.failure = some f ∧
      e.records = (before ++ [i]).flatMap (records command today)

theorem exists_result {before : List Item} {outs : List (Option Task)}
    (h : List.Forall₂ (fun i out => result command today i = .ok out) before outs) :
    ∀ i ∈ before, ∃ out, i.result command today = .ok out := by
  induction h with
  | nil => exact List.forall_mem_nil _
  | cons hi _ ih => exact List.forall_mem_cons.mpr ⟨⟨_, hi⟩, ih⟩

theorem exists_split (command : TaskCommand) (today : Date) (items : List Item) :
    ∃ before rest outs, Split command today items before rest outs (.inOrder (items.map (effect command today))) := by
  induction items with
  | nil => exact ⟨[], [], [], rfl, .nil, rfl, Or.inl ⟨rfl, rfl, rfl⟩⟩
  | cons i items ih =>
    rw [List.map_cons]
    cases hi : i.result command today with
    | error f =>
      -- no item was dealt with before this one, and none is after it
      have hfailed : (i.effect command today).failure = some f := by rw [effect_of_error hi]
      have heffect : Effect.inOrder (i.effect command today :: items.map (effect command today)) =
          i.effect command today := Effect.followedBy_of_some hfailed _
      rw [heffect, effect_of_error hi]
      refine ⟨[], i :: items, [], rfl, .nil, rfl, Or.inr ⟨i, items, f, rfl, hi, rfl, ?_⟩⟩
      rw [List.nil_append, List.flatMap_singleton]
    | ok out =>
      obtain ⟨before, rest, outs, hitems, hresults, hlines, hending⟩ := ih
      have hpassed : (i.effect command today).failure = none := by rw [effect_of_ok hi]
      have heffect : Effect.inOrder (i.effect command today :: items.map (effect command today)) = _ :=
        Effect.followedBy_of_none hpassed (.inOrder (items.map (effect command today)))
      rw [heffect, effect_of_ok hi]
      refine ⟨i :: before, rest, out :: outs, congrArg (i :: ·) hitems, .cons hi hresults, ?_, ?_⟩
      · dsimp only
        rw [hlines]
        cases out with
        | none => rfl
        | some t => rfl
      · dsimp only
        rcases hending with ⟨hrest, hf, hrecords⟩ | ⟨j, later, f, hrest, hj, hf, hrecords⟩
        · exact Or.inl ⟨hrest, hf, by rw [hrecords, List.flatMap_cons]⟩
        · exact Or.inr ⟨j, later, f, hrest, hj, hf, by rw [hrecords, List.cons_append, List.flatMap_cons]⟩

/-- The first item that fails is what a command fails with. -/
theorem failure_of_error {before later : List Item}
    (hbefore : ∀ j ∈ before, ∃ out, j.result command today = .ok out) (hi : i.result command today = .error f) :
    (Effect.inOrder ((before ++ i :: later).map (effect command today))).failure = some f := by
  induction before with
  | nil =>
    have hfailed : (i.effect command today).failure = some f := by rw [effect_of_error hi]
    rw [List.nil_append, List.map_cons]
    exact (congrArg Effect.failure (Effect.followedBy_of_some hfailed _)).trans hfailed
  | cons j before ih =>
    obtain ⟨⟨out, hj⟩, hbefore⟩ := List.forall_mem_cons.mp hbefore
    have hpassed : (j.effect command today).failure = none := by rw [effect_of_ok hj]
    rw [List.cons_append, List.map_cons]
    exact (congrArg Effect.failure (Effect.followedBy_of_none hpassed _)).trans (ih hbefore)

end Item

theorem World.exists_split (w : World) (command : TaskCommand) (today : Date) (sources : List Source) :
    ∃ before rest outs, Item.Split command today (w.items w.stdin.flatten sources) before rest outs
      (w.effect command today sources) :=
  Item.exists_split command today _

namespace Task

end Task

namespace Item

end Item

end Agenda
