import Agenda.Proofs.Command.Faultless
import Agenda.Proofs.Command.Occurrences
import Agenda.Proofs.Command.Printed
import Agenda.Proofs.Command.Tasks
import Agenda.Proofs.Command.Written
import Agenda.Proofs.Task.Schedule
/-!
The dates that the program writes. Dates that are given as texts lie in the years from 0 on, and no date is ever moved
back, so the dates written are eight digits that can be read again. There is one way out: today comes from a timestamp or
from the clock, and where it lies before year 0 it is written with a sign.
-/
namespace Agenda

open Text

/-- Whether a text is a date as it can be read: eight digits that name a real date. -/
def IsDateText (text : String) : Prop :=
  text.toList.length = 8 ∧ text.toList.all Numeral.isDigit = true ∧ ∃ d, Date.parse text = .ok d

variable {w : World} {a : Arguments} {text : String} {d stored today : Date} {c c' : Console} {t u : Task}
  {P : String → Prop}

theorem isDateText_compact_iff : IsDateText d.compact ↔ 0 ≤ d.year := by
  constructor
  · intro h
    obtain ⟨-, -, e, he⟩ := h
    by_contra hneg
    exact Date.parse_compact_ne_ok (not_le.mp hneg) he
  · intro h
    have hread : Date.parse d.compact = .ok d := Date.parse_eq_ok_iff.mpr ⟨h, rfl⟩
    obtain ⟨hlength, hdigits⟩ := Date.eight_digits_of_ofDigits (mapError_eq_ok_iff.mp hread)
    exact ⟨hlength, hdigits, d, hread⟩

/-- The date texts that a run writes: the line of the program without arguments, each line of the command that prints
occurrences, and the date of each task that a command on tasks prints. -/
inductive World.WritesDate (w : World) : String → Prop
  | today {text : String} (h : w.arguments = []) (ht : text ∈ w.printed) : w.WritesDate text
  | occurrence {a : Arguments} {text : String}
    (h : (Arguments.ofList w.arguments).command Manual.program = .ok ("next", a)) (ht : text ∈ w.printed) :
    w.WritesDate text
  | task {a : Arguments} {t : Task} (h : (Arguments.ofList w.arguments).command Manual.program = .ok ("task", a))
    (ht : t.json ∈ w.printed) : w.WritesDate t.date

section Given

theorem Date.year_nonneg_of_parse (h : Date.parse text = .ok d) : 0 ≤ d.year :=
  (Date.parse_eq_ok_iff.mp h).1

/-- A date that an option gives is read from a text. -/
theorem Setting.year_of_now {tok : Token} (h : Setting.now.value? Setting.readNow tok = some (.ok d)) : 0 ≤ d.year := by
  unfold value? at h
  split at h
  · split at h
    · have hvalue := mapError_eq_ok_iff.mp (Option.some.inj h)
      split at hvalue
      · cases hvalue
      · exact Date.year_nonneg_of_parse (mapError_eq_ok_iff.mp hvalue)
    · cases h
  · split at h
    · cases h
    · cases h
  · cases h

theorem NextRequest.stored_of_takePlain {q q' : NextRequest} {value : Bytes} (h : q.takePlain value = .ok q')
    (hq : ∀ d ∈ q.stored, 0 ≤ d.year) : ∀ d ∈ q'.stored, 0 ≤ d.year := by
  unfold takePlain at h
  split at h
  · cases h
  · dsimp only at h
    split_ifs at h
    · obtain ⟨d, hd, hq'⟩ := bind_eq_ok_iff.mp h
      cases hq'
      intro e he
      cases he
      exact Date.year_nonneg_of_parse (mapError_eq_ok_iff.mp hd)
    · cases h
      exact hq

theorem NextRequest.stored_of_take {q q' : NextRequest} {tok : Token} (hq : ∀ d ∈ q.stored, 0 ≤ d.year)
    (h : q.take tok c = (.ok q', c')) : ∀ d ∈ q'.stored, 0 ≤ d.year := by
  unfold take at h
  cases hcount : Setting.count.value? Setting.readTimes tok with
  | some result =>
    rw [hcount] at h
    obtain ⟨n, c₁, -, hrest⟩ := Run.exists_of_bind h
    cases hrest
    exact hq
  | none =>
    rw [hcount] at h
    cases hnow : Setting.now.value? Setting.readNow tok with
    | some result =>
      rw [hnow] at h
      obtain ⟨d, c₁, -, hrest⟩ := Run.exists_of_bind h
      cases hrest
      exact hq
    | none =>
      rw [hnow] at h
      cases tok with
      | plain value => exact stored_of_takePlain (Run.eq_ok_of_ofExcept h) hq
      | flag | setting | missing | surplus => cases h

theorem NextRequest.year_of_stored {q : NextRequest} {ts : List Token} (h : ofTokens ts c = (.ok q, c'))
    (hs : q.stored = some stored) : 0 ≤ stored.year := by
  have hempty : ∀ d ∈ empty.stored, 0 ≤ d.year := by
    intro d hd
    cases hd
  exact Run.of_foldlM (fun q => ∀ d ∈ q.stored, 0 ≤ d.year) (fun _ _ => stored_of_take) hempty h stored hs

theorem TaskRequest.now_of_take {manual : Manual} {q q' : TaskRequest} {tok : Token} (hq : ∀ d ∈ q.now, 0 ≤ d.year)
    (h : q.take manual tok c = (.ok q', c')) : ∀ d ∈ q'.now, 0 ≤ d.year := by
  unfold take at h
  cases hnow : Setting.now.value? Setting.readNow tok with
  | some result =>
    rw [hnow] at h
    obtain ⟨d, c₁, hd, hrest⟩ := Run.exists_of_bind h
    cases hrest
    intro e he
    cases he
    rw [Run.eq_ok_of_ofExcept hd] at hnow
    exact Setting.year_of_now hnow
  | none =>
    rw [hnow] at h
    cases tok with
    | plain value =>
      cases h
      exact hq
    | flag | setting | missing | surplus => cases h

theorem TaskRequest.year_of_now {manual : Manual} {q : TaskRequest} {ts : List Token}
    (h : ofTokens manual ts c = (.ok q, c')) (hd : q.now = some d) : 0 ≤ d.year := by
  have hempty : ∀ d ∈ empty.now, 0 ≤ d.year := by
    intro d hd
    cases hd
  exact Run.of_foldlM (fun q => ∀ d ∈ q.now, 0 ≤ d.year) (fun _ _ => now_of_take) hempty h d hd

end Given

section Moved

theorem Date.year_nonneg_of_lt (h : stored < d) (hs : 0 ≤ stored.year) : 0 ≤ d.year :=
  Task.year_nonneg_of_le h.le hs

/-- A task that a command prints has a date from year 0 on, or it had none and has today's. -/
theorem TaskCommand.exists_date_of_result {command : TaskCommand} (h : command.result today t = .ok (some u)) :
    ∃ d, u.date = d.compact ∧ (0 ≤ d.year ∨ d = today) := by
  cases command with
  | check =>
    obtain ⟨u', hcheck, hu⟩ := map_eq_ok_iff.mp h
    cases hu
    obtain ⟨-, date, rule, d, hdate, -, hmoved, rfl⟩ := Task.exists_of_check hcheck
    refine ⟨d, rfl, ?_⟩
    unfold Task.dateOr at hdate
    split at hdate
    · cases hdate
      have hstays : Task.moved today today rule = .ok today := if_pos le_rfl
      exact Or.inr (Except.ok.inj (hmoved.symm.trans hstays))
    · exact Or.inl (Task.year_nonneg_of_le (Task.le_of_moved hmoved).1 (Date.year_nonneg_of_parse hdate))
  | complete =>
    obtain ⟨completion, hcompletion, hu⟩ := map_eq_ok_iff.mp h
    cases completion with
    | removed => cases hu
    | rescheduled v =>
      cases hu
      obtain ⟨text, htext, rfl⟩ := Task.exists_of_complete (mapError_eq_ok_iff.mp hcompletion)
      obtain ⟨stored, hstored, htext⟩ := bind_eq_ok_iff.mp htext
      obtain ⟨rule, -, htext⟩ := bind_eq_ok_iff.mp htext
      obtain ⟨next, hnext, htext⟩ := bind_eq_ok_iff.mp htext
      cases htext
      have hlater : stored < next := (Rule.next_eq_ok_iff.mp (mapError_eq_ok_iff.mp hnext)).1.2.1
      have hyear := Date.year_nonneg_of_parse (mapError_eq_ok_iff.mp hstored)
      exact ⟨next, rfl, Or.inl (Date.year_nonneg_of_lt hlater hyear)⟩

end Moved

section Printing

theorem isWithin_printOccurrences (r : Rule) (now stored : Date) (count : Nat) (hs : 0 ≤ stored.year) :
    (printOccurrences r now stored count).IsWithin (.printing IsDateText) := by
  induction count generalizing now stored with
  | zero => exact Run.isWithin_done _ ()
  | succ count ih =>
    apply (Run.isWithin_printing_record _ _).bind
    intro _
    apply (Run.isWithin_printing_ofExcept _ _).bind_of_results
    intro c d c' hd
    have hnext := mapError_eq_ok_iff.mp (Run.eq_ok_of_ofExcept hd)
    have hyear := Date.year_nonneg_of_lt (Rule.next_eq_ok_iff.mp hnext).1.2.1 hs
    exact (Run.isWithin_printing (isDateText_compact_iff.mpr hyear)).bind fun _ => ih d d hyear

theorem isWithin_printing_runNext (w : World) (a : Arguments) : (runNext w a).IsWithin (.printing IsDateText) := by
  apply ((NextRequest.isWithin_ofTokens _).printing _).bind_of_results
  intro c q c' hq
  unfold NextRequest.answer
  split
  · exact Run.isWithin_stop trivial
  · exact Run.isWithin_stop trivial
  · rename_i stored recurrence hs hr
    apply (Run.isWithin_printing_ofExcept _ _).bind
    intro rule
    apply ((w.isWithin_referenceDate q.now).printing _).bind
    intro now
    exact isWithin_printOccurrences rule now stored q.count (NextRequest.year_of_stored hq hs)

/-- What dealing with a task prints is the task that comes of it. -/
theorem TaskCommand.isWithin_act (command : TaskCommand) (today : Date) (t : Task) : (command.act today t).IsWithin
    (.printing fun line => ∃ u, command.result today t = .ok (some u) ∧ line = u.json) := by
  cases command with
  | check =>
    apply (Run.isWithin_printing_record _ _).bind
    intro _
    apply (Run.isWithin_printing_ofExcept _ _).bind_of_results
    intro c u c' hu
    apply Run.isWithin_printing
    exact ⟨u, map_eq_ok_iff.mpr ⟨u, Run.eq_ok_of_ofExcept hu, rfl⟩, rfl⟩
  | complete =>
    apply (Run.isWithin_printing_record _ _).bind
    intro _
    apply (Run.isWithin_printing_ofExcept _ _).bind_of_results
    intro c completion c' hcompletion
    cases completion with
    | removed => exact Run.isWithin_done _ ()
    | rescheduled u =>
      apply Run.isWithin_printing
      exact ⟨u, map_eq_ok_iff.mpr ⟨_, Run.eq_ok_of_ofExcept hcompletion, rfl⟩, rfl⟩

theorem isWithin_printing_withTasksOf {act : Task → Run Unit} (h : ∀ t, (act t).IsWithin (.printing P)) (w : World)
    (source : Source) : (withTasksOf w act source).IsWithin (.printing P) := by
  have hline (input : String) (l : Line) : (withTaskOn act input l).IsWithin (.printing P) := by
    unfold withTaskOn
    split
    · exact Run.isWithin_done _ ()
    · apply Run.IsWithin.during
      · exact (Run.isWithin_printing_ofExcept _ _).bind h
      · exact fun _ _ => trivial
  unfold withTasksOf
  split
  · exact Run.isWithin_printing_eachInputLine _ (hline _)
  · split
    · exact Run.isWithin_stop trivial
    · exact Run.isWithin_stop trivial
    · rw [Run.eachLineUpTo_done]
      exact Run.isWithin_eachLineOf (fun _ => trivial) (hline _) _

/-- Whether a line is that of a task whose date is from year 0 on, or is the date that a run takes to be today. -/
def World.IsTaskLine (w : World) (line : String) : Prop :=
  ∃ t d, line = Task.json t ∧ t.date = d.compact ∧ (0 ≤ d.year ∨ d = w.todayDate)

theorem isWithin_printing_runTasks (w : World) (command : TaskCommand) (a : Arguments) :
    (runTasks w command.manual command.act a).IsWithin (.printing w.IsTaskLine) := by
  apply ((TaskRequest.isWithin_ofTokens _ _).printing _).bind_of_results
  intro c q c' hq
  apply ((w.isWithin_referenceDate q.now).printing _).bind_of_results
  intro c₁ today c₂ htoday
  have hgiven : 0 ≤ today.year ∨ today = w.todayDate := by
    obtain ⟨c₃, hdate, -⟩ := w.referenceDate_eq q.now c₁
    rw [hdate] at htoday
    cases htoday
    cases hnow : q.now with
    | none => exact Or.inr rfl
    | some d => exact Or.inl (TaskRequest.year_of_now hq hnow)
  apply Run.isWithin_each
  intro source
  apply isWithin_printing_withTasksOf
  intro t
  apply (command.isWithin_act today t).printing_mono
  intro line hline
  obtain ⟨u, hu, rfl⟩ := hline
  obtain ⟨d, hd, hyear⟩ := TaskCommand.exists_date_of_result hu
  refine ⟨u, d, rfl, hd, ?_⟩
  rcases hyear with hyear | rfl
  · exact Or.inl hyear
  · exact hgiven

theorem isWithin_printing_runTaskCommand (w : World) (a : Arguments) :
    (runTaskCommand w a).IsWithin (.printing w.IsTaskLine) := by
  unfold runTaskCommand
  split
  · exact Run.isWithin_stop trivial
  · split_ifs
    · exact isWithin_printing_runTasks w .check _
    · exact isWithin_printing_runTasks w .complete _
    · exact Run.isWithin_stop trivial

end Printing

/-- Different tasks are printed as different lines. -/
theorem Task.json_injective : Function.Injective Task.json := by
  intro t u h
  have hread := Task.read_written t
  rw [String.ofList_inj.mp h, Task.read_written u] at hread
  exact (Except.ok.inj hread).symm

/-- Each date text that a run writes is a date from year 0 on, or today's. -/
theorem World.WritesDate.exists_date (h : w.WritesDate text) :
    ∃ d, text = d.compact ∧ (0 ≤ d.year ∨ d = w.todayDate) := by
  cases h with
  | today hargs ht =>
    have hrun : (runProgram w).IsWithin (.printing (· = w.todayDate.compact)) := by
      rw [runProgram, if_pos (List.isEmpty_iff.mpr hargs)]
      apply ((w.isWithin_referenceDate none).printing _).bind_of_results
      intro c d c' hd
      obtain ⟨c₁, hdate, -⟩ := w.referenceDate_eq none c
      cases hd.symm.trans hdate
      exact Run.isWithin_printing rfl
    exact ⟨w.todayDate, World.forall_printed hrun text ht, Or.inr rfl⟩
  | @occurrence a _ hargs ht =>
    have hrun : runProgram w = runNext w a := runProgram_of_command hargs
    have hread := World.forall_printed (hrun ▸ isWithin_printing_runNext w a) text ht
    obtain ⟨-, -, d, hd⟩ := hread
    obtain ⟨hyear, htext⟩ := Date.parse_eq_ok_iff.mp hd
    exact ⟨d, htext.symm, Or.inl hyear⟩
  | @task a t hargs ht =>
    have hrun : runProgram w = runTaskCommand w a := runProgram_of_command hargs
    obtain ⟨u, d, hu, hd, hyear⟩ := World.forall_printed (hrun ▸ isWithin_printing_runTaskCommand w a) _ ht
    obtain rfl := Task.json_injective hu
    exact ⟨d, hd, hyear⟩

/-- Every date text that a run writes is one of eight digits that can be read again, unless it is that of today and today
lies before year 0. Today does not when it is set as a date. Apart from the manual or the version, what is printed is all
that is written. -/
theorem written_dates_are_read_from_year_zero (w : World) :
    (∀ text, w.WritesDate text → (IsDateText text ↔ ¬ (text = w.todayDate.compact ∧ w.todayDate.year < 0))) ∧
      (∀ value s d, w.environment.today = some value → Utf8.decode? value = some s →
        Date.parse (String.ofList s) = .ok d → w.todayDate = d ∧ 0 ≤ w.todayDate.year) ∧
      w.outcome.lines = w.printed ++ w.page?.toList := by
  refine ⟨?_, ?_, w.lines_eq⟩
  · intro text h
    obtain ⟨d, rfl, hd⟩ := h.exists_date
    rw [isDateText_compact_iff]
    constructor
    · intro hyear htoday
      obtain ⟨heq, hneg⟩ := htoday
      rw [Date.compact_injective heq] at hyear
      omega
    · intro hnot
      rcases hd with hyear | rfl
      · exact hyear
      · by_contra hneg
        exact hnot ⟨rfl, not_le.mp hneg⟩
  · intro value s d hvalue hs hd
    have htoday : w.todayDate = d := by
      unfold World.todayDate World.setDate
      rw [hvalue]
      dsimp only
      rw [hs]
      dsimp only
      rw [mapError_eq_ok_iff.mp hd]
    rw [htoday]
    exact ⟨rfl, Date.year_nonneg_of_parse hd⟩

/-- The program without arguments, with today set by a text. -/
def World.withToday (today : String) : World :=
  ⟨[], ⟨some (Environment.bytesOf today), none, none, none, none, none, none⟩, [], none, fun _ => .error .missing, 0,
    .shipped, true, false⟩

/-- The last day of year 0, from a timestamp of year 1 that is an hour ahead of universal time. -/
theorem last_day_of_year_zero_is_read : ∃ w : World, w.WritesDate "00001231" ∧ IsDateText "00001231" := by
  let w := World.withToday "0001-01-01T00:00:00+01:00"
  have htoday : w.todayDate = ⟨0, 12, 31, by decide, by decide, by decide⟩ := by decide +kernel
  have hline : w.todayDate.compact = "00001231" := by decide +kernel
  have hwritten : w.WritesDate "00001231" := by
    rw [← hline]
    exact .today rfl (List.mem_singleton.mpr rfl)
  refine ⟨w, hwritten, ((written_dates_are_read_from_year_zero w).1 _ hwritten).mpr fun h => ?_⟩
  rw [htoday] at h
  exact absurd h.2 (by decide)

/-- The day before year 0, from a timestamp of year 0 that is an hour ahead of universal time, is written with a sign and
cannot be read, and the run ends as if nothing was amiss. -/
theorem day_before_year_zero_is_not_read : ∃ w : World, w.outcome.exitCode = 0 ∧ w.outcome.stdout = "-0011231\n" ∧
    w.WritesDate "-0011231" ∧ ¬ IsDateText "-0011231" := by
  let w := World.withToday "0000-01-01T00:00:00+01:00"
  have htoday : w.todayDate = ⟨-1, 12, 31, by decide, by decide, by decide⟩ := by decide +kernel
  have hline : w.todayDate.compact = "-0011231" := by decide +kernel
  have hlines : w.outcome.lines = [w.todayDate.compact] := rfl
  refine ⟨w, rfl, ?_, ?_, ?_⟩
  · rw [Outcome.stdout, hlines, hline]
    rfl
  · rw [← hline]
    exact .today rfl (List.mem_singleton.mpr rfl)
  · rw [← hline, isDateText_compact_iff, htoday]
    decide

end Agenda
