import Agenda.Task.Schedule
import Agenda.Proofs.Calendar.DateText
import Agenda.Proofs.Recurrence.Next
/-!
What checking and completing a task come to. A task that a check lets through has a title, a date and a rule or none. Of
such a task both change the date alone, they do not move it back, and only a fault of the engine can stop them.
-/
namespace Agenda

open Text

variable {text : String} {r : Rule} {rule : Option Rule}

theorem recurrenceOf_eq_ok_iff : recurrenceOf text = .ok rule ↔
    allBlank text = true ∧ rule = none ∨ allBlank text = false ∧ ∃ r, Rule.parse text = .ok r ∧ rule = some r := by
  unfold recurrenceOf
  split
  case isTrue hblank => simp [hblank, eq_comm]
  case isFalse hblank =>
    rw [map_eq_ok_iff]
    simp [hblank, eq_comm]

theorem dateAfter_of_parse {now d : Date} {stored : String} (hd : Date.parse stored = .ok d)
    (hr : Rule.parse text = .ok r) :
    dateAfter now stored text = ((r.next now d).mapError .fault).map Date.compact := by
  rw [dateAfter, hd, hr]
  change ((r.next now d).mapError EngineError.fault >>= fun next => .ok next.compact) = _
  cases r.next now d with
  | error f => rfl
  | ok e => rfl

namespace Task

variable {t u : Task} {today date d : Date}

theorem moved_of_le (h : today ≤ date) : moved today date rule = .ok date :=
  if_pos h

theorem moved_none_of_lt (h : date < today) : moved today date none = .ok today :=
  if_neg (not_le.mpr h)

theorem moved_some_of_lt (h : date < today) : moved today date (some r) = r.next today date :=
  if_neg (not_le.mpr h)

/-- A date is moved forward, at least to today. -/
theorem le_of_moved (h : moved today date rule = .ok d) : date ≤ d ∧ today ≤ d := by
  by_cases hle : today ≤ date
  · rw [moved_of_le hle] at h
    obtain rfl := Except.ok.inj h
    exact ⟨le_rfl, hle⟩
  have hlt := not_le.mp hle
  cases rule with
  | none =>
    rw [moved_none_of_lt hlt] at h
    obtain rfl := Except.ok.inj h
    exact ⟨hlt.le, le_rfl⟩
  | some r =>
    rw [moved_some_of_lt hlt] at h
    obtain ⟨hnow, hstored⟩ := Rule.lt_of_next h
    exact ⟨hstored.le, hnow.le⟩

/-- What a task has that a check let through. -/
structure IsSound (t : Task) : Prop where
  title : allBlank t.title = false
  date : ∃ d, Date.parse t.date = .ok d
  recurrence : ∃ rule, recurrenceOf t.recurrence = .ok rule

theorem IsSound.withDate (h : t.IsSound) (hd : 0 ≤ d.year) : (t.withDate d.compact).IsSound :=
  ⟨h.title, ⟨d, Date.parse_eq_ok_iff.mpr ⟨hd, rfl⟩⟩, h.recurrence⟩

theorem get_withDate {f : Field} (hf : f ≠ .date) (t : Task) (date : String) : (t.withDate date).get f = t.get f := by
  cases f with
  | date => exact absurd rfl hf
  | id | title | comment | recurrence => rfl

theorem year_nonneg_of_le (hle : today ≤ d) (h : 0 ≤ today.year) : 0 ≤ d.year := by
  have hnot := Date.le_def.mp hle
  rw [Date.lt_def] at hnot
  omega

/-- The date of a sound task is not left out. -/
theorem dateOr_of_parse (h : Date.parse t.date = .ok d) : t.dateOr today = .ok d := by
  unfold dateOr
  split
  case isTrue hempty =>
    have hdigits := (Date.eight_digits_of_ofDigits (mapError_eq_ok_iff.mp h)).1
    rw [String.isEmpty_iff.mp hempty] at hdigits
    cases hdigits
  case isFalse => exact h

theorem exists_of_check (h : t.check today = .ok u) : allBlank t.title = false ∧ ∃ date rule d,
    t.dateOr today = .ok date ∧ recurrenceOf t.recurrence = .ok rule ∧ moved today date rule = .ok d ∧
      u = t.withDate d.compact := by
  unfold check at h
  split at h
  case isTrue => cases h
  case isFalse htitle =>
    obtain ⟨date, hdate, h⟩ := bind_eq_ok_iff.mp h
    obtain ⟨rule, hrule, h⟩ := bind_eq_ok_iff.mp h
    obtain ⟨d, hd, h⟩ := bind_eq_ok_iff.mp h
    exact ⟨Bool.eq_false_iff.mpr htitle, date, rule, d, mapError_eq_ok_iff.mp hdate, mapError_eq_ok_iff.mp hrule,
      mapError_eq_ok_iff.mp hd, (Except.ok.inj h).symm⟩

theorem exists_date_of_check (h : t.check today = .ok u) (hy : 0 ≤ today.year) :
    ∃ d, Date.parse u.date = .ok d ∧ today ≤ d := by
  obtain ⟨-, date, rule, d, -, -, hd, rfl⟩ := exists_of_check h
  have hle := (le_of_moved hd).2
  exact ⟨d, Date.parse_eq_ok_iff.mpr ⟨year_nonneg_of_le hle hy, rfl⟩, hle⟩

theorem isSound_of_check (h : t.check today = .ok u) (hy : 0 ≤ today.year) : u.IsSound := by
  obtain ⟨d, hd, -⟩ := exists_date_of_check h hy
  obtain ⟨htitle, date, rule, e, -, hrule, -, rfl⟩ := exists_of_check h
  exact ⟨htitle, ⟨d, hd⟩, ⟨rule, hrule⟩⟩

/-- A task with a title, a date or none, and a rule or none has its date moved, and nothing else can go wrong. -/
theorem check_of_dateOr (htitle : allBlank t.title = false) (hd : t.dateOr today = .ok d)
    (hr : recurrenceOf t.recurrence = .ok rule) : t.check today =
      (orFailure .taskMove .fault (moved today d rule)).map fun e => t.withDate e.compact := by
  rw [check, if_neg (Bool.eq_false_iff.mp htitle), hd, hr]
  rfl

theorem check_of_parse (htitle : allBlank t.title = false) (hd : Date.parse t.date = .ok d)
    (hr : recurrenceOf t.recurrence = .ok rule) : t.check today =
      (orFailure .taskMove .fault (moved today d rule)).map fun e => t.withDate e.compact :=
  check_of_dateOr htitle (dateOr_of_parse hd) hr

theorem exists_of_complete (h : t.complete today = .ok (.rescheduled u)) :
    ∃ text, dateAfter today t.date t.recurrence = .ok text ∧ u = t.withDate text := by
  obtain ⟨rule, -, h⟩ := bind_eq_ok_iff.mp h
  cases rule with
  | none => cases h
  | some r =>
    obtain ⟨text, htext, h⟩ := bind_eq_ok_iff.mp h
    cases h
    exact ⟨text, htext, rfl⟩

theorem complete_of_blank (h : allBlank t.recurrence = true) : t.complete today = .ok .removed := by
  rw [complete, recurrenceOf_eq_ok_iff.mpr (Or.inl ⟨h, rfl⟩)]
  rfl

/-- A task is over when it is completed just if it does not recur. -/
theorem complete_eq_removed_iff : t.complete today = .ok .removed ↔ allBlank t.recurrence = true := by
  refine ⟨fun h => ?_, complete_of_blank⟩
  obtain ⟨rule, hrule, h⟩ := bind_eq_ok_iff.mp h
  cases rule with
  | none =>
    rcases recurrenceOf_eq_ok_iff.mp (mapError_eq_ok_iff.mp hrule) with ⟨hblank, -⟩ | ⟨-, r, -, hsome⟩
    · exact hblank
    · cases hsome
  | some r =>
    obtain ⟨text, -, h⟩ := bind_eq_ok_iff.mp h
    cases h

/-- Completing a sound task that recurs moves it to the next occurrence, and nothing else can go wrong. -/
theorem complete_of_parse (hd : Date.parse t.date = .ok d) (hb : allBlank t.recurrence = false)
    (hr : Rule.parse t.recurrence = .ok r) : t.complete today =
      ((r.next today d).mapError .fault).map fun e => .rescheduled (t.withDate e.compact) := by
  -- the rule is read a second time for the date, from the same text
  have hmap : t.complete today = (dateAfter today t.date t.recurrence).map fun text => .rescheduled (t.withDate text) := by
    rw [complete, recurrenceOf_eq_ok_iff.mpr (Or.inr ⟨hb, r, hr, rfl⟩)]
    change (dateAfter today t.date t.recurrence >>= _) = _
    cases dateAfter today t.date t.recurrence with
    | error e => rfl
    | ok text => rfl
  rw [hmap, dateAfter_of_parse hd hr]
  cases r.next today d with
  | error f => rfl
  | ok e => rfl

end Task

end Agenda
