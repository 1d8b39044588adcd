import Agenda.Proofs.Failure
import Agenda.Proofs.Task.Fault
/-!
What a check of a task comes to, case by case. A check settles a task: what it lets through it lets through again as it
is, and so it does with every task that is in order already.
-/
namespace Agenda

open Text

variable {text : String} {e : SpecError} {fault : Fault} {f : Failure}

theorem recurrenceOf_eq_error_iff :
    recurrenceOf text = .error e ↔ allBlank text = false ∧ Rule.parse text = .error e := by
  unfold recurrenceOf
  split
  case isTrue hblank => simp [hblank]
  case isFalse hblank => rw [map_eq_error_iff, and_iff_right (Bool.eq_false_iff.mpr hblank)]

/-- The texts that a task may have for its recurrence are the blank ones and those of rules. -/
theorem exists_recurrenceOf_iff :
    (∃ rule, recurrenceOf text = .ok rule) ↔ allBlank text = true ∨ ∃ r, Rule.parse text = .ok r := by
  constructor
  · rintro ⟨rule, h⟩
    rcases recurrenceOf_eq_ok_iff.mp h with ⟨hblank, -⟩ | ⟨-, r, hr, -⟩
    · exact Or.inl hblank
    · exact Or.inr ⟨r, hr⟩
  · rintro (hblank | ⟨r, hr⟩)
    · exact ⟨none, recurrenceOf_eq_ok_iff.mpr (Or.inl ⟨hblank, rfl⟩)⟩
    · exact ⟨some r, recurrenceOf_eq_ok_iff.mpr (Or.inr ⟨Rule.allBlank_of_parse hr, r, hr, rfl⟩)⟩

namespace Task

variable {t u : Task} {today d : Date} {r : Rule} {rule : Option Rule} {result : Except Failure Task}

theorem dateOr_of_empty (h : t.date = "") : t.dateOr today = .ok today := by
  rw [dateOr, if_pos (String.isEmpty_iff.mpr h)]

theorem dateOr_of_ne (h : t.date ≠ "") : t.dateOr today = Date.parse t.date := by
  rw [dateOr, if_neg (mt String.isEmpty_iff.mp h)]

/-- A task that recurs and whose date has passed has it moved to the next occurrence. -/
theorem check_of_passed (htitle : allBlank t.title = false) (hd : Date.parse t.date = .ok d) (hlt : d < today)
    (hr : Rule.parse t.recurrence = .ok r) : t.check today =
      (orFailure .taskMove .fault (r.next today d)).map fun e => t.withDate e.compact := by
  have hrule := recurrenceOf_eq_ok_iff.mpr (Or.inr ⟨Rule.allBlank_of_parse hr, r, hr, rfl⟩)
  rw [check_of_parse htitle hd hrule, moved_some_of_lt hlt]

/-- The date that a check leaves a task with. -/
inductive Dated (t : Task) (today : Date) : (date : String) → Prop
  | missing (date : t.date = "") : Dated t today today.compact
  | kept {d : Date} (date : Date.parse t.date = .ok d) (due : today ≤ d) : Dated t today t.date
  | passed {d : Date} (date : Date.parse t.date = .ok d) (due : d < today) (once : allBlank t.recurrence = true) :
    Dated t today today.compact
  | recurs {d : Date} {text : String} (date : Date.parse t.date = .ok d) (due : d < today)
    (again : allBlank t.recurrence = false) (next : dateAfter today t.date t.recurrence = .ok text) : Dated t today text

/-- What a check of a task comes to. The first thing that is wrong with the task is what it fails with: its title, its
date, its recurrence, and then that there is no next date for one that has passed. -/
inductive Checked (t : Task) (today : Date) : Except Failure Task → Prop
  | untitled (title : allBlank t.title = true) : Checked t today (.error (.of .titleMissing))
  | undated {e : SpecError} (title : allBlank t.title = false) (missing : t.date ≠ "")
    (date : Date.parse t.date = .error e) : Checked t today (.error ((Failure.ofEngine (.spec e)).during .taskDate))
  | unruled {e : SpecError} (title : allBlank t.title = false) (date : t.date = "" ∨ ∃ d, Date.parse t.date = .ok d)
    (again : allBlank t.recurrence = false) (recurrence : Rule.parse t.recurrence = .error e) :
    Checked t today (.error ((Failure.ofEngine (.spec e)).during .taskRecurrence))
  | stuck {d : Date} {f : Fault} (title : allBlank t.title = false) (date : Date.parse t.date = .ok d) (due : d < today)
    (again : allBlank t.recurrence = false) (next : dateAfter today t.date t.recurrence = .error (.fault f)) :
    Checked t today (.error ((Failure.ofEngine (.fault f)).during .taskMove))
  | settled {date : String} (title : allBlank t.title = false)
    (recurrence : allBlank t.recurrence = true ∨ ∃ r, Rule.parse t.recurrence = .ok r) (dated : t.Dated today date) :
    Checked t today (.ok (t.withDate date))

/-- What a check comes to is determined by the texts of the task. -/
theorem Checked.check_eq (h : t.Checked today result) : t.check today = result := by
  cases h with
  | untitled title => exact if_pos title
  | undated title missing date =>
    rw [check, if_neg (Bool.eq_false_iff.mp title), dateOr_of_ne missing, date]
    rfl
  | unruled title date again recurrence =>
    have hdate : ∃ d, t.dateOr today = .ok d := by
      rcases date with hempty | ⟨d, hd⟩
      · exact ⟨today, dateOr_of_empty hempty⟩
      · exact ⟨d, dateOr_of_parse hd⟩
    obtain ⟨d, hd⟩ := hdate
    rw [check, if_neg (Bool.eq_false_iff.mp title), hd, recurrenceOf_eq_error_iff.mpr ⟨again, recurrence⟩]
    rfl
  | stuck title date due again next =>
    obtain ⟨d', r, ⟨hd, hr⟩, hnext⟩ := dateAfter_eq_fault_iff.mp next
    obtain rfl := Except.ok.inj (date.symm.trans hd)
    rw [check_of_passed title hd due hr, hnext]
    rfl
  | settled title recurrence dated =>
    obtain ⟨rule, hrule⟩ := exists_recurrenceOf_iff.mpr recurrence
    cases dated with
    | missing date =>
      rw [check_of_dateOr title (dateOr_of_empty date) hrule, moved_of_le le_rfl]
      rfl
    | kept date due =>
      rw [check_of_parse title date hrule, moved_of_le due, ← (Date.parse_eq_ok_iff.mp date).2]
      rfl
    | passed date due once =>
      have hnone : recurrenceOf t.recurrence = .ok none := recurrenceOf_eq_ok_iff.mpr (Or.inl ⟨once, rfl⟩)
      rw [check_of_parse title date hnone, moved_none_of_lt due]
      rfl
    | recurs date due again next =>
      -- the next date comes from the texts once more, which read as they did before
      obtain ⟨r, hr⟩ := recurrence.resolve_left (Bool.eq_false_iff.mp again)
      rw [dateAfter_of_parse date hr] at next
      obtain ⟨e, he, rfl⟩ := map_eq_ok_iff.mp next
      rw [check_of_passed title date due hr, mapError_eq_ok_iff.mp he]
      rfl

/-- A task whose texts are in order is left with a date, or has none that comes next. -/
theorem exists_dated (today : Date) (hdate : t.date = "" ∨ ∃ d, Date.parse t.date = .ok d)
    (hrec : allBlank t.recurrence = true ∨ ∃ r, Rule.parse t.recurrence = .ok r) : (∃ date, t.Dated today date) ∨
      ∃ d f, (Date.parse t.date = .ok d ∧ d < today) ∧ allBlank t.recurrence = false ∧
        dateAfter today t.date t.recurrence = .error (.fault f) := by
  rcases hdate with hempty | ⟨d, hd⟩
  · exact Or.inl ⟨_, .missing hempty⟩
  by_cases hdue : today ≤ d
  · exact Or.inl ⟨_, .kept hd hdue⟩
  have hlt := not_le.mp hdue
  rcases hrec with hblank | ⟨r, hr⟩
  · exact Or.inl ⟨_, .passed hd hlt hblank⟩
  have hagain := Rule.allBlank_of_parse hr
  cases hnext : r.next today d with
  | ok e =>
    have htext : dateAfter today t.date t.recurrence = .ok e.compact := by
      rw [dateAfter_of_parse hd hr, hnext]
      rfl
    exact Or.inl ⟨_, .recurs hd hlt hagain htext⟩
  | error f => exact Or.inr ⟨d, f, ⟨hd, hlt⟩, hagain, dateAfter_eq_fault_iff.mpr ⟨d, r, ⟨hd, hr⟩, hnext⟩⟩

/-- There is a case for every task on every day. -/
theorem exists_checked (t : Task) (today : Date) : ∃ result, t.Checked today result := by
  cases htitle : allBlank t.title with
  | true => exact ⟨_, .untitled htitle⟩
  | false =>
    by_cases hdate : t.date = "" ∨ ∃ d, Date.parse t.date = .ok d
    · by_cases hrec : allBlank t.recurrence = true ∨ ∃ r, Rule.parse t.recurrence = .ok r
      · rcases exists_dated today hdate hrec with ⟨date, hdated⟩ | ⟨d, f, ⟨hd, hlt⟩, hagain, hnext⟩
        · exact ⟨_, .settled htitle hrec hdated⟩
        · exact ⟨_, .stuck htitle hd hlt hagain hnext⟩
      · obtain ⟨hagain, hrule⟩ := not_or.mp hrec
        obtain ⟨e, he⟩ := exists_error_iff.mpr hrule
        exact ⟨_, .unruled htitle hdate (Bool.eq_false_iff.mpr hagain) he⟩
    · obtain ⟨hmissing, hread⟩ := not_or.mp hdate
      obtain ⟨e, he⟩ := exists_error_iff.mpr hread
      exact ⟨_, .undated htitle hmissing he⟩

theorem check_eq_iff : t.check today = result ↔ t.Checked today result := by
  constructor
  · intro h
    obtain ⟨result', hresult⟩ := t.exists_checked today
    rwa [← h, hresult.check_eq]
  · exact Checked.check_eq

/-- A check ends in a fault when nothing is wrong with the task and its rule has no occurrence left to move its date to. -/
theorem exists_check_fault_iff : (∃ f, t.check today = .error f ∧ f.cause = .engine (.fault fault)) ↔
    ∃ d r, (allBlank t.title = false ∧ Date.parse t.date = .ok d ∧ d < today ∧ Rule.parse t.recurrence = .ok r) ∧
      r.next today d = .error fault := by
  constructor
  · intro h
    obtain ⟨f, hf, hcause⟩ := h
    cases check_eq_iff.mp hf with
    | untitled => cases hcause
    | undated => cases hcause
    | unruled => cases hcause
    | stuck title date due _ next =>
      cases hcause
      obtain ⟨d, r, ⟨hd, hr⟩, hnext⟩ := dateAfter_eq_fault_iff.mp next
      obtain rfl := Except.ok.inj (date.symm.trans hd)
      exact ⟨_, r, ⟨title, date, due, hr⟩, hnext⟩
  · intro h
    obtain ⟨d, r, ⟨htitle, hd, hlt, hr⟩, hnext⟩ := h
    have htext := dateAfter_eq_fault_iff.mpr ⟨d, r, ⟨hd, hr⟩, hnext⟩
    exact ⟨_, check_eq_iff.mpr (.stuck htitle hd hlt (Rule.allBlank_of_parse hr) htext), rfl⟩

/-- The message about a missing title does not begin like those that tell what was being done with the task. -/
theorem message_during_ne {c : Context} (hc : c = .taskDate ∨ c = .taskRecurrence ∨ c = .taskMove) :
    (f.during c).message ≠ "task title is required" := by
  intro h
  have hhead := congrArg (fun s => s.toList.head?) h
  simp only [Failure.message_during, String.toList_append] at hhead
  rcases hc with rfl | rfl | rfl <;> cases hhead

theorem exists_untitled_iff :
    (∃ f, t.check today = .error f ∧ f.message = "task title is required") ↔ allBlank t.title = true := by
  constructor
  · intro h
    obtain ⟨f, hf, hmessage⟩ := h
    cases check_eq_iff.mp hf with
    | untitled title => exact title
    | undated => exact absurd hmessage (message_during_ne (Or.inl rfl))
    | unruled => exact absurd hmessage (message_during_ne (Or.inr (Or.inl rfl)))
    | stuck => exact absurd hmessage (message_during_ne (Or.inr (Or.inr rfl)))
  · intro h
    exact ⟨_, check_eq_iff.mpr (.untitled h), rfl⟩

theorem exists_invalid_iff : (∃ f, t.check today = .error f ∧ f.isFault = false) ↔ allBlank t.title = true ∨
    (t.date ≠ "" ∧ ∀ d, Date.parse t.date ≠ .ok d) ∨
      allBlank t.recurrence = false ∧ ∀ r, Rule.parse t.recurrence ≠ .ok r := by
  constructor
  · intro h
    obtain ⟨f, hf, hfault⟩ := h
    cases check_eq_iff.mp hf with
    | untitled title => exact Or.inl title
    | undated _ missing date =>
      refine Or.inr (Or.inl ⟨missing, fun d hd => ?_⟩)
      cases date.symm.trans hd
    | unruled _ _ again recurrence =>
      refine Or.inr (Or.inr ⟨again, fun r hr => ?_⟩)
      cases recurrence.symm.trans hr
    | stuck => cases hfault
  · intro h
    by_cases htitle : allBlank t.title = true
    · exact ⟨_, check_eq_iff.mpr (.untitled htitle), rfl⟩
    have htitled := Bool.eq_false_iff.mpr htitle
    -- of a date and a recurrence that are both wrong, the date is what the check fails with
    by_cases hdate : t.date = "" ∨ ∃ d, Date.parse t.date = .ok d
    · have hrule : allBlank t.recurrence = false ∧ ∀ r, Rule.parse t.recurrence ≠ .ok r := by
        refine (h.resolve_left htitle).resolve_left fun hbad => ?_
        obtain ⟨d, hd⟩ := hdate.resolve_left hbad.1
        exact hbad.2 d hd
      obtain ⟨e, he⟩ := exists_error_iff.mpr (not_exists.mpr hrule.2)
      exact ⟨_, check_eq_iff.mpr (.unruled htitled hdate hrule.1 he), rfl⟩
    · obtain ⟨hmissing, hread⟩ := not_or.mp hdate
      obtain ⟨e, he⟩ := exists_error_iff.mpr hread
      exact ⟨_, check_eq_iff.mpr (.undated htitled hmissing he), rfl⟩

/-- A check fails with the message about the title just when the title is blank, and with anything that is wrong with the
task just when the title is blank, or there is a date and it cannot be read, or there is a recurrence and it is not that
of a rule. Only a date of no characters is left out; blanks are a date that cannot be read. All that a check can come to
are the cases of `Checked`, the first one wrong first, and it keeps all but the date. -/
theorem check_goes_by_texts (t : Task) (today : Date) :
    ((∃ f, t.check today = .error f ∧ f.message = "task title is required") ↔ allBlank t.title = true) ∧
      ((∃ f, t.check today = .error f ∧ f.isFault = false) ↔ allBlank t.title = true ∨
        (t.date ≠ "" ∧ ∀ d, Date.parse t.date ≠ .ok d) ∨
          allBlank t.recurrence = false ∧ ∀ r, Rule.parse t.recurrence ≠ .ok r) ∧
      (∀ result, t.check today = result ↔ t.Checked today result) ∧
      ∀ u, t.check today = .ok u → ∀ f, f ≠ Field.date → u.get f = t.get f := by
  refine ⟨exists_untitled_iff, exists_invalid_iff, fun result => check_eq_iff, ?_⟩
  intro u h f hf
  obtain ⟨-, -, -, d, -, -, -, rfl⟩ := exists_of_check h
  exact get_withDate hf t d.compact

/-- A date that is a space is refused, although a title or a recurrence that is one counts as none. -/
theorem blank_date_is_refused :
    let t : Task := ⟨"1", " ", "water plants", "", " "⟩
    (allBlank t.date = true ∧ allBlank t.title = false ∧ allBlank t.recurrence = true) ∧
      t.check ⟨2024, 1, 26, by decide, by decide, by decide⟩ =
        .error ((Failure.ofEngine (.spec (.date " " .form))).during .taskDate) := by
  decide +kernel

/-- What a task has that is in order as of today: a title, a date from today on, and a rule or none. -/
structure InOrder (t : Task) (today : Date) : Prop where
  title : allBlank t.title = false
  date : ∃ d, Date.parse t.date = .ok d ∧ today ≤ d
  recurrence : allBlank t.recurrence = true ∨ ∃ r, Rule.parse t.recurrence = .ok r

/-- A task in order is kept as it is: its date is due, and is written as it was read. -/
theorem InOrder.check_eq (h : t.InOrder today) : t.check today = .ok t := by
  obtain ⟨d, hd, hle⟩ := h.date
  exact check_eq_iff.mpr (.settled h.title h.recurrence (.kept hd hle))

theorem inOrder_of_check (h : t.check today = .ok u) (hy : 0 ≤ today.year) : u.InOrder today := by
  have hsound := isSound_of_check h hy
  exact ⟨hsound.title, exists_date_of_check h hy, exists_recurrenceOf_iff.mp hsound.recurrence⟩

/-- A check lets pass what it has let pass before, as it is. The tasks that it leaves as they are are those that it can
come to, and they are the ones in order, whether or not their rule falls on their date. -/
theorem check_settles_tasks (today : Date) (hyear : 0 ≤ today.year) :
    (∀ t u : Task, t.check today = .ok u → u.check today = .ok u) ∧
      (∀ u : Task, u.check today = .ok u ↔ u.InOrder today) ∧
      ∀ u : Task, (∃ t : Task, t.check today = .ok u) ↔ u.check today = .ok u := by
  have hfixed (t u : Task) (h : t.check today = .ok u) : u.check today = .ok u := (inOrder_of_check h hyear).check_eq
  refine ⟨hfixed, fun u => ?_, fun u => ?_⟩
  · exact ⟨fun h => inOrder_of_check h hyear, InOrder.check_eq⟩
  · constructor
    · intro h
      obtain ⟨t, ht⟩ := h
      exact hfixed t u ht
    · intro h
      exact ⟨u, h⟩

/-- A task stored on a leap day with a yearly rule, moved by a check to the last day of February, which the next check
keeps. -/
theorem check_settles_leap_day :
    let today : Date := ⟨2025, 1, 1, by decide, by decide, by decide⟩
    0 ≤ today.year ∧ (⟨"1", "20240229", "renew", "", " y"⟩ : Task).check today = .ok ⟨"1", "20250228", "renew", "", " y"⟩ ∧
      (⟨"1", "20250228", "renew", "", " y"⟩ : Task).check today = .ok ⟨"1", "20250228", "renew", "", " y"⟩ := by
  intro today
  have hyear : 0 ≤ today.year := by decide
  have hcheck : (⟨"1", "20240229", "renew", "", " y"⟩ : Task).check today =
      .ok ⟨"1", "20250228", "renew", "", " y"⟩ := by decide +kernel
  exact ⟨hyear, hcheck, (check_settles_tasks today hyear).1 _ _ hcheck⟩

end Task

end Agenda
