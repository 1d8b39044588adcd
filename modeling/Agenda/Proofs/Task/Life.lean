import Agenda.Proofs.Task.Schedule
/-!
Tasks through any number of checks and completions, on days that may come in any order. From the first check that lets a
task through, it stays a sound one, and only its date changes.
-/
namespace Agenda

open Text

/-- What is done with a task, on some day. -/
inductive Call
  | check (today : Date)
  | complete (today : Date)
  deriving DecidableEq

def Call.today : Call → Date
  | check today => today
  | complete today => today

namespace Task

variable {t u : Task} {today d : Date} {calls : List Call}

/-- The task after a call. A call that fails, or that ends the task, leaves it as it is. -/
def after (t : Task) : Call → Task
  | .check today =>
    match t.check today with
    | .ok u => u
    | .error _ => t
  | .complete today =>
    match t.complete today with
    | .ok (.rescheduled u) => u
    | _ => t

def life (t : Task) (calls : List Call) : Task :=
  calls.foldl after t

theorem life_append (t : Task) (before later : List Call) : t.life (before ++ later) = (t.life before).life later :=
  List.foldl_append

theorem after_of_check (h : t.check today = .ok u) : t.after (.check today) = u := by
  rw [after, h]

theorem after_of_complete (h : t.complete today = .ok (.rescheduled u)) : t.after (.complete today) = u := by
  rw [after, h]

/-- A call keeps all but the date, and so do any number of them. -/
theorem get_after {f : Field} (hf : f ≠ .date) (t : Task) (call : Call) : (t.after call).get f = t.get f := by
  cases call with
  | check today =>
    cases hc : t.check today with
    | ok u =>
      obtain ⟨-, -, -, d, -, -, -, rfl⟩ := exists_of_check hc
      rw [after_of_check hc]
      exact get_withDate hf t d.compact
    | error e => rw [after, hc]
  | complete today =>
    cases hc : t.complete today with
    | ok completion =>
      cases completion with
      | removed => rw [after, hc]
      | rescheduled u =>
        obtain ⟨text, -, rfl⟩ := exists_of_complete hc
        rw [after_of_complete hc]
        exact get_withDate hf t text
    | error e => rw [after, hc]

theorem get_life {f : Field} (hf : f ≠ .date) (t : Task) (calls : List Call) : (t.life calls).get f = t.get f := by
  induction calls generalizing t with
  | nil => rfl
  | cons call calls ih => exact (ih (t.after call)).trans (get_after hf t call)

namespace IsSound

/-- A check of a sound task moves its date, or there is a fault. -/
theorem check_cases (h : t.IsSound) (today : Date) : ∃ d, Date.parse t.date = .ok d ∧
    ((∃ e, t.check today = .ok (t.withDate e.compact) ∧ d ≤ e ∧ today ≤ e) ∨
      ∃ f, t.check today = .error ((Failure.ofEngine (.fault f)).during .taskMove)) := by
  obtain ⟨d, hd⟩ := h.date
  obtain ⟨rule, hrule⟩ := h.recurrence
  refine ⟨d, hd, ?_⟩
  rw [check_of_parse h.title hd hrule]
  cases hm : moved today d rule with
  | ok e => exact Or.inl ⟨e, rfl, le_of_moved hm⟩
  | error f => exact Or.inr ⟨f, rfl⟩

/-- Completing a sound task ends it if it does not recur, or moves its date, or there is a fault. -/
theorem complete_cases (h : t.IsSound) (today : Date) : ∃ d, Date.parse t.date = .ok d ∧
    (allBlank t.recurrence = true ∧ t.complete today = .ok .removed ∨ allBlank t.recurrence = false ∧
      ((∃ e, t.complete today = .ok (.rescheduled (t.withDate e.compact)) ∧ d < e ∧ today < e) ∨
        ∃ f, t.complete today = .error (.fault f))) := by
  obtain ⟨d, hd⟩ := h.date
  obtain ⟨rule, hrule⟩ := h.recurrence
  refine ⟨d, hd, ?_⟩
  rcases recurrenceOf_eq_ok_iff.mp hrule with ⟨hblank, -⟩ | ⟨hblank, r, hr, -⟩
  · exact Or.inl ⟨hblank, complete_of_blank hblank⟩
  · refine Or.inr ⟨hblank, ?_⟩
    rw [complete_of_parse hd hblank hr]
    cases hn : r.next today d with
    | ok e =>
      obtain ⟨hnow, hstored⟩ := Rule.lt_of_next hn
      exact Or.inl ⟨e, rfl, hstored, hnow⟩
    | error f => exact Or.inr ⟨f, rfl⟩

theorem le_of_check (h : t.IsSound) (hd : Date.parse t.date = .ok d) (hy : 0 ≤ today.year)
    (hu : t.check today = .ok u) : ∃ e, Date.parse u.date = .ok e ∧ d ≤ e := by
  obtain ⟨d', hd', ⟨e, he, hle, htoday⟩ | ⟨f, hf⟩⟩ := h.check_cases today
  · obtain rfl := Except.ok.inj (hd.symm.trans hd')
    obtain rfl := Except.ok.inj (he.symm.trans hu)
    exact ⟨e, Date.parse_eq_ok_iff.mpr ⟨year_nonneg_of_le htoday hy, rfl⟩, hle⟩
  · cases hf.symm.trans hu

theorem fault_of_check {failure : Failure} (h : t.IsSound) (hf : t.check today = .error failure) :
    ∃ f, failure.cause = .engine (.fault f) := by
  obtain ⟨-, -, ⟨e, he, -⟩ | ⟨f, hf'⟩⟩ := h.check_cases today
  · cases he.symm.trans hf
  · obtain rfl := Except.error.inj (hf'.symm.trans hf)
    exact ⟨f, rfl⟩

theorem lt_of_complete (h : t.IsSound) (hd : Date.parse t.date = .ok d) (hy : 0 ≤ today.year)
    (hu : t.complete today = .ok (.rescheduled u)) : ∃ e, Date.parse u.date = .ok e ∧ d < e ∧ today < e := by
  obtain ⟨d', hd', ⟨-, hr⟩ | ⟨-, ⟨e, he, hlt, htoday⟩ | ⟨f, hf⟩⟩⟩ := h.complete_cases today
  · cases hr.symm.trans hu
  · obtain rfl := Except.ok.inj (hd.symm.trans hd')
    cases he.symm.trans hu
    exact ⟨e, Date.parse_eq_ok_iff.mpr ⟨year_nonneg_of_le htoday.le hy, rfl⟩, hlt, htoday⟩
  · cases hf.symm.trans hu

theorem fault_of_complete {error : EngineError} (h : t.IsSound) (he : t.complete today = .error error) :
    ∃ f, error = .fault f := by
  obtain ⟨-, -, ⟨-, hr⟩ | ⟨-, ⟨e, he', -⟩ | ⟨f, hf⟩⟩⟩ := h.complete_cases today
  · cases hr.symm.trans he
  · cases he'.symm.trans he
  · exact ⟨f, Except.error.inj (he.symm.trans hf)⟩

theorem after (h : t.IsSound) (call : Call) (hy : 0 ≤ call.today.year) : (t.after call).IsSound := by
  cases call with
  | check today =>
    obtain ⟨d, -, ⟨e, he, -, hle⟩ | ⟨f, hf⟩⟩ := h.check_cases today
    · rw [after_of_check he]
      exact h.withDate (year_nonneg_of_le hle hy)
    · rw [Task.after, hf]
      exact h
  | complete today =>
    obtain ⟨d, -, ⟨-, hr⟩ | ⟨-, ⟨e, he, -, hlt⟩ | ⟨f, hf⟩⟩⟩ := h.complete_cases today
    · rw [Task.after, hr]
      exact h
    · rw [after_of_complete he]
      exact h.withDate (year_nonneg_of_le hlt.le hy)
    · rw [Task.after, hf]
      exact h

/-- A sound task stays one. The induction is on the calls, whose days need not be in order. -/
theorem life (h : t.IsSound) (hy : ∀ call ∈ calls, 0 ≤ call.today.year) : (t.life calls).IsSound := by
  induction calls generalizing t with
  | nil => exact h
  | cons call calls ih =>
    have hcall := h.after call (hy call List.mem_cons_self)
    exact ih hcall fun c hc => hy c (List.mem_cons_of_mem _ hc)

end IsSound

/-- Once a check has let a task through, whatever is done with it afterwards keeps all but its date, which stays one that
can be read. A check does not move the date back, a completion moves it past where it was and past its day unless it
ends the task, as it does exactly when the task does not recur; and nothing can go wrong but a fault of the engine. -/
theorem life_once_checked (t : Task) (before later : List Call) (hcheck : (t.life before).check today = .ok u)
    (hyear : 0 ≤ today.year) (hyears : ∀ call ∈ later, 0 ≤ call.today.year) :
    let v := t.life (before ++ .check today :: later)
    (∀ f, f ≠ Field.date → v.get f = u.get f) ∧ ∃ d, Date.parse v.date = .ok d ∧ ∀ day : Date, 0 ≤ day.year →
      (∀ w, v.check day = .ok w → ∃ e, Date.parse w.date = .ok e ∧ d ≤ e) ∧
      (∀ w, v.complete day = .ok (.rescheduled w) → ∃ e, Date.parse w.date = .ok e ∧ d < e ∧ day < e) ∧
      (v.complete day = .ok .removed ↔ allBlank v.recurrence = true) ∧
      (∀ failure, v.check day = .error failure → ∃ f, failure.cause = .engine (.fault f)) ∧
      ∀ error, v.complete day = .error error → ∃ f, error = .fault f := by
  intro v
  have hv : v = u.life later := by
    change t.life (before ++ .check today :: later) = _
    rw [life_append, life, List.foldl_cons, after_of_check hcheck]
    rfl
  have hsound : v.IsSound := by
    rw [hv]
    exact (isSound_of_check hcheck hyear).life hyears
  have hkeeps (f : Field) (hf : f ≠ .date) : v.get f = u.get f := by
    rw [hv]
    exact get_life hf u later
  obtain ⟨d, hd⟩ := hsound.date
  refine ⟨hkeeps, d, hd, fun day hday => ⟨?_, ?_, complete_eq_removed_iff, ?_, ?_⟩⟩
  · exact fun w hw => hsound.le_of_check hd hday hw
  · exact fun w hw => hsound.lt_of_complete hd hday hw
  · exact fun failure hf => hsound.fault_of_check hf
  · exact fun error he => hsound.fault_of_complete he

/-- A task without a date at first, which a check gives one. A completion before that fails; those after it move the date
to the end of a month, on days that go back in time. -/
theorem life_once_checked_month_end : ∃ v : Task, v = life ⟨"1", "", "pay the rent", "", "m -1"⟩
    ([.complete .last] ++ .check ⟨2024, 2, 1, by decide, by decide, by decide⟩ ::
      [.complete ⟨2024, 3, 5, by decide, by decide, by decide⟩, .check ⟨2023, 12, 1, by decide, by decide, by decide⟩]) ∧
    v.title = "pay the rent" ∧ ∃ d, Date.parse v.date = .ok d := by
  have hfails : life ⟨"1", "", "pay the rent", "", "m -1"⟩ [.complete .last] =
      ⟨"1", "", "pay the rent", "", "m -1"⟩ := rfl
  have hcheck : (life ⟨"1", "", "pay the rent", "", "m -1"⟩ [.complete .last]).check
      ⟨2024, 2, 1, by decide, by decide, by decide⟩ =
        .ok ⟨"1", Date.compact ⟨2024, 2, 1, by decide, by decide, by decide⟩, "pay the rent", "", "m -1"⟩ := by
    rw [hfails]
    rfl
  obtain ⟨hkeeps, d, hd, -⟩ := life_once_checked _ _
    [.complete ⟨2024, 3, 5, by decide, by decide, by decide⟩, .check ⟨2023, 12, 1, by decide, by decide, by decide⟩]
    hcheck (by decide) (by decide)
  exact ⟨_, rfl, hkeeps .title (by decide), d, hd⟩

end Task

end Agenda
