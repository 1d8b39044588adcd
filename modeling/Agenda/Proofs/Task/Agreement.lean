import Agenda.Proofs.Task.Check
/-!
A task that recurs and whose date has passed is moved in the same way by a check and by a completion. Both come to what
the engine answers for the texts of the task, although they read these in different orders and the completion reads the
rule twice.
-/
namespace Agenda

open Text

namespace Task

variable {t u : Task} {today d next : Date} {r : Rule} {e : EngineError} {f : Failure}

/-- What the engine answers for a task on a day, once the date of the task is read. -/
def answer (t : Task) (today d : Date) : Except EngineError Date := do
  let r ← (Rule.parse t.recurrence).mapError .spec
  (r.next today d).mapError .fault

/-- What a check was doing when the engine failed it. -/
def contextOf : EngineError → Context
  | .spec _ => .taskRecurrence
  | .fault _ => .taskMove

theorem answer_of_parse (hr : Rule.parse t.recurrence = .ok r) : t.answer today d = (r.next today d).mapError .fault := by
  rw [answer, hr]
  rfl

theorem answer_of_error {e : SpecError} (hr : Rule.parse t.recurrence = .error e) : t.answer today d = .error (.spec e) := by
  rw [answer, hr]
  rfl

/-- A completion gives the answer of the engine as it is. -/
theorem complete_of_answer (hd : Date.parse t.date = .ok d) (hagain : allBlank t.recurrence = false) :
    t.complete today = (t.answer today d).map fun next => .rescheduled (t.withDate next.compact) := by
  cases hr : Rule.parse t.recurrence with
  | ok r => rw [complete_of_parse hd hagain hr, answer_of_parse hr]
  | error e =>
    rw [complete, recurrenceOf_eq_error_iff.mpr ⟨hagain, hr⟩, answer_of_error hr]
    rfl

/-- A check of a task whose date has passed gives the answer of the engine, and says what it was doing if that is an
error. -/
theorem check_of_answer (htitle : allBlank t.title = false) (hd : Date.parse t.date = .ok d) (hpassed : d < today)
    (hagain : allBlank t.recurrence = false) : t.check today =
      ((t.answer today d).mapError fun e => (Failure.ofEngine e).during (contextOf e)).map
        fun next => t.withDate next.compact := by
  cases hr : Rule.parse t.recurrence with
  | ok r =>
    rw [check_of_passed htitle hd hpassed hr, answer_of_parse hr]
    cases r.next today d with
    | ok next => rfl
    | error fault => rfl
  | error e =>
    rw [answer_of_error hr]
    exact check_eq_iff.mpr (.unruled htitle (Or.inr ⟨d, hd⟩) hagain hr)

/-- A check of a titled task that recurs and whose date has passed agrees with a completion of it on the same day. They
leave the same task or fail together, the completion with the error that the failure of the check has for its cause and
tells after what was being done; in particular the completion does not end the task. -/
theorem check_agrees_with_complete (t : Task) (today d : Date) (htitle : allBlank t.title = false)
    (hdate : Date.parse t.date = .ok d) (hpassed : d < today) (hagain : allBlank t.recurrence = false) :
    (∀ u, t.check today = .ok u ↔ t.complete today = .ok (.rescheduled u)) ∧
      (∀ f, t.check today = .error f →
        ∃ (c : Context) (e : EngineError), t.complete today = .error e ∧ f.cause = .engine e ∧ f.message = c.message ++ ": " ++ e.message) ∧
      (∀ e, t.complete today = .error e → ∃ f, t.check today = .error f ∧ f.cause = .engine e) ∧
      t.complete today ≠ .ok .removed := by
  rw [check_of_answer htitle hdate hpassed hagain, complete_of_answer hdate hagain]
  cases t.answer today d with
  | ok next =>
    refine ⟨fun u => ?_, fun f hf => ?_, fun e he => ?_, fun h => ?_⟩
    · constructor
      · intro h
        exact congrArg (fun u => Except.ok (Completion.rescheduled u)) (Except.ok.inj h)
      · intro h
        exact congrArg Except.ok (Completion.rescheduled.inj (Except.ok.inj h))
    · cases hf
    · cases he
    · cases h
  | error e =>
    refine ⟨fun u => ?_, fun f hf => ?_, fun e' he => ?_, fun h => ?_⟩
    · constructor <;>
      · intro h
        cases h
    · obtain rfl := Except.error.inj hf
      exact ⟨contextOf e, e, rfl, rfl, Failure.message_during (contextOf e) (.ofEngine e)⟩
    · obtain rfl := Except.error.inj he
      exact ⟨_, rfl, rfl⟩
    · cases h

/-- A rule that is not written in its canonical form, whose day the next month does not have. -/
theorem check_agrees_with_complete_short_month :
    let today : Date := ⟨2024, 2, 1, by decide, by decide, by decide⟩
    let t : Task := ⟨"1", "20240115", "pay the rent", "", " m 31,+031"⟩
    (allBlank t.title = false ∧ Date.parse t.date = .ok ⟨2024, 1, 15, by decide, by decide, by decide⟩) ∧
      t.check today = .ok (t.withDate "20240331") ∧ t.complete today = .ok (.rescheduled (t.withDate "20240331")) := by
  intro today t
  have htitle : allBlank t.title = false := by decide
  have hdate : Date.parse t.date = .ok ⟨2024, 1, 15, by decide, by decide, by decide⟩ := by decide +kernel
  have hcheck : t.check today = .ok (t.withDate "20240331") := by decide +kernel
  have hagree := check_agrees_with_complete t today _ htitle hdate (by decide) (by decide)
  exact ⟨⟨htitle, hdate⟩, hcheck, (hagree.1 _).mp hcheck⟩

end Task

end Agenda
