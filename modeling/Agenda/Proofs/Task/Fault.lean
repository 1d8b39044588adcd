import Agenda.Proofs.Recurrence.Grammar
import Agenda.Proofs.Task.Schedule
/-!
Where a fault of the engine can come from. A date and a rule that are both well formed lead to a fault when the rule has
no occurrence left, and in no other way; texts that are not well formed are refused as such. Completing a task asks the
engine for at most one occurrence.
-/
namespace Agenda

open Text

variable {now today d : Date} {stored text : String} {r : Rule} {fault : Fault} {t : Task}

/-- A fault is that of the search from a date that was read with a rule that was read. -/
theorem dateAfter_eq_fault_iff : dateAfter now stored text = .error (.fault fault) ↔
    ∃ d r, (Date.parse stored = .ok d ∧ Rule.parse text = .ok r) ∧ r.next now d = .error fault := by
  constructor
  · intro h
    rcases bind_eq_error_iff.mp h with hdate | ⟨d, hd, h⟩
    · obtain ⟨e, -, he⟩ := mapError_eq_error_iff.mp hdate
      cases he
    rcases bind_eq_error_iff.mp h with hrule | ⟨r, hr, h⟩
    · obtain ⟨e, -, he⟩ := mapError_eq_error_iff.mp hrule
      cases he
    rcases bind_eq_error_iff.mp h with hnext | ⟨e, -, he⟩
    · obtain ⟨fault', hfault, he⟩ := mapError_eq_error_iff.mp hnext
      cases he
      exact ⟨d, r, ⟨mapError_eq_ok_iff.mp hd, mapError_eq_ok_iff.mp hr⟩, hfault⟩
    · cases he
  · rintro ⟨d, r, ⟨hd, hr⟩, hnext⟩
    rw [dateAfter_of_parse hd hr, hnext]
    rfl

/-- What is refused as a specification is what one of the texts was not read for. -/
theorem exists_dateAfter_spec_iff : (∃ e, dateAfter now stored text = .error (.spec e)) ↔
    ¬ ((∃ d, Date.parse stored = .ok d) ∧ ∃ r, Rule.parse text = .ok r) := by
  constructor
  · rintro ⟨e, he⟩ ⟨⟨d, hd⟩, ⟨r, hr⟩⟩
    rw [dateAfter_of_parse hd hr] at he
    cases hnext : r.next now d with
    | ok next =>
      rw [hnext] at he
      cases he
    | error fault =>
      rw [hnext] at he
      cases he
  · intro h
    rw [dateAfter]
    cases hd : Date.parse stored with
    | error e => exact ⟨e, rfl⟩
    | ok d =>
      cases hr : Rule.parse text with
      | error e => exact ⟨e, rfl⟩
      | ok r => exact absurd ⟨⟨d, hd⟩, ⟨r, hr⟩⟩ h

/-- The same in terms of the languages of dates and rules: a specification is refused just when one of the texts is not
in its language, and all other errors are faults. -/
theorem dateAfter_error_spec (now : Date) (stored text : String) :
    ((∃ e, dateAfter now stored text = .error (.spec e)) ↔
      ¬ ((∃ d : Date, 0 ≤ d.year ∧ d.compact = stored) ∧ ∃ r, Rule.Denotes text r)) ∧
    ∀ fault, dateAfter now stored text = .error (.fault fault) ↔
      ∃ (d : Date) (r : Rule), (0 ≤ d.year ∧ d.compact = stored) ∧ Rule.Denotes text r ∧ r.next now d = .error fault := by
  constructor
  · rw [exists_dateAfter_spec_iff]
    simp only [Date.parse_eq_ok_iff, Rule.parse_eq_ok_iff]
  · intro fault
    rw [dateAfter_eq_fault_iff]
    simp only [Date.parse_eq_ok_iff, Rule.parse_eq_ok_iff, and_assoc]

namespace Task

/-- Completing a task ends in a fault when its date and its rule are well formed and the rule has no occurrence left. -/
theorem complete_eq_fault_iff : t.complete today = .error (.fault fault) ↔
    ∃ d r, (Date.parse t.date = .ok d ∧ Rule.parse t.recurrence = .ok r) ∧ r.next today d = .error fault := by
  constructor
  · intro h
    rcases bind_eq_error_iff.mp h with hrule | ⟨rule, hrule, h⟩
    · obtain ⟨e, -, he⟩ := mapError_eq_error_iff.mp hrule
      cases he
    cases rule with
    | none => cases h
    | some r =>
      rcases bind_eq_error_iff.mp h with hdate | ⟨date, -, he⟩
      · exact dateAfter_eq_fault_iff.mp hdate
      · cases he
  · rintro ⟨d, r, ⟨hd, hr⟩, hnext⟩
    rw [complete_of_parse hd (Rule.allBlank_of_parse hr) hr, hnext]
    rfl

end Task

end Agenda
