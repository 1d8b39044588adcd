import Agenda.Recurrence.Rule
import Agenda.Proofs.Calendar.DayNumber
import Agenda.Proofs.Calendar.Month
/-!
The occurrences of a rule, said without a search: which dates a rule falls on for a task stored at a given date, and
which of them are still to come.
-/
namespace Agenda

/-- Whether a date is on one of the days of a month that is covered; without a list of months every month is. -/
def Date.FallsOn (d : Date) (days : List Int) (months : Option (List Int)) : Prop :=
  (∀ ms ∈ months, (d.month : Int) ∈ ms) ∧ ∃ v ∈ days, d.IsDay v

namespace Rule

/-- Whether a rule falls on a date, for a task stored at `stored`. -/
def OccursOn (stored d : Date) : Rule → Prop
  | daily interval => ∃ k : Int, 1 ≤ k ∧ d.dayNumber = stored.dayNumber + k * interval
  | yearly => ∃ k : Int, 1 ≤ k ∧ stored.IsAnniversary k d
  | weekly days => d.weekday ∈ days
  | monthly days months => d.FallsOn days months

/-- The occurrences after both dates. -/
def upcoming (r : Rule) (now stored : Date) : Set Date :=
  {d | now < d ∧ stored < d ∧ r.OccursOn stored d}

theorem mem_upcoming {r : Rule} {now stored d : Date} :
    d ∈ r.upcoming now stored ↔ now < d ∧ stored < d ∧ r.OccursOn stored d :=
  Iff.rfl

/-- Only the later of the two dates matters for what comes after both. -/
theorem mem_upcoming_iff_latest {r : Rule} {now stored d : Date} :
    d ∈ r.upcoming now stored ↔ now.latest stored < d ∧ r.OccursOn stored d := by
  rw [mem_upcoming, Date.latest_lt_iff, and_assoc]

theorem mem_upcoming_iff_le_last {r : Rule} {now stored d : Date} :
    d ∈ r.upcoming now stored ↔ now < d ∧ stored < d ∧ d ≤ Date.last ∧ r.OccursOn stored d := by
  rw [mem_upcoming, and_iff_right d.le_last]

end Rule

end Agenda
