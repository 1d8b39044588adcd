import Agenda.Recurrence.Occurrence
import Agenda.Proofs.Calendar.Order
/-!
Moving a task on one occurrence at a time. `Rule.stepped` is the row of dates that it goes through; the first of them
past a date is unique, and a row that fails stays failed. A row can be taken apart at its first step.
-/
namespace Agenda

namespace Rule

variable {r : Rule} {now stored d e : Date} {i j : Nat} {f : Fault}

/-- The dates that a task stored at `stored` goes through when it is moved on to its next occurrence again and again. -/
def stepped (r : Rule) (stored : Date) : Nat → Except Fault Date
  | 0 => .ok stored
  | i + 1 => do
    let d ← r.stepped stored i
    r.next d d

/-- Whether the `i`th step is the first one to lead past `now`, and leads to `d`. -/
def PassesAt (r : Rule) (now stored : Date) (i : Nat) (d : Date) : Prop :=
  1 ≤ i ∧ r.stepped stored i = .ok d ∧ now < d ∧
    ∀ j e, 1 ≤ j → j < i → r.stepped stored j = .ok e → e ≤ now

/-- Whether a step fails before any has led past `now`. -/
def FailsBefore (r : Rule) (now stored : Date) : Prop :=
  ∃ i, (∃ f, r.stepped stored i = .error f) ∧
    ∀ j e, 1 ≤ j → j < i → r.stepped stored j = .ok e → e ≤ now

theorem stepped_of_next (h : r.next stored stored = .ok e) (i : Nat) :
    r.stepped stored (i + 1) = r.stepped e i := by
  induction i with
  | zero => exact h
  | succ i ih => rw [stepped, ih, stepped]

theorem stepped_error_of_le (h : r.stepped stored i = .error f) (hij : i ≤ j) : r.stepped stored j = .error f := by
  induction j, hij using Nat.le_induction with
  | base => exact h
  | succ j _ ih =>
    rw [stepped, ih]
    rfl

theorem PassesAt.unique (h : r.PassesAt now stored i d) (h' : r.PassesAt now stored j e) : d = e := by
  obtain ⟨hi, hd, hlt, hbefore⟩ := h
  obtain ⟨hj, he, hlt', hbefore'⟩ := h'
  rcases lt_trichotomy i j with hij | rfl | hij
  · exact absurd hlt (not_lt.mpr (hbefore' i d hi hij hd))
  · exact Except.ok.inj (hd.symm.trans he)
  · exact absurd hlt' (not_lt.mpr (hbefore j e hj hij he))

theorem PassesAt.not_failsBefore (h : r.PassesAt now stored i d) : ¬ r.FailsBefore now stored := by
  intro hf
  obtain ⟨hi, hd, hlt, -⟩ := h
  obtain ⟨j, ⟨f, hj⟩, hbefore⟩ := hf
  rcases lt_or_ge i j with hij | hij
  · exact absurd hlt (not_lt.mpr (hbefore i d hi hij hd))
  · cases hd.symm.trans (stepped_error_of_le hj hij)

theorem passesAt_one (h : r.next stored stored = .ok d) (hlt : now < d) : r.PassesAt now stored 1 d :=
  ⟨le_rfl, h, hlt, fun _ _ _ _ _ => by omega⟩

/-- What comes before the first step past `now` is unchanged by a step that stays behind. -/
theorem before_succ (h : r.next stored stored = .ok e) (hle : e ≤ now)
    (hb : ∀ j x, 1 ≤ j → j < i → r.stepped e j = .ok x → x ≤ now) :
    ∀ j x, 1 ≤ j → j < i + 1 → r.stepped stored j = .ok x → x ≤ now := by
  intro j x hj hji hx
  obtain ⟨j, rfl⟩ := Nat.exists_eq_add_of_le' hj
  rw [stepped_of_next h] at hx
  cases j with
  | zero =>
    cases hx
    exact hle
  | succ j => exact hb (j + 1) x (by omega) (by omega) hx

theorem PassesAt.succ (h : r.next stored stored = .ok e) (hle : e ≤ now) (hp : r.PassesAt now e i d) :
    r.PassesAt now stored (i + 1) d := by
  obtain ⟨-, hd, hlt, hbefore⟩ := hp
  refine ⟨by omega, ?_, hlt, before_succ h hle hbefore⟩
  rw [stepped_of_next h]
  exact hd

theorem FailsBefore.succ (h : r.next stored stored = .ok e) (hle : e ≤ now) (hf : r.FailsBefore now e) :
    r.FailsBefore now stored := by
  obtain ⟨i, ⟨f, hi⟩, hbefore⟩ := hf
  refine ⟨i + 1, ⟨f, ?_⟩, before_succ h hle hbefore⟩
  rw [stepped_of_next h]
  exact hi

theorem failsBefore_one (h : r.next stored stored = .error f) : r.FailsBefore now stored :=
  ⟨1, ⟨f, h⟩, fun _ _ _ _ _ => by omega⟩

end Rule

end Agenda
