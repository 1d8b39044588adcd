import Agenda.Proofs.Recurrence.Next
import Agenda.Proofs.Recurrence.Stepping
/-!
Catching up. A task that was left alone for a while can be moved in one jump or one occurrence at a time, and both ways
lead to the same date, or both fail. This holds as long as a date that a rule has led to takes the place of the stored
one, which only a yearly rule stored on February 29 breaks.
-/
namespace Agenda

namespace Rule

variable {r : Rule} {now stored d e : Date}

/-- A date that a rule has led to takes the place of the stored one, except that a yearly rule forgets February 29. -/
theorem occursOn_step (hleap : r = yearly → ¬ stored.IsLeapDay) (hd : stored < d) (ho : r.OccursOn stored d)
    (hde : d < e) : r.OccursOn d e ↔ r.OccursOn stored e := by
  cases r with
  | daily interval =>
    obtain ⟨k, hk, hkd⟩ := ho
    have hlt := Date.dayNumber_lt_iff.mpr hd
    have hlt' := Date.dayNumber_lt_iff.mpr hde
    have hpos : 0 < interval := by
      by_contra hc
      have hmul : k * interval ≤ 0 := Int.mul_nonpos_of_nonneg_of_nonpos (by omega) (by omega)
      omega
    -- `j` intervals after `d` are `k + j` intervals after `stored`
    constructor
    · intro h
      obtain ⟨j, hj, hje⟩ := h
      exact ⟨k + j, by omega, by rw [hje, hkd, Int.add_mul]; omega⟩
    · intro h
      obtain ⟨j, hj, hje⟩ := h
      have hkj : k < j := Int.lt_of_mul_lt_mul_right (show k * interval < j * interval by omega) hpos.le
      exact ⟨j - k, by omega, by rw [hje, hkd, Int.sub_mul]; omega⟩
  | yearly =>
    obtain ⟨k, hk, hkd⟩ := ho
    have hday := hkd.day_eq (hleap rfl)
    constructor
    · intro h
      obtain ⟨j, hj, hy, hm, he⟩ := h
      refine ⟨k + j, by omega, ?_, hm.trans hkd.2.1, by rw [he, hday]⟩
      rw [hy, hkd.1]
      omega
    · intro h
      obtain ⟨j, hj, hje⟩ := h
      have hkj : k < j := by
        by_contra hc
        rcases (not_lt.mp hc).eq_or_lt with rfl | hc
        · exact absurd hde (by rw [hje.unique hkd]; exact lt_irrefl d)
        · have hy := hje.1
          have hyd := hkd.1
          exact absurd hde (lt_asymm (show e < d from Or.inl (by omega)))
      obtain ⟨hy, hm, he⟩ := hje
      refine ⟨j - k, by omega, ?_, hm.trans hkd.2.1.symm, by rw [he, hday]⟩
      rw [hy, hkd.1]
      omega
  | weekly days => exact Iff.rfl
  | monthly days months => exact Iff.rfl

theorem not_isLeapDay_of_step (hleap : r = yearly → ¬ stored.IsLeapDay) (ho : r.OccursOn stored d) :
    r = yearly → ¬ d.IsLeapDay := by
  rintro rfl hd
  obtain ⟨k, hk, hkd⟩ := ho
  apply hleap rfl
  exact ⟨hkd.2.1.symm.trans hd.1, (hkd.day_eq (hleap rfl)).symm.trans hd.2⟩

/-- A step that stays behind `now` changes nothing about what is to come after `now`. -/
theorem upcoming_step (hleap : r = yearly → ¬ stored.IsLeapDay) (h : r.next stored stored = .ok e) (hle : e ≤ now) :
    r.upcoming now e = r.upcoming now stored := by
  obtain ⟨-, hlt, ho⟩ := (next_eq_ok_iff.mp h).1
  ext x
  constructor
  · intro hx
    obtain ⟨hnow, hex, hox⟩ := hx
    exact ⟨hnow, hlt.trans hex, (occursOn_step hleap hlt ho hex).mp hox⟩
  · intro hx
    obtain ⟨hnow, -, hox⟩ := hx
    have hex := hle.trans_lt hnow
    exact ⟨hnow, hex, (occursOn_step hleap hlt ho hex).mpr hox⟩

/-- While the first step leads past `now` the jump is that step. -/
theorem next_of_lt (h : r.next stored stored = .ok e) (hnow : now < e) : r.next now stored = .ok e := by
  have hleast := next_eq_ok_iff.mp h
  obtain ⟨-, hlt, ho⟩ := hleast.1
  apply next_eq_ok_iff.mpr
  refine ⟨⟨hnow, hlt, ho⟩, ?_⟩
  intro x hx
  exact hleast.2 ⟨hx.2.1, hx.2.1, hx.2.2⟩

/-- Stepping ends: each step leaves fewer later dates. -/
theorem passes_or_fails (r : Rule) (now stored : Date) :
    (∃ i d, r.PassesAt now stored i d) ∨ r.FailsBefore now stored := by
  induction stored using WellFoundedGT.induction with
  | ind stored ih =>
    cases h : r.next stored stored with
    | error f => exact Or.inr (failsBefore_one h)
    | ok e =>
      obtain ⟨-, hlt, -⟩ := (next_eq_ok_iff.mp h).1
      by_cases hnow : now < e
      · exact Or.inl ⟨1, e, passesAt_one h hnow⟩
      · have hle := not_lt.mp hnow
        rcases ih e hlt with hp | hf
        · obtain ⟨i, d, hi⟩ := hp
          exact Or.inl ⟨i + 1, d, hi.succ h hle⟩
        · exact Or.inr (hf.succ h hle)

theorem failsBefore_iff : r.FailsBefore now stored ↔ ¬ ∃ i d, r.PassesAt now stored i d := by
  constructor
  · intro hf hp
    obtain ⟨i, d, hi⟩ := hp
    exact hi.not_failsBefore hf
  · intro hp
    exact (passes_or_fails r now stored).resolve_left hp

/-- Once stepping and the jump succeed together, they fail together. -/
theorem next_isError_iff_fails (h : (∃ d, r.next now stored = .ok d) ↔ ∃ i d, r.PassesAt now stored i d) :
    (∃ f, r.next now stored = .error f) ↔ r.FailsBefore now stored := by
  rw [exists_error_iff, h, failsBefore_iff]

/-- A first step that stays behind `now` can be left out. -/
theorem exists_passesAt_iff (h : r.next stored stored = .ok e) (hle : e ≤ now) :
    (∃ i, r.PassesAt now e i d) ↔ ∃ i, r.PassesAt now stored i d := by
  constructor
  · intro hp
    obtain ⟨i, hi⟩ := hp
    exact ⟨i + 1, hi.succ h hle⟩
  · intro hp
    obtain ⟨i, hi⟩ := hp
    rcases passes_or_fails r now e with ⟨j, x, hj⟩ | hf
    · rw [hi.unique (hj.succ h hle)]
      exact ⟨j, hj⟩
    · exact absurd (hf.succ h hle) hi.not_failsBefore

/-- The steps lead where the jump leads. The induction is on the stored date, and what is upcoming after `now` stays
the same until a step leads past `now`. -/
theorem next_eq_ok_iff_passes (hleap : r = yearly → ¬ stored.IsLeapDay) :
    r.next now stored = .ok d ↔ ∃ i, r.PassesAt now stored i d := by
  induction stored using WellFoundedGT.induction with
  | ind stored ih =>
    cases h : r.next stored stored with
    | error f =>
      have hempty := next_isError_iff.mp ⟨f, h⟩
      apply iff_of_false
      · intro hd
        obtain ⟨-, hlt, ho⟩ := (next_eq_ok_iff.mp hd).1
        exact hempty d ⟨hlt, hlt, ho⟩
      · intro hp
        obtain ⟨i, hi⟩ := hp
        exact hi.not_failsBefore (failsBefore_one h)
    | ok e =>
      obtain ⟨-, hlt, ho⟩ := (next_eq_ok_iff.mp h).1
      by_cases hnow : now < e
      · have hfirst := passesAt_one h hnow
        rw [next_of_lt h hnow]
        constructor
        · intro hd
          cases hd
          exact ⟨1, hfirst⟩
        · intro hp
          obtain ⟨i, hi⟩ := hp
          rw [hfirst.unique hi]
      · have hle := not_lt.mp hnow
        calc r.next now stored = .ok d ↔ IsLeast (r.upcoming now stored) d := next_eq_ok_iff
          _ ↔ IsLeast (r.upcoming now e) d := by rw [upcoming_step hleap h hle]
          _ ↔ r.next now e = .ok d := next_eq_ok_iff.symm
          _ ↔ ∃ i, r.PassesAt now e i d := ih e hlt (not_isLeapDay_of_step hleap ho)
          _ ↔ ∃ i, r.PassesAt now stored i d := exists_passesAt_iff h hle

theorem next_isOk_iff_passes (hleap : r = yearly → ¬ stored.IsLeapDay) :
    (∃ d, r.next now stored = .ok d) ↔ ∃ i d, r.PassesAt now stored i d := by
  rw [exists_comm]
  exact exists_congr fun d => next_eq_ok_iff_passes hleap

end Rule

end Agenda
