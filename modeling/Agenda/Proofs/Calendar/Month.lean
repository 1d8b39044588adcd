import Agenda.Calendar.Month
import Agenda.Proofs.Calendar.Order
/-!
Months in a row. `Month.index` counts them, dates follow the order of their months, and a possibly negative day of a
month exists when the month is long enough to count that far.
-/
namespace Agenda

namespace Month

theorem ext_parts {a b : Month} (hy : a.year = b.year) (hn : a.number = b.number) : a = b := by
  cases a
  cases b
  cases hy
  cases hn
  rfl

/-- The position of a month in the row of months. -/
def index (m : Month) : Int :=
  12 * m.year + m.number

theorem index_bounds (m : Month) : -119987 ≤ m.index ∧ m.index ≤ 120000 := by
  have hy := m.year_mem
  have hn := m.number_mem
  unfold index
  omega

theorem index_inj {a b : Month} : a.index = b.index ↔ a = b := by
  constructor
  · intro h
    have ha := a.number_mem
    have hb := b.number_mem
    unfold index at h
    exact ext_parts (by omega) (by omega)
  · rintro rfl
    rfl

theorem index_of_next? {m m' : Month} (h : m.next? = some m') : m'.index = m.index + 1 := by
  have hn := m.number_mem
  unfold next? at h
  split at h
  · cases h
    simp only [index]
    omega
  · split at h
    · cases h
      simp only [index]
      omega
    · cases h

theorem index_of_next?_none {m : Month} (h : m.next? = none) : m.index = 120000 := by
  have hn := m.number_mem
  have hy := m.year_mem
  unfold next? at h
  split at h
  · cases h
  · split at h
    · cases h
    · unfold index
      omega

end Month

namespace Date

def monthIndex (d : Date) : Int :=
  (Month.ofDate d).index

theorem monthIndex_eq (d : Date) : d.monthIndex = 12 * d.year + d.month :=
  rfl

theorem monthIndex_bounds (d : Date) : -119987 ≤ d.monthIndex ∧ d.monthIndex ≤ 120000 :=
  (Month.ofDate d).index_bounds

theorem lt_of_monthIndex_lt {a b : Date} (h : a.monthIndex < b.monthIndex) : a < b := by
  have ha := a.month_mem
  have hb := b.month_mem
  rw [monthIndex_eq, monthIndex_eq] at h
  rw [lt_def]
  omega

theorem monthIndex_le_of_lt {a b : Date} (h : a < b) : a.monthIndex ≤ b.monthIndex := by
  by_contra hc
  exact lt_asymm h (lt_of_monthIndex_lt (not_le.mp hc))

/-- Whether a date is on a given day of its month, counted from the end of the month when negative. -/
def IsDay (d : Date) (v : Int) : Prop :=
  1 ≤ v ∧ (d.day : Int) = v ∨ v < 0 ∧ (d.day : Int) = monthLength d.year d.month + 1 + v

instance (d : Date) (v : Int) : Decidable (d.IsDay v) :=
  inferInstanceAs (Decidable (_ ∨ _))

end Date

namespace Month

variable {m : Month} {d : Date} {v : Int}

theorem isDay_iff (hd : ofDate d = m) :
    d.IsDay v ↔ (d.day : Int) = if v < 0 then (m.length : Int) + 1 + v else v := by
  subst hd
  have hm := d.day_mem
  have hl : (ofDate d).length = monthLength d.year d.month := rfl
  unfold Date.IsDay
  split <;> omega

theorem resolve?_eq_some_iff : m.resolve? v = some d ↔ ofDate d = m ∧ d.IsDay v := by
  unfold resolve?
  dsimp only
  constructor
  · intro h
    by_cases hr : 1 ≤ (if v < 0 then (m.length : Int) + 1 + v else v) ∧
        (if v < 0 then (m.length : Int) + 1 + v else v) ≤ m.length
    · rw [dif_pos hr] at h
      cases h
      exact ⟨rfl, (isDay_iff rfl).mpr (Int.toNat_of_nonneg (by omega))⟩
    · rw [dif_neg hr] at h
      cases h
  · intro hx
    obtain ⟨hd, h⟩ := hx
    have hm := d.day_mem
    have hw := (isDay_iff hd).mp h
    subst hd
    have hl : (ofDate d).length = monthLength d.year d.month := rfl
    rw [dif_pos (by omega)]
    exact congrArg some (Date.ext_parts rfl rfl (by simp only [← hw, Int.toNat_natCast]))

/-- A month has a day exactly when it is long enough for it. -/
theorem exists_isDay_iff : (∃ d, ofDate d = m ∧ d.IsDay v) ↔ v ≠ 0 ∧ (v.natAbs : Int) ≤ m.length := by
  constructor
  · intro hx
    obtain ⟨d, rfl, h⟩ := hx
    have hd := d.day_mem
    simp only [Date.IsDay] at h
    have hl : (ofDate d).length = monthLength d.year d.month := rfl
    omega
  · intro h
    obtain ⟨hv, hl⟩ := h
    have h : ∃ d, m.resolve? v = some d := by
      unfold resolve?
      dsimp only
      rw [dif_pos (by split <;> omega)]
      exact ⟨_, rfl⟩
    obtain ⟨d, hd⟩ := h
    exact ⟨d, resolve?_eq_some_iff.mp hd⟩

-- twenty-nine days from the end, February begins in leap years only
example : (⟨2024, 2, 1, by decide, by decide, by decide⟩ : Date).IsDay (-29) ∧
    ¬ (⟨2023, 2, 1, by decide, by decide, by decide⟩ : Date).IsDay (-29) := by decide

end Month

end Agenda
