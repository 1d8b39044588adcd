import Agenda.Calendar.Limit
import Agenda.Proofs.Calendar.Order
/-!
Years. February is longest in leap years, and any eight years in a row hold one. The anniversaries of a date keep its
month and its day, as far as the month is long enough, and there is one in each year of the range; only those of a
February 29 change their day.
-/
namespace Agenda

theorem isLeap_iff (y : Int) : isLeap y = true ↔ y % 4 = 0 ∧ (y % 100 ≠ 0 ∨ y % 400 = 0) := by
  simp only [isLeap, Bool.and_eq_true, Bool.or_eq_true, beq_iff_eq, bne_iff_ne]

/-- The year after a leap year is common. -/
theorem not_isLeap_succ {year : Int} (h : isLeap year = true) : ¬ isLeap (year + 1) = true := by
  rw [isLeap_iff] at h ⊢
  omega

/-- Leap years are at most eight years apart. -/
theorem exists_leap (y : Int) : ∃ k, (0 ≤ k ∧ k ≤ 7) ∧ isLeap (y + k) = true := by
  obtain ⟨j, hj, hz⟩ : ∃ j, (0 ≤ j ∧ j ≤ 3) ∧ (y + j) % 4 = 0 := ⟨(-y) % 4, by omega, by omega⟩
  by_cases h : (y + j) % 100 ≠ 0
  · exact ⟨j, by omega, (isLeap_iff _).mpr ⟨hz, Or.inl h⟩⟩
  · exact ⟨j + 4, by omega, (isLeap_iff _).mpr ⟨by omega, Or.inl (by omega)⟩⟩

/-- The greatest number of days that a month has in any year. -/
def longestLength (month : Int) : Int :=
  if month = 2 then 29 else if month = 4 ∨ month = 6 ∨ month = 9 ∨ month = 11 then 30 else 31

theorem monthLength_le_longest (year : Int) (month : Nat) : (monthLength year month : Int) ≤ longestLength month := by
  unfold monthLength longestLength
  split_ifs <;> omega

theorem monthLength_of_leap {year : Int} (month : Nat) (h : isLeap year = true) :
    (monthLength year month : Int) = longestLength month := by
  simp only [monthLength, longestLength, h]
  split_ifs <;> omega

theorem monthLength_february (year : Int) : monthLength year 2 = if isLeap year then 29 else 28 :=
  rfl

namespace Date

variable {d e e' : Date} {k : Int}

/-- Whether a date lies `k` years after another one: in the same month, on the same day or on the last one of a month
too short for it. -/
def IsAnniversary (d : Date) (k : Int) (e : Date) : Prop :=
  e.year = d.year + k ∧ e.month = d.month ∧ e.day = min d.day (monthLength e.year e.month)

instance (d : Date) (k : Int) (e : Date) : Decidable (d.IsAnniversary k e) :=
  inferInstanceAs (Decidable (_ ∧ _))

theorem plusYears_eq_ok_iff : d.plusYears k = .ok e ↔ d.IsAnniversary k e := by
  have hd := d.year_mem
  have he := e.year_mem
  unfold plusYears
  constructor
  · intro h
    split at h
    · cases h
    · split at h
      · cases h
        exact ⟨rfl, rfl, rfl⟩
      · cases h
  · intro h
    obtain ⟨hy, hm, hday⟩ := h
    rw [if_neg (by simp only [Limit.maxSpanYears]; omega), dif_pos (by omega)]
    refine congrArg Except.ok (ext_parts hy.symm hm.symm ?_)
    rw [hday, hy, hm]

theorem IsAnniversary.unique (h : d.IsAnniversary k e) (h' : d.IsAnniversary k e') : e = e' :=
  Except.ok.inj ((plusYears_eq_ok_iff.mpr h).symm.trans (plusYears_eq_ok_iff.mpr h'))

theorem exists_isAnniversary_iff : (∃ e, d.IsAnniversary k e) ↔ -9999 ≤ d.year + k ∧ d.year + k ≤ 9999 := by
  constructor
  · intro hx
    obtain ⟨e, h⟩ := hx
    rw [← h.1]
    exact e.year_mem
  · intro h
    have hk : ∃ e, d.plusYears k = .ok e := by
      have hd := d.year_mem
      unfold plusYears
      rw [if_neg (by simp only [Limit.maxSpanYears]; omega), dif_pos h]
      exact ⟨_, rfl⟩
    obtain ⟨e, he⟩ := hk
    exact ⟨e, plusYears_eq_ok_iff.mp he⟩

example : (⟨2024, 2, 29, by decide, by decide, by decide⟩ : Date).IsAnniversary 1
    ⟨2025, 2, 28, by decide, by decide, by decide⟩ := by decide

theorem IsAnniversary.lt (h : d.IsAnniversary k e) (hk : 1 ≤ k) : d < e := by
  rw [lt_def]
  have hy := h.1
  omega

def IsLeapDay (d : Date) : Prop :=
  d.month = 2 ∧ d.day = 29

instance (d : Date) : Decidable d.IsLeapDay :=
  inferInstanceAs (Decidable (_ ∧ _))

theorem isLeapDay_iff (hm : d.month = 2) (hd : d.day = monthLength d.year 2) :
    d.IsLeapDay ↔ isLeap d.year = true := by
  rw [Date.IsLeapDay, hd, monthLength_february]
  split <;> simp_all

/-- Every year has every date but February 29. -/
theorem day_le_monthLength (hd : ¬ d.IsLeapDay) (year : Int) : d.day ≤ monthLength year d.month := by
  have hday := d.day_mem
  by_cases h2 : d.month = 2
  · have hne : d.day ≠ 29 := fun hc => hd ⟨h2, hc⟩
    have hlo := monthLength_bounds year d.month
    rw [h2, monthLength_february] at hday
    split at hday <;> omega
  · have hsame : monthLength year d.month = monthLength d.year d.month := by
      unfold monthLength
      rw [if_neg h2, if_neg h2]
    omega

/-- Anniversaries of a date other than February 29 fall on its own day. -/
theorem IsAnniversary.day_eq {d e : Date} {k : Int} (h : d.IsAnniversary k e) (hd : ¬ d.IsLeapDay) :
    e.day = d.day := by
  obtain ⟨-, hm, he⟩ := h
  rw [he, hm]
  exact min_eq_left (day_le_monthLength hd e.year)

theorem IsLeapDay.isLeap (h : d.IsLeapDay) : isLeap d.year = true := by
  have hday := d.day_mem
  by_contra hc
  rw [h.1, h.2, monthLength_february, if_neg hc] at hday
  omega

/-- A day of February that every year has, or the last one. -/
theorem exists_february (year : Int) (day : Nat) (hy : -9999 ≤ year ∧ year ≤ 9999)
    (hd : day = 28 ∨ day = monthLength year 2) : ∃ d : Date, d.year = year ∧ d.month = 2 ∧ d.day = day := by
  have hb := monthLength_bounds year 2
  exact ⟨⟨year, 2, day, hy, by decide, by omega⟩, rfl, rfl, rfl⟩

end Date

end Agenda
