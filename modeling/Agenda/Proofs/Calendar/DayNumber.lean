import Agenda.Calendar.DayNumber
import Agenda.Proofs.Calendar.Year
import Mathlib.Data.Int.Init
import Mathlib.Order.Monotone.Basic
import Mathlib.Order.WellFounded
/-!
Day numbers keep the order of dates and leave no gap: every number from that of the first date to that of the last
is the number of exactly one date, and `Date.ofDayNumber?` finds it. The following day, sums of days and week days
are then statements about integers.
-/
namespace Agenda

/-- The number of days in a year. -/
def yearLength (year : Int) : Nat :=
  if isLeap year then 366 else 365

theorem daysBeforeYear_succ (y : Int) : daysBeforeYear (y + 1) = daysBeforeYear y + yearLength y := by
  unfold daysBeforeYear yearLength
  by_cases h : isLeap y = true
  · have hleap := (isLeap_iff y).mp h
    rw [if_pos h]
    omega
  · have hcommon := mt (isLeap_iff y).mpr h
    rw [if_neg h]
    omega

theorem daysBeforeYear_le {y y' : Int} (h : y ≤ y') : daysBeforeYear y ≤ daysBeforeYear y' := by
  induction y', h using Int.leInduction with
  | base => exact le_rfl
  | succ z _ ih =>
    rw [daysBeforeYear_succ]
    omega

/-- The count stays within two days of the mean. -/
theorem daysBeforeYear_bounds (y : Int) :
    146097 * y - 396 ≤ 400 * daysBeforeYear y ∧ 400 * daysBeforeYear y ≤ 146097 * y + 699 := by
  unfold daysBeforeYear
  omega

/-- The year found by division holds the day. -/
theorem yearOfDay_spec (n : Int) :
    daysBeforeYear (yearOfDay n) ≤ n ∧ n < daysBeforeYear (yearOfDay n + 1) := by
  let y := 400 * n / 146097
  have hlo := daysBeforeYear_bounds (y - 1)
  have hhi := daysBeforeYear_bounds (y + 1 + 1)
  have hy : 146097 * y ≤ 400 * n ∧ 400 * n < 146097 * (y + 1) := by omega
  -- the quotient `y` is right, or one more or one less is
  change daysBeforeYear (if n < daysBeforeYear y then y - 1
      else if daysBeforeYear (y + 1) ≤ n then y + 1 else y) ≤ n ∧
    n < daysBeforeYear ((if n < daysBeforeYear y then y - 1
      else if daysBeforeYear (y + 1) ≤ n then y + 1 else y) + 1)
  split
  · rw [Int.sub_add_cancel]
    omega
  · split <;> omega

theorem yearOfDay_eq (n y : Int) (hlo : daysBeforeYear y ≤ n) (hhi : n < daysBeforeYear (y + 1)) :
    yearOfDay n = y := by
  have hs := yearOfDay_spec n
  rcases lt_trichotomy (yearOfDay n) y with h | h | h
  · have hle := daysBeforeYear_le (show yearOfDay n + 1 ≤ y from h)
    omega
  · exact h
  · have hle := daysBeforeYear_le (show y + 1 ≤ yearOfDay n from h)
    omega

theorem daysBeforeMonth_succ (y : Int) (m : Nat) (hm : 1 ≤ m) :
    daysBeforeMonth y (m + 1) = daysBeforeMonth y m + monthLength y m := by
  cases m with
  | zero => omega
  | succ m => rfl

theorem daysBeforeMonth_end (y : Int) : daysBeforeMonth y 12 + monthLength y 12 = yearLength y := by
  cases h : isLeap y <;> simp [daysBeforeMonth, monthLength, yearLength, h]

theorem daysBeforeMonth_lt (y : Int) (m m' : Nat) (hm : 1 ≤ m) (h : m < m') :
    daysBeforeMonth y m + monthLength y m ≤ daysBeforeMonth y m' := by
  induction m', h using Nat.le_induction with
  | base => rw [daysBeforeMonth_succ y m hm]
  | succ k hk ih =>
    rw [daysBeforeMonth_succ y k (by omega)]
    omega

/-- Taking month lengths away ends in a real day, on the same day of the year. -/
theorem monthAndDay_spec (y : Int) (m k left m' d : Nat) (hm : 1 ≤ m) (hl : m + left = 12)
    (hk : daysBeforeMonth y m + k < yearLength y) (h : monthAndDay y m k left = (m', d)) :
    (1 ≤ m' ∧ m' ≤ 12) ∧ (1 ≤ d ∧ d ≤ monthLength y m') ∧
      daysBeforeMonth y m' + d = daysBeforeMonth y m + k + 1 := by
  induction left generalizing m k with
  | zero =>
    obtain ⟨rfl, rfl⟩ := Prod.mk.inj h
    have hm' : m = 12 := by omega
    subst hm'
    have he := daysBeforeMonth_end y
    exact ⟨by omega, by omega, rfl⟩
  | succ left ih =>
    unfold monthAndDay at h
    split at h
    · obtain ⟨rfl, rfl⟩ := Prod.mk.inj h
      exact ⟨by omega, by omega, rfl⟩
    · have hs := daysBeforeMonth_succ y m hm
      obtain ⟨hm', hd, he⟩ := ih (m + 1) (k - monthLength y m) (by omega) (by omega) (by omega) h
      exact ⟨hm', hd, by omega⟩

namespace Date

variable {d e : Date} {n : Int}

theorem dayOfYear_le (d : Date) : daysBeforeMonth d.year d.month + d.day ≤ yearLength d.year := by
  have hd := d.day_mem
  have hm := d.month_mem
  have he := daysBeforeMonth_end d.year
  by_cases h : d.month = 12
  · rw [h] at hd ⊢
    omega
  · have hlt := daysBeforeMonth_lt d.year d.month 12 hm.1 (by omega)
    omega

theorem dayNumber_lt {a b : Date} (h : a < b) : a.dayNumber < b.dayNumber := by
  have ha := dayOfYear_le a
  have hda := a.day_mem
  have hdb := b.day_mem
  unfold dayNumber
  rcases lt_def.mp h with hy | ⟨hy, hm | ⟨hm, hd⟩⟩
  · have hs := daysBeforeYear_succ a.year
    have hle := daysBeforeYear_le (show a.year + 1 ≤ b.year from hy)
    omega
  · have hlt := daysBeforeMonth_lt a.year a.month b.month a.month_mem.1 hm
    rw [← hy]
    omega
  · rw [← hy, ← hm]
    omega

theorem dayNumber_lt_iff : d.dayNumber < e.dayNumber ↔ d < e := by
  have hmono : StrictMono dayNumber := fun _ _ => dayNumber_lt
  exact hmono.lt_iff_lt

theorem dayNumber_le_iff : d.dayNumber ≤ e.dayNumber ↔ d ≤ e :=
  le_iff_le_iff_lt_iff_lt.mpr dayNumber_lt_iff

theorem dayNumber_inj : d.dayNumber = e.dayNumber ↔ d = e := by
  rw [le_antisymm_iff, le_antisymm_iff, dayNumber_le_iff, dayNumber_le_iff]

theorem dayNumber_first : first.dayNumber = -4371587 := by
  decide

theorem dayNumber_last : last.dayNumber = 2932896 := by
  decide

theorem dayNumber_bounds (d : Date) : -4371587 ≤ d.dayNumber ∧ d.dayNumber ≤ 2932896 := by
  rw [← dayNumber_first, ← dayNumber_last, dayNumber_le_iff, dayNumber_le_iff]
  exact ⟨first_le d, le_last d⟩

theorem ofParts?_eq_some_iff {year : Int} {month day : Nat} :
    ofParts? year month day = some d ↔ d.year = year ∧ d.month = month ∧ d.day = day := by
  unfold ofParts?
  constructor
  · intro h
    split at h
    · cases h
      exact ⟨rfl, rfl, rfl⟩
    · cases h
  · intro h
    obtain ⟨rfl, rfl, rfl⟩ := h
    rw [dif_pos ⟨d.year_mem, d.month_mem, d.day_mem⟩]

/-- The date found in a year of the range has the number it was sought by. -/
theorem exists_ofDayNumber? (n : Int)
    (hy : -9999 ≤ yearOfDay (n + epochOffset) ∧ yearOfDay (n + epochOffset) ≤ 9999) :
    ∃ d, ofDayNumber? n = some d ∧ d.dayNumber = n := by
  have hs := yearOfDay_spec (n + epochOffset)
  unfold ofDayNumber?
  dsimp only
  generalize yearOfDay (n + epochOffset) = y at hy hs ⊢
  rw [daysBeforeYear_succ] at hs
  have hz : daysBeforeMonth y 1 = 0 := rfl
  rcases hr : monthAndDay y 1 (n + epochOffset - daysBeforeYear y).toNat 11 with ⟨m, k⟩
  obtain ⟨hm, hk, he⟩ := monthAndDay_spec y 1 _ 11 m k (by omega) (by omega) (by omega) hr
  refine ⟨_, dif_pos ⟨hy, hm, hk⟩, ?_⟩
  simp only [dayNumber]
  omega

theorem ofDayNumber?_eq_some_iff : ofDayNumber? n = some d ↔ d.dayNumber = n := by
  constructor
  · intro h
    have hy : d.year = yearOfDay (n + epochOffset) := (ofParts?_eq_some_iff.mp h).1
    obtain ⟨e, he, hn⟩ := exists_ofDayNumber? n (hy ▸ d.year_mem)
    rw [Option.some.inj (h.symm.trans he)]
    exact hn
  · rintro rfl
    have hy : yearOfDay (d.dayNumber + epochOffset) = d.year := by
      have hle := dayOfYear_le d
      have hd := d.day_mem
      apply yearOfDay_eq
      · simp only [dayNumber]
        omega
      · rw [daysBeforeYear_succ]
        simp only [dayNumber]
        omega
    obtain ⟨e, he, hn⟩ := exists_ofDayNumber? d.dayNumber (hy ▸ d.year_mem)
    rw [he, dayNumber_inj.mp hn]

/-- The numbers of the dates leave no gap. -/
theorem exists_dayNumber (h : -4371587 ≤ n ∧ n ≤ 2932896) : ∃ d : Date, d.dayNumber = n := by
  have hs := yearOfDay_spec (n + epochOffset)
  have hf : daysBeforeYear (-9999) - epochOffset = -4371587 := by decide
  have hl : daysBeforeYear 10000 - epochOffset = 2932897 := by decide
  have hy : -9999 ≤ yearOfDay (n + epochOffset) ∧ yearOfDay (n + epochOffset) ≤ 9999 := by
    by_contra hc
    rcases not_and_or.mp hc with hc | hc
    · have hle := daysBeforeYear_le (show yearOfDay (n + epochOffset) + 1 ≤ -9999 by omega)
      omega
    · have hle := daysBeforeYear_le (show 10000 ≤ yearOfDay (n + epochOffset) by omega)
      omega
  obtain ⟨d, -, hd⟩ := exists_ofDayNumber? n hy
  exact ⟨d, hd⟩

theorem dayNumber_of_next? (h : d.next? = some e) : e.dayNumber = d.dayNumber + 1 := by
  have hd := d.day_mem
  have hm := d.month_mem
  unfold next? at h
  split at h
  · cases h
    simp only [dayNumber]
    omega
  · split at h
    · cases h
      have hs := daysBeforeMonth_succ d.year d.month hm.1
      simp only [dayNumber]
      omega
    · split at h
      -- from December 31 to January 1
      · cases h
        have hm' : d.month = 12 := by omega
        have hs := daysBeforeYear_succ d.year
        have he := daysBeforeMonth_end d.year
        have hz : daysBeforeMonth (d.year + 1) 1 = 0 := rfl
        rw [← hm'] at he
        simp only [dayNumber]
        omega
      · cases h

theorem eq_last_of_next? (h : d.next? = none) : d = last := by
  have hd := d.day_mem
  have hm := d.month_mem
  have hy := d.year_mem
  unfold next? at h
  split at h
  · cases h
  · split at h
    · cases h
    · split at h
      · cases h
      · have hm' : d.month = 12 := by omega
        have hl : monthLength d.year d.month = 31 := by rw [hm']; rfl
        exact ext_parts (show d.year = 9999 by omega) hm' (show d.day = 31 by omega)

theorem next?_eq_some_iff : d.next? = some e ↔ e.dayNumber = d.dayNumber + 1 := by
  refine ⟨dayNumber_of_next?, fun h => ?_⟩
  cases hn : d.next? with
  | none =>
    have hl := dayNumber_last
    have hb := dayNumber_bounds e
    rw [← eq_last_of_next? hn] at hl
    omega
  | some e' => rw [dayNumber_inj.mp (h.trans (dayNumber_of_next? hn).symm)]

/-- Adding days adds to the number, as far as the range goes. -/
theorem plusDays_eq_ok_iff : d.plusDays n = .ok e ↔ e.dayNumber = d.dayNumber + n := by
  have hd := dayNumber_bounds d
  have he := dayNumber_bounds e
  unfold plusDays
  split
  · constructor
    · intro h
      cases h
    · intro h
      simp only [Limit.maxSpanDays] at *
      omega
  · split
    · subst n
      rw [← next?_eq_some_iff]
      cases d.next? <;> simp only [Option.elim, Except.ok.injEq, Option.some.injEq, reduceCtorEq]
    · rw [← ofDayNumber?_eq_some_iff]
      cases ofDayNumber? (d.dayNumber + n) <;> simp only [Option.elim, Except.ok.injEq, Option.some.injEq, reduceCtorEq]

/-- A sum of days exists unless it leaves the range. -/
theorem exists_plusDays_iff : (∃ e, d.plusDays n = .ok e) ↔
    -4371587 ≤ d.dayNumber + n ∧ d.dayNumber + n ≤ 2932896 := by
  constructor
  · intro hx
    obtain ⟨e, h⟩ := hx
    rw [← plusDays_eq_ok_iff.mp h]
    exact dayNumber_bounds e
  · intro h
    obtain ⟨e, he⟩ := exists_dayNumber h
    exact ⟨e, plusDays_eq_ok_iff.mpr he⟩

theorem weekday_bounds (d : Date) : 1 ≤ d.weekday ∧ d.weekday ≤ 7 := by
  unfold weekday
  omega

/-- There are no endless ascending rows of dates. -/
instance : WellFoundedGT Date := by
  refine ⟨(measure fun d : Date => (2932896 - d.dayNumber).toNat).wf.mono ?_⟩
  intro a b h
  have hlt := dayNumber_lt_iff.mpr h
  have hb := a.dayNumber_bounds
  change (2932896 - a.dayNumber).toNat < (2932896 - b.dayNumber).toNat
  omega

end Date

end Agenda
