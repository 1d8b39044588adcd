import Agenda.Proofs.Recurrence.Outcome
/-!
The anniversaries of a date, counted by years also where they lie past the end of the calendar. A yearly rule is answered
with the first one after `now`, if the calendar has it. The search starts in the year of `now` or in the one after
`stored`, and that anniversary or the one after it is the first.
-/
namespace Agenda

namespace Date

variable {d e now stored : Date} {k : Int}

/-- The day of the month on which a date has its anniversary in a year: its own, but February 28 for a February 29 in a
common year. -/
def anniversaryDay (d : Date) (year : Int) : Nat :=
  if d.IsLeapDay ∧ ¬ isLeap year = true then 28 else d.day

/-- Whether the anniversary after `k` years, in the calendar or past its end, comes after `now`. -/
def AnniversaryAfter (d now : Date) (k : Int) : Prop :=
  now.year < d.year + k ∨ now.year = d.year + k ∧
    (now.month < d.month ∨ now.month = d.month ∧ now.day < d.anniversaryDay (d.year + k))

theorem min_day_eq (d : Date) (year : Int) : min d.day (monthLength year d.month) = d.anniversaryDay year := by
  unfold anniversaryDay
  by_cases hd : d.IsLeapDay
  · rw [hd.1, hd.2, monthLength_february]
    by_cases hy : isLeap year = true
    · rw [if_pos hy, if_neg (fun h => h.2 hy), min_self]
    · rw [if_neg hy, if_pos ⟨hd, hy⟩]
      rfl
  · rw [if_neg (fun h => hd h.1)]
    exact min_eq_left (day_le_monthLength hd year)

theorem isAnniversary_iff :
    d.IsAnniversary k e ↔ e.year = d.year + k ∧ e.month = d.month ∧ e.day = d.anniversaryDay e.year := by
  rw [← min_day_eq]
  constructor
  · intro h
    obtain ⟨hy, hm, hday⟩ := h
    rw [hm] at hday
    exact ⟨hy, hm, hday⟩
  · intro h
    obtain ⟨hy, hm, hday⟩ := h
    rw [← hm] at hday
    exact ⟨hy, hm, hday⟩

theorem IsAnniversary.after_iff (h : d.IsAnniversary k e) : now < e ↔ d.AnniversaryAfter now k := by
  obtain ⟨hy, hm, hday⟩ := isAnniversary_iff.mp h
  rw [lt_def, AnniversaryAfter, hday, hm, hy]

/-- No anniversary before the year of `now` is after it. -/
theorem AnniversaryAfter.start_le (hk : 1 ≤ k) (h : stored.AnniversaryAfter now k) :
    max (now.year - stored.year) 1 ≤ k := by
  have hyear : now.year ≤ stored.year + k := by
    rcases h with h | ⟨h, -⟩
    · exact h.le
    · exact h.le
  omega

theorem exists_least_years (now stored : Date) : ∃ k, IsLeast {k | 1 ≤ k ∧ stored.AnniversaryAfter now k} k ∧
    max (now.year - stored.year) 1 ≤ k ∧ k ≤ max (now.year - stored.year) 1 + 1 := by
  obtain ⟨start, hstart⟩ : ∃ start, start = max (now.year - stored.year) 1 := ⟨_, rfl⟩
  rw [← hstart]
  have hlower (j : Int) (hj : 1 ≤ j ∧ stored.AnniversaryAfter now j) : start ≤ j := by
    rw [hstart]
    exact hj.2.start_le hj.1
  by_cases h : stored.AnniversaryAfter now start
  · exact ⟨start, ⟨⟨by omega, h⟩, hlower⟩, le_rfl, by omega⟩
  · -- the next anniversary is in a later year than `now`
    have hnext : stored.AnniversaryAfter now (start + 1) := Or.inl (by omega)
    refine ⟨start + 1, ⟨⟨by omega, hnext⟩, ?_⟩, by omega, le_rfl⟩
    intro j hj
    have hne : start ≠ j := by
      rintro rfl
      exact h hj.2
    exact lt_of_le_of_ne (hlower j hj) hne

end Date

namespace Rule

variable {now stored d : Date} {k : Int}

/-- The earliest upcoming occurrence of a yearly rule is the anniversary after the fewest years. -/
theorem isLeast_upcoming_yearly_iff (hk : IsLeast {k | 1 ≤ k ∧ stored.AnniversaryAfter now k} k) :
    IsLeast (yearly.upcoming now stored) d ↔ stored.IsAnniversary k d := by
  obtain ⟨⟨hpos, hafter⟩, hfewest⟩ := hk
  constructor
  · intro h
    obtain ⟨⟨hnow, -, j, hj, hd⟩, hleast⟩ := h
    have hkj : k ≤ j := hfewest ⟨hj, hd.after_iff.mp hnow⟩
    -- the calendar has the anniversary after `k` years, as it has one that is no earlier
    have hyears : -9999 ≤ stored.year + k ∧ stored.year + k ≤ 9999 := by
      have hy := hd.1
      have hs := stored.year_mem
      have hb := d.year_mem
      omega
    obtain ⟨e, he⟩ := Date.exists_isAnniversary_iff.mpr hyears
    have hle : d ≤ e := hleast ⟨he.after_iff.mpr hafter, he.lt hpos, k, hpos, he⟩
    have hjk : j = k := by
      have hy := hd.1
      have hy' := he.1
      rw [Date.le_def, Date.lt_def] at hle
      omega
    rwa [hjk] at hd
  · intro h
    refine ⟨⟨h.after_iff.mpr hafter, h.lt hpos, k, hpos, h⟩, ?_⟩
    intro x hx
    obtain ⟨hnow, -, j, hj, hxj⟩ := hx
    rcases (hfewest ⟨hj, hxj.after_iff.mp hnow⟩).eq_or_lt with rfl | hlt
    · exact (h.unique hxj).le
    · have hy := h.1
      have hyx := hxj.1
      exact le_of_lt (Or.inl (by omega))

/-- A yearly rule is answered with the anniversary of `stored` after the fewest years, at least one, that make it come
after `now`. The engine fails only where that is past the end of the calendar, and never because its steps are spent: no
more than two anniversaries are looked at, and none before them is after `now`. -/
theorem yearly_next_first_anniversary (now stored : Date) :
    ∃ k, IsLeast {k | 1 ≤ k ∧ stored.AnniversaryAfter now k} k ∧
      (∀ d, yearly.next now stored = .ok d ↔
        d.year = stored.year + k ∧ d.month = stored.month ∧ d.day = stored.anniversaryDay d.year) ∧
      ((∃ f, yearly.next now stored = .error f) ↔ 9999 < stored.year + k) ∧
      (∀ f, yearly.next now stored = .error f → ∃ origin limit, f = .range origin limit) ∧
      max (now.year - stored.year) 1 ≤ k ∧ k ≤ max (now.year - stored.year) 1 + 1 := by
  obtain ⟨k, hk, hlow, hhigh⟩ := Date.exists_least_years now stored
  have hnext (d : Date) : yearly.next now stored = .ok d ↔ stored.IsAnniversary k d := by
    rw [next_eq_ok_iff]
    exact isLeast_upcoming_yearly_iff hk
  refine ⟨k, hk, fun d => (hnext d).trans Date.isAnniversary_iff, ?_, ?_, hlow, hhigh⟩
  · have hs := stored.year_mem
    have hpos : 1 ≤ k := hk.1.1
    rw [exists_error_iff, exists_congr hnext, Date.exists_isAnniversary_iff]
    omega
  · intro f hf
    rcases next_of_not_givesUp (r := yearly) trivial (fun h => h.1) with ⟨d, hd⟩ | ⟨origin, limit, hl⟩
    · cases hf.symm.trans hd
    · exact ⟨origin, limit, Except.error.inj (hf.symm.trans hl)⟩

-- a task from year 0, which was a leap year, in the common year 1900 after February 28
example : yearly.next ⟨1900, 2, 28, by decide, by decide, by decide⟩ ⟨0, 2, 29, by decide, by decide, by decide⟩ =
    .ok ⟨1901, 2, 28, by decide, by decide, by decide⟩ := by decide

end Rule

end Agenda
