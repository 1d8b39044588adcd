import Agenda.Proofs.Recurrence.Canonical
import Agenda.Proofs.Recurrence.Terms
import Mathlib.Tactic.IntervalCases
/-!
Rules that describe the same recurrence. Two rules recur alike if the engine answers them alike, whatever the two dates.
Rules that are read and recur alike are equal, but for those that fall on every day and those on the same days of every
month: a rule that counts from the stored date is told apart by two or three dates, and one that does not by the days of
a common and of a leap year.
-/
namespace Agenda

namespace Date

/-- The first day of a year. -/
def newYear (year : Int) (hyear : -9999 ≤ year ∧ year ≤ 9999) : Date :=
  ⟨year, 1, 1, hyear, january_bounds, Nat.le_refl 1, Nat.le_trans (by decide) (monthLength_bounds year 1).1⟩

theorem dayNumber_newYear {year : Int} (hyear : -9999 ≤ year ∧ year ≤ 9999) :
    (newYear year hyear).dayNumber = daysBeforeYear year - epochOffset := by
  change daysBeforeYear year + 0 + 1 - 1 - epochOffset = daysBeforeYear year - epochOffset
  omega

/-- Whether a date is of one of the two years that stand for all others, of which the second is a leap year. -/
def IsSampled (d : Date) : Prop :=
  d.year = 2023 ∨ d.year = 2024

theorem IsSampled.first_lt {d : Date} (h : d.IsSampled) : first < d := by
  refine Or.inl ?_
  rcases h with h | h
  · rw [h]
    decide
  · rw [h]
    decide

end Date

namespace Rule

/-- Whether the same dates come next for two rules, whatever the two dates that they come after. -/
def RecursLike (r s : Rule) : Prop :=
  ∀ now stored d : Date, r.next now stored = .ok d ↔ s.next now stored = .ok d

/-- Whether a rule falls on every day. -/
def FallsDaily : Rule → Prop
  | daily interval => interval = 1
  | yearly => False
  | weekly days => ∀ v : Int, 1 ≤ v ∧ v ≤ 7 → v ∈ days
  | monthly days months => ∀ d : Date, d.IsSampled → d.FallsOn days months

/-- Whether two rules by days of the month pick the same days. -/
def PicksLike : Rule → Rule → Prop
  | monthly days months, monthly days' months' =>
    ∀ d : Date, d.IsSampled → (d.FallsOn days months ↔ d.FallsOn days' months')
  | _, _ => False

/-- Whether the occurrences of a rule are counted from the stored date. -/
def IsAnchored : Rule → Prop
  | daily interval => interval ≠ 1
  | yearly => True
  | weekly _ => False
  | monthly _ _ => False

/-- Whether a rule falls on a date, for a rule that does not count from the stored date. -/
def Covers (d : Date) : Rule → Prop
  | daily _ => True
  | yearly => False
  | weekly days => d.weekday ∈ days
  | monthly days months => d.FallsOn days months

variable {r s : Rule} {now stored p d e : Date} {a b : String} {days days' : List Int} {months : Option (List Int)}

section Sampling

/-- Dates on the same day of a month fall on the same days of the month when both years are leap years or neither is. -/
theorem fallsOn_congr (hmonth : e.month = d.month) (hday : e.day = d.day) (hleap : isLeap e.year = isLeap d.year) :
    e.FallsOn days months ↔ d.FallsOn days months := by
  have hlength : monthLength e.year e.month = monthLength d.year d.month := by
    rw [monthLength, monthLength, hmonth, hleap]
  have hisDay (v : Int) : e.IsDay v ↔ d.IsDay v := by rw [Date.IsDay, Date.IsDay, hday, hlength]
  simp only [Date.FallsOn, hmonth, hisDay]

theorem exists_isSampled (d : Date) :
    ∃ e : Date, e.IsSampled ∧ e.month = d.month ∧ e.day = d.day ∧ isLeap e.year = isLeap d.year := by
  have hlength {year : Int} (hleap : isLeap year = isLeap d.year) : 1 ≤ d.day ∧ d.day ≤ monthLength year d.month := by
    rw [monthLength, hleap]
    exact d.day_mem
  cases hleap : isLeap d.year with
  | false => exact ⟨⟨2023, d.month, d.day, by decide, d.month_mem, hlength hleap.symm⟩, Or.inl rfl, rfl, rfl, rfl⟩
  | true => exact ⟨⟨2024, d.month, d.day, by decide, d.month_mem, hlength hleap.symm⟩, Or.inr rfl, rfl, rfl, rfl⟩

/-- What holds of two years of dates holds of all if only the day of the month and the length of the year matter. -/
theorem forall_isSampled_iff {P : Date → Prop}
    (hP : ∀ d e : Date, e.month = d.month → e.day = d.day → isLeap e.year = isLeap d.year → (P e ↔ P d)) :
    (∀ d : Date, d.IsSampled → P d) ↔ ∀ d, Date.first < d → P d := by
  constructor
  · intro h d _
    obtain ⟨e, he, hmonth, hday, hleap⟩ := exists_isSampled d
    exact (hP d e hmonth hday hleap).mp (h e he)
  · exact fun h d hd => h d hd.first_lt

/-- The first day of a common year falls on every day of the week. -/
theorem exists_newYear {v : Int} (hv : 1 ≤ v ∧ v ≤ 7) : ∃ d : Date, Date.first < d ∧ d.weekday = v ∧
    d.month = 1 ∧ d.day = 1 ∧ isLeap d.year = false := by
  -- a common year for each of the days that its first day can be
  have hyear : ∃ year : Int, (2014 ≤ year ∧ year ≤ 2023) ∧ isLeap year = false ∧
      (daysBeforeYear year - epochOffset + 3) % 7 + 1 = v := by
    obtain ⟨hlo, hhi⟩ := hv
    interval_cases v
    · exact ⟨2018, by decide⟩
    · exact ⟨2019, by decide⟩
    · exact ⟨2014, by decide⟩
    · exact ⟨2015, by decide⟩
    · exact ⟨2021, by decide⟩
    · exact ⟨2022, by decide⟩
    · exact ⟨2023, by decide⟩
  obtain ⟨year, hrange, hleap, hweekday⟩ := hyear
  refine ⟨Date.newYear year (by omega), Or.inl ?_, ?_, rfl, rfl, hleap⟩
  · exact lt_of_lt_of_le (by decide) hrange.1
  · rw [Date.weekday, Date.dayNumber_newYear, hweekday]

end Sampling

section Unanchored

theorem mem_upcoming_of_not_isAnchored (hr : ¬ r.IsAnchored) :
    d ∈ r.upcoming now stored ↔ now < d ∧ stored < d ∧ r.Covers d := by
  rw [mem_upcoming]
  cases r with
  | daily interval =>
    obtain rfl : interval = 1 := not_not.mp hr
    have hcount (h : stored < d) : (daily 1).OccursOn stored d := by
      have hlt := Date.dayNumber_lt_iff.mpr h
      exact ⟨d.dayNumber - stored.dayNumber, by omega, by omega⟩
    exact and_congr_right fun _ => and_congr_right fun h => iff_of_true (hcount h) trivial
  | yearly => exact absurd trivial hr
  | weekly | monthly => exact Iff.rfl

/-- Only the later of the two dates matters to a rule that does not count from the stored one. -/
theorem next_eq_ok_iff_of_le (hr : ¬ r.IsAnchored) (hstored : stored ≤ now) :
    r.next now stored = .ok d ↔ r.next now now = .ok d := by
  have hset : r.upcoming now stored = r.upcoming now now := by
    ext x
    rw [mem_upcoming_of_not_isAnchored hr, mem_upcoming_of_not_isAnchored hr]
    exact and_congr_right fun hx => and_congr_left fun _ => iff_of_true (lt_of_le_of_lt hstored hx) hx
  rw [next_eq_ok_iff, next_eq_ok_iff, hset]

theorem next_eq_ok_iff_covers (hr : ¬ r.IsAnchored) (hd : d.dayNumber = p.dayNumber + 1) :
    r.next p p = .ok d ↔ r.Covers d := by
  -- nothing lies between the two days, so the later one comes next as soon as the rule falls on it
  have hlt : p < d := Date.dayNumber_lt_iff.mp (by omega)
  rw [next_eq_ok_iff]
  constructor
  · exact fun h => ((mem_upcoming_of_not_isAnchored hr).mp h.1).2.2
  · intro h
    refine ⟨(mem_upcoming_of_not_isAnchored hr).mpr ⟨hlt, hlt, h⟩, fun x hx => ?_⟩
    have hafter := Date.dayNumber_lt_iff.mpr hx.1
    exact Date.dayNumber_le_iff.mp (by omega)

/-- A rule that does not count from the stored date is known by the days that it falls on. -/
theorem recursLike_iff_covers (hr : ¬ r.IsAnchored) (hs : ¬ s.IsAnchored) :
    r.RecursLike s ↔ ∀ d, Date.first < d → (r.Covers d ↔ s.Covers d) := by
  constructor
  · intro h d hd
    -- every date but the first has a day before it, which is taken for both dates
    have hnumber : -4371587 ≤ d.dayNumber - 1 ∧ d.dayNumber - 1 ≤ 2932896 := by
      have hb := d.dayNumber_bounds
      have hlt := Date.dayNumber_lt_iff.mpr hd
      rw [Date.dayNumber_first] at hlt
      omega
    obtain ⟨p, hp⟩ := Date.exists_dayNumber hnumber
    rw [← next_eq_ok_iff_covers (p := p) hr (by omega), ← next_eq_ok_iff_covers (p := p) hs (by omega)]
    exact h p p d
  · intro h now stored d
    have hset : r.upcoming now stored = s.upcoming now stored := by
      ext x
      rw [mem_upcoming_of_not_isAnchored hr, mem_upcoming_of_not_isAnchored hs]
      exact and_congr_right fun hx => and_congr_right fun _ => h x (lt_of_le_of_lt now.first_le hx)
    rw [next_eq_ok_iff, next_eq_ok_iff, hset]

theorem fallsDaily_iff_covers : r.FallsDaily ↔ ¬ r.IsAnchored ∧ ∀ d, Date.first < d → r.Covers d := by
  cases r with
  | daily interval => simp [FallsDaily, IsAnchored, Covers]
  | yearly => simp [FallsDaily, IsAnchored]
  | weekly days =>
    refine ⟨fun h => ⟨not_false, fun d _ => h d.weekday d.weekday_bounds⟩, fun h v hv => ?_⟩
    obtain ⟨d, hd, rfl, -⟩ := exists_newYear hv
    exact h.2 d hd
  | monthly days months =>
    rw [FallsDaily, forall_isSampled_iff fun _ _ => fallsOn_congr]
    exact (and_iff_right not_false).symm

theorem picksLike_iff_covers {days days' : List Int} {months months' : Option (List Int)} :
    (monthly days months).PicksLike (monthly days' months') ↔
      ∀ d, Date.first < d → ((monthly days months).Covers d ↔ (monthly days' months').Covers d) := by
  apply forall_isSampled_iff
  intro d e hmonth hday hleap
  rw [fallsOn_congr hmonth hday hleap, fallsOn_congr hmonth hday hleap]

/-- A new year's day that a rule by days of the month falls on falls on all days of the week. -/
theorem fallsDaily_of_covers (hwf : (weekly days).WellFormed)
    (h : ∀ d, Date.first < d → ((weekly days).Covers d ↔ (monthly days' months).Covers d)) :
    (weekly days).FallsDaily := by
  obtain ⟨hne, -, hbounds⟩ := hwf
  obtain ⟨w, hw⟩ := List.exists_mem_of_ne_nil _ hne
  have hweekday : 1 ≤ w ∧ w ≤ 7 := by simpa [isWeekday] using hbounds w hw
  obtain ⟨d, hd, rfl, hmonth, hday, hleap⟩ := exists_newYear hweekday
  -- one covered new year's day is enough: it is the same day of the month on all days of the week
  have hfalls := (h d hd).mp hw
  intro v hv
  obtain ⟨e, he, rfl, hmonth', hday', hleap'⟩ := exists_newYear hv
  have hcongr : e.FallsOn days' months ↔ d.FallsOn days' months :=
    fallsOn_congr (hmonth'.trans hmonth.symm) (hday'.trans hday.symm) (hleap'.trans hleap.symm)
  exact (h e he).mpr (hcongr.mpr hfalls)

theorem weekly_eq_of_covers (hwf : (weekly days).WellFormed) (hwf' : (weekly days').WellFormed)
    (h : ∀ d, Date.first < d → ((weekly days).Covers d ↔ (weekly days').Covers d)) : days = days' := by
  have hmem {ds : List Int} (hds : (weekly ds).WellFormed) {v : Int} (hv : v ∈ ds) : 1 ≤ v ∧ v ≤ 7 := by
    simpa [isWeekday] using hds.2.2 v hv
  have hiff (v : Int) : v ∈ days ↔ v ∈ days' := by
    by_cases hv : 1 ≤ v ∧ v ≤ 7
    · obtain ⟨d, hd, rfl, -⟩ := exists_newYear hv
      exact h d hd
    · exact iff_of_false (fun hc => hv (hmem hwf hc)) (fun hc => hv (hmem hwf' hc))
  -- lists in order are known by their members
  exact hwf.2.1.eq_of_mem_iff hwf'.2.1 hiff

theorem cases_of_covers (hr : r.WellFormed) (hs : s.WellFormed) (hr' : ¬ r.IsAnchored) (hs' : ¬ s.IsAnchored)
    (h : ∀ d, Date.first < d → (r.Covers d ↔ s.Covers d)) :
    r = s ∨ (r.FallsDaily ∨ s.FallsDaily) ∨ r.PicksLike s := by
  cases r with
  | daily interval => exact Or.inr (Or.inl (Or.inl (not_not.mp hr')))
  | yearly => exact absurd trivial hr'
  | weekly days =>
    cases s with
    | daily interval => exact Or.inr (Or.inl (Or.inr (not_not.mp hs')))
    | yearly => exact absurd trivial hs'
    | weekly days' => exact Or.inl (congrArg weekly (weekly_eq_of_covers hr hs h))
    | monthly days' months => exact Or.inr (Or.inl (Or.inl (fallsDaily_of_covers hr h)))
  | monthly days months =>
    cases s with
    | daily interval => exact Or.inr (Or.inl (Or.inr (not_not.mp hs')))
    | yearly => exact absurd trivial hs'
    | weekly days' => exact Or.inr (Or.inl (Or.inr (fallsDaily_of_covers hs fun d hd => (h d hd).symm)))
    | monthly days' months' => exact Or.inr (Or.inr (picksLike_iff_covers.mpr h))

end Unanchored

section Anchored

/-- The days in a row that tell rules that count from the stored date from those that do not. -/
theorem not_recursLike_of_isAnchored (hr : r.WellFormed) (hr' : r.IsAnchored) (hs : ¬ s.IsAnchored) :
    ¬ r.RecursLike s := by
  intro h
  let before := Date.newYear 2024 (by decide)
  let now : Date := ⟨2024, 1, 2, by decide, by decide, by decide⟩
  have hrow : now.dayNumber = before.dayNumber + 1 := by decide
  -- a row that begins a day earlier is another row for the one rule and the same for the other
  have hsame (d : Date) : r.next now before = .ok d ↔ r.next now now = .ok d := by
    rw [h now before d, h now now d]
    exact next_eq_ok_iff_of_le hs (by decide)
  cases r with
  | daily interval =>
    have hpos : 1 ≤ interval := hr.1
    have hmax : interval ≤ 400 := hr.2
    have hone : interval ≠ 1 := hr'
    have hnow : now.dayNumber = 19724 := by decide
    obtain ⟨d, hd⟩ := Date.exists_dayNumber (n := now.dayNumber + interval) (by omega)
    have hnext := (hsame d).mpr ((next_daily_iff hpos).mpr hd)
    obtain ⟨-, -, k, hk, hkd⟩ := (next_eq_ok_iff.mp hnext).1
    -- the date is in both rows, so the interval divides the day between their first dates
    have hprod : (k - 1) * interval = 1 := by
      have hdistrib : (k - 1) * interval = k * interval - interval := by rw [Int.sub_mul, Int.one_mul]
      omega
    exact hone (Int.eq_one_of_mul_eq_one_left (by omega) hprod)
  | yearly =>
    have hnext := (hsame ⟨2025, 1, 2, by decide, by decide, by decide⟩).mpr (next_yearly_iff.mpr (by decide))
    obtain ⟨-, -, k, -, -, -, hday⟩ := (next_eq_ok_iff.mp hnext).1
    exact absurd hday (by decide)
  | weekly | monthly => exact hr'

/-- No number of days is as long as two years in a row, of which one is a leap year. -/
theorem not_recursLike_daily_yearly {interval : Int} (hi : 1 ≤ interval) : ¬ (daily interval).RecursLike yearly := by
  intro h
  have hdays {d e : Date} (hde : d.IsAnniversary 1 e) : e.dayNumber = d.dayNumber + interval :=
    (next_daily_iff hi).mp ((h d d e).mpr (next_yearly_iff.mpr hde))
  -- the same interval would have to be 365 and 366
  have hcommon := hdays (d := Date.newYear 2023 (by decide)) (e := Date.newYear 2024 (by decide)) (by decide)
  have hleap := hdays (d := Date.newYear 2024 (by decide)) (e := Date.newYear 2025 (by decide)) (by decide)
  have hyears : daysBeforeYear 2023 = 738886 ∧ daysBeforeYear 2024 = 739251 ∧ daysBeforeYear 2025 = 739617 := by
    decide
  rw [Date.dayNumber_newYear, Date.dayNumber_newYear] at hcommon hleap
  omega

theorem eq_of_isAnchored (hr : r.WellFormed) (hs : s.WellFormed) (hr' : r.IsAnchored) (hs' : s.IsAnchored)
    (h : r.RecursLike s) : r = s := by
  cases r with
  | daily interval =>
    cases s with
    | daily interval' =>
      have hmax : interval ≤ 400 := hr.2
      have hpos : 1 ≤ interval := hr.1
      let d := Date.newYear 2024 (by decide)
      have hnumber : d.dayNumber = 19723 := by decide
      obtain ⟨e, he⟩ := Date.exists_dayNumber (n := d.dayNumber + interval) (by omega)
      have he' := (next_daily_iff hs.1).mp ((h d d e).mp ((next_daily_iff hr.1).mpr he))
      exact congrArg daily (by omega)
    | yearly => exact absurd h (not_recursLike_daily_yearly hr.1)
    | weekly | monthly => exact absurd hs' not_false
  | yearly =>
    cases s with
    | daily interval => exact absurd (fun now stored d => (h now stored d).symm) (not_recursLike_daily_yearly hs.1)
    | yearly => rfl
    | weekly | monthly => exact absurd hs' not_false
  | weekly | monthly => exact absurd hr' not_false

end Anchored

section Sameness

theorem fallsDaily_week : (weekly [1, 2, 3, 4, 5, 6, 7]).FallsDaily := by
  intro v hv
  simp only [List.mem_cons, List.not_mem_nil]
  omega

theorem RecursLike.symm (h : r.RecursLike s) : s.RecursLike r :=
  fun now stored d => (h now stored d).symm

theorem not_isAnchored_of_picksLike (h : r.PicksLike s) : ¬ r.IsAnchored ∧ ¬ s.IsAnchored := by
  unfold PicksLike at h
  split at h
  · exact ⟨not_false, not_false⟩
  · exact h.elim

theorem recursLike_of_picksLike (h : r.PicksLike s) : r.RecursLike s := by
  obtain ⟨hr, hs⟩ := not_isAnchored_of_picksLike h
  rw [recursLike_iff_covers hr hs]
  unfold PicksLike at h
  split at h
  · exact picksLike_iff_covers.mp h
  · exact h.elim

theorem recursLike_of_fallsDaily (hr : r.FallsDaily) (hs : s.FallsDaily) : r.RecursLike s := by
  obtain ⟨hr', hcovers⟩ := fallsDaily_iff_covers.mp hr
  obtain ⟨hs', hcovers'⟩ := fallsDaily_iff_covers.mp hs
  exact (recursLike_iff_covers hr' hs').mpr fun d hd => iff_of_true (hcovers d hd) (hcovers' d hd)

theorem FallsDaily.of_recursLike (hr : r.FallsDaily) (hs : ¬ s.IsAnchored) (h : r.RecursLike s) : s.FallsDaily := by
  obtain ⟨hr', hcovers⟩ := fallsDaily_iff_covers.mp hr
  have hsame := (recursLike_iff_covers hr' hs).mp h
  exact fallsDaily_iff_covers.mpr ⟨hs, fun d hd => (hsame d hd).mp (hcovers d hd)⟩

theorem recursLike_iff (hr : r.WellFormed) (hs : s.WellFormed) :
    r.RecursLike s ↔ r = s ∨ r.FallsDaily ∧ s.FallsDaily ∨ r.PicksLike s := by
  constructor
  · intro h
    by_cases hr' : r.IsAnchored
    · by_cases hs' : s.IsAnchored
      · exact Or.inl (eq_of_isAnchored hr hs hr' hs' h)
      · exact absurd h (not_recursLike_of_isAnchored hr hr' hs')
    · by_cases hs' : s.IsAnchored
      · exact absurd h.symm (not_recursLike_of_isAnchored hs hs' hr')
      · have hcovers := (recursLike_iff_covers hr' hs').mp h
        rcases cases_of_covers hr hs hr' hs' hcovers with heq | (hdaily | hdaily) | hpicks
        · exact Or.inl heq
        · exact Or.inr (Or.inl ⟨hdaily, hdaily.of_recursLike hs' h⟩)
        · exact Or.inr (Or.inl ⟨hdaily.of_recursLike hr' h.symm, hdaily⟩)
        · exact Or.inr (Or.inr hpicks)
  · rintro (rfl | ⟨hdaily, hdaily'⟩ | hpicks)
    · exact fun _ _ _ => Iff.rfl
    · exact recursLike_of_fallsDaily hdaily hdaily'
    · exact recursLike_of_picksLike hpicks

end Sameness

/-- Rules that were read recur alike exactly when they are equal, or both fall on every day, or both pick the same days
of the months of a common and of a leap year. So rules that recur alike, and neither fall on every day nor go by days of
the month, are equal and have one canonical text. -/
theorem same_recurrence_iff (ha : parse a = .ok r) (hb : parse b = .ok s) :
    (r.RecursLike s ↔ r = s ∨ r.FallsDaily ∧ s.FallsDaily ∨ r.PicksLike s) ∧
      (r.RecursLike s → ¬ r.FallsDaily → (∀ days months, r ≠ monthly days months) →
        r = s ∧ r.canonical = s.canonical) := by
  have hiff := recursLike_iff (wellFormed_of_parse ha) (wellFormed_of_parse hb)
  refine ⟨hiff, fun h hdaily hmonthly => ?_⟩
  have heq : r = s := by
    rcases hiff.mp h with heq | ⟨hr, -⟩ | hpicks
    · exact heq
    · exact absurd hr hdaily
    · unfold PicksLike at hpicks
      split at hpicks
      · exact absurd rfl (hmonthly _ _)
      · exact hpicks.elim
  exact ⟨heq, congrArg canonical heq⟩

/-- All days of the week and every day, each written with something to spare. -/
theorem same_recurrence_iff_of_every_day : ∃ r s : Rule, parse "w 7,6,5,4,3,2,1,7" = .ok r ∧ parse "d 01" = .ok s ∧
    r.RecursLike s := by
  have hr : parse "w 7,6,5,4,3,2,1,7" = .ok (weekly [1, 2, 3, 4, 5, 6, 7]) := by rfl
  have hs : parse "d 01" = .ok (daily 1) := by rfl
  exact ⟨_, _, hr, hs, (same_recurrence_iff hr hs).1.mpr (Or.inr (Or.inl ⟨fallsDaily_week, rfl⟩))⟩

/-- A rule of another kind, and a day of the month that is the last one whenever there is one: the rules recur alike but
are not equal. -/
theorem different_rules_recur_alike :
    (∃ r s : Rule, parse "d 1" = .ok r ∧ parse "w 1,2,3,4,5,6,7" = .ok s ∧ r.RecursLike s ∧ r ≠ s) ∧
      ∃ r s : Rule, parse "m -1" = .ok r ∧ parse "m -1,31" = .ok s ∧ r.RecursLike s ∧ r ≠ s := by
  have hpicks : (monthly [-1] none).PicksLike (monthly [-1, 31] none) := by
    intro d _
    have hlast : d.IsDay 31 → d.IsDay (-1) := by
      have hday := d.day_mem
      have hlength := monthLength_bounds d.year d.month
      unfold Date.IsDay
      omega
    simp only [Date.FallsOn, List.exists_mem_cons_iff]
    tauto
  have hdays : (daily 1).RecursLike (weekly [1, 2, 3, 4, 5, 6, 7]) := recursLike_of_fallsDaily rfl fallsDaily_week
  refine ⟨⟨_, _, rfl, rfl, hdays, Rule.noConfusion⟩, ?_⟩
  exact ⟨_, _, rfl, rfl, recursLike_of_picksLike hpicks, by decide⟩

end Rule

end Agenda
