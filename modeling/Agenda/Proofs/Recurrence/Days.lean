import Agenda.Proofs.Recurrence.Next
/-!
Rules that count days, measured by the following day alone. A rule of every so many days is answered with the date that
the fewest intervals lead to, and one of days of the week with the earliest date on one of them, within a week.
-/
namespace Agenda

namespace Date

variable {d e now : Date} {n : Nat}

/-- The date that comes `n` days later, one following day after the other, if the calendar goes that far. -/
def daysLater (d : Date) : Nat → Option Date
  | 0 => some d
  | n + 1 => (d.daysLater n).bind next?

theorem daysLater_eq_some_iff : d.daysLater n = some e ↔ e.dayNumber = d.dayNumber + n := by
  induction n generalizing e with
  | zero => rw [daysLater, Option.some.injEq, Int.natCast_zero, Int.add_zero, dayNumber_inj, eq_comm]
  | succ n ih =>
    rw [daysLater, Option.bind_eq_some_iff]
    constructor
    · rintro ⟨c, hc, he⟩
      have hn := ih.mp hc
      have hnext := dayNumber_of_next? he
      omega
    · intro h
      -- the day before `e` is a date as well, since it does not come before `d`
      have hd := d.dayNumber_bounds
      have he := e.dayNumber_bounds
      obtain ⟨c, hc⟩ := exists_dayNumber (show -4371587 ≤ e.dayNumber - 1 ∧ e.dayNumber - 1 ≤ 2932896 by omega)
      exact ⟨c, ih.mpr (by omega), next?_eq_some_iff.mpr (by omega)⟩

theorem daysLater_eq_none_iff : d.daysLater n = none ↔ last.dayNumber < d.dayNumber + n := by
  have hd := d.dayNumber_bounds
  have hlast := dayNumber_last
  rw [Option.eq_none_iff_forall_ne_some]
  constructor
  · intro h
    by_contra hle
    obtain ⟨e, he⟩ := exists_dayNumber (show -4371587 ≤ d.dayNumber + n ∧ d.dayNumber + n ≤ 2932896 by omega)
    exact h e (daysLater_eq_some_iff.mpr he)
  · intro h e he
    have hn := daysLater_eq_some_iff.mp he
    have hb := e.dayNumber_bounds
    omega

/-- Whether the day that comes `n` days later, in the calendar or past its end, comes after `now`. -/
def DaysPast (d now : Date) (n : Nat) : Prop :=
  ∀ e, d.daysLater n = some e → now < e

theorem daysPast_iff : d.DaysPast now n ↔ now.dayNumber < d.dayNumber + n := by
  have hnow := now.dayNumber_bounds
  constructor
  · intro h
    cases hn : d.daysLater n with
    | none =>
      have hlast := dayNumber_last
      have hpast := daysLater_eq_none_iff.mp hn
      omega
    | some e =>
      rw [← daysLater_eq_some_iff.mp hn]
      exact dayNumber_lt_iff.mpr (h e hn)
  · intro h e he
    rw [← daysLater_eq_some_iff.mp he] at h
    exact dayNumber_lt_iff.mp h

/-- The days of the week follow each other, and Monday follows Sunday. -/
theorem weekday_of_next? (h : d.next? = some e) : e.weekday = d.weekday % 7 + 1 := by
  have hn := dayNumber_of_next? h
  unfold weekday
  omega

end Date

namespace Rule

variable {now stored d : Date} {days : List Int}

/-- The intervals counted by division are the fewest that lead past `now`. -/
theorem exists_least_intervals (now stored : Date) {interval : Nat} (hi : 1 ≤ interval) :
    ∃ k : Nat, k = intervalsPast now stored interval ∧
      IsLeast {k | 1 ≤ k ∧ stored.DaysPast now (k * interval)} k := by
  have hpast (k : Nat) : intervalsPast now stored interval ≤ k ↔ 1 ≤ k ∧ stored.DaysPast now (k * interval) := by
    rw [intervalsPast_le_iff now stored interval k (by omega), Date.daysPast_iff, Int.natCast_mul]
    omega
  have hpos := ((intervalsPast_le_iff now stored interval _ (by omega)).mp le_rfl).1
  obtain ⟨k, hk⟩ : ∃ k : Nat, k = intervalsPast now stored interval := ⟨_, Int.toNat_of_nonneg (by omega)⟩
  refine ⟨k, hk, (hpast k).mp hk.ge, ?_⟩
  intro j hj
  have hle := (hpast j).mpr hj
  omega

theorem daily_next_of_lt (now stored : Date) {interval : Int} (hi : interval < 1) :
    (daily interval).next now stored = .error (.interval interval) :=
  if_pos hi

/-- A daily rule adds its intervals up, and the sum fails where the calendar ends. -/
theorem daily_next_cases {interval k : Nat} (hi : 1 ≤ interval) (hk : k = intervalsPast now stored interval) :
    (∃ d, stored.daysLater (k * interval) = some d ∧ (daily interval).next now stored = .ok d) ∨
      stored.daysLater (k * interval) = none ∧
        ∃ limit, (daily interval).next now stored = .error (.range stored limit) := by
  have hnext : (daily interval).next now stored = stored.orFault (stored.plusDays (k * interval : Nat)) := by
    rw [Int.natCast_mul, hk]
    exact if_neg (by omega)
  rw [hnext]
  cases hp : stored.plusDays (k * interval : Nat) with
  | ok d => exact Or.inl ⟨d, Date.daysLater_eq_some_iff.mpr (Date.plusDays_eq_ok_iff.mp hp), rfl⟩
  | error limit =>
    refine Or.inr ⟨Option.eq_none_iff_forall_ne_some.mpr fun d hd => ?_, limit, rfl⟩
    cases hp.symm.trans (Date.plusDays_eq_ok_iff.mpr (Date.daysLater_eq_some_iff.mp hd))

/-- A daily rule is answered with the date that the fewest intervals after `stored`, at least one, lead to past `now`. The
engine fails just for an interval that is not positive, and where the calendar ends before that date. What a rule is
answered with comes after both dates. -/
theorem daily_next_fewest_intervals (interval : Int) (now stored : Date) :
    (∀ d, (daily interval).next now stored = .ok d ↔ 1 ≤ interval ∧
      ∃ k, IsLeast {k | 1 ≤ k ∧ stored.DaysPast now (k * interval.toNat)} k ∧
        stored.daysLater (k * interval.toNat) = some d) ∧
      ((∃ f, (daily interval).next now stored = .error f) ↔ interval < 1 ∨
        ∃ k, IsLeast {k | 1 ≤ k ∧ stored.DaysPast now (k * interval.toNat)} k ∧
          stored.daysLater (k * interval.toNat) = none) ∧
      (∀ f, (daily interval).next now stored = .error f →
        interval < 1 ∧ f = .interval interval ∨ 1 ≤ interval ∧ ∃ limit, f = .range stored limit) ∧
      ∀ d, (daily interval).next now stored = .ok d → now < d ∧ stored < d := by
  have hafter (d : Date) (hd : (daily interval).next now stored = .ok d) : now < d ∧ stored < d := by
    obtain ⟨hnow, hstored, -⟩ := (next_eq_ok_iff.mp hd).1
    exact ⟨hnow, hstored⟩
  rcases lt_or_ge interval 1 with hi | hi
  · have hnext := daily_next_of_lt now stored hi
    rw [hnext] at hafter ⊢
    refine ⟨fun d => ?_, ?_, fun f hf => ?_, hafter⟩
    · simp [not_le.mpr hi]
    · simp [hi]
    · exact Or.inl ⟨hi, (Except.error.inj hf).symm⟩
  · obtain ⟨n, rfl⟩ : ∃ n : Nat, interval = n := ⟨interval.toNat, by omega⟩
    obtain ⟨k, hk, hleast⟩ := exists_least_intervals now stored (show 1 ≤ n by omega)
    simp only [Int.toNat_natCast, hleast.isLeast_iff_eq, exists_eq_left']
    rcases daily_next_cases (show 1 ≤ n by omega) hk with ⟨d, hd, hnext⟩ | ⟨hnone, limit, hnext⟩
    · rw [hnext] at hafter ⊢
      rw [hd]
      refine ⟨fun e => ?_, ?_, fun f hf => ?_, hafter⟩
      · rw [Except.ok.injEq, Option.some.injEq, and_iff_right hi]
      · simp [not_lt.mpr hi]
      · cases hf
    · rw [hnext] at hafter ⊢
      rw [hnone]
      refine ⟨fun e => ?_, ?_, fun f hf => ?_, hafter⟩
      · simp
      · simp
      · exact Or.inr ⟨hi, limit, (Except.error.inj hf).symm⟩

-- a sum that lands on `now` is not after it
example : (daily 7).next ⟨2024, 1, 29, by decide, by decide, by decide⟩ ⟨2024, 1, 15, by decide, by decide, by decide⟩ =
    .ok ⟨2024, 2, 5, by decide, by decide, by decide⟩ := by decide

/-- What is upcoming on a day of the week comes first within a week. -/
theorem exists_daysLater_of_weekly (h : (weekly days).next now stored = .ok d) :
    ∃ n, (1 ≤ n ∧ n ≤ 7) ∧ (now.latest stored).daysLater n = some d := by
  obtain ⟨hd, hleast⟩ := next_eq_ok_iff.mp h
  obtain ⟨e, he, hreach⟩ := exists_reached _ _ _ d hd
  have hweek : e.dayNumber ≤ (now.latest stored).dayNumber + 7 := hreach
  have hle := Date.dayNumber_le_iff.mpr (hleast he)
  have hlt := Date.dayNumber_lt_iff.mpr (mem_upcoming_iff_latest.mp hd).1
  obtain ⟨n, hn⟩ : ∃ n : Nat, (n : Int) = d.dayNumber - (now.latest stored).dayNumber :=
    ⟨_, Int.toNat_of_nonneg (by omega)⟩
  exact ⟨n, by omega, Date.daysLater_eq_some_iff.mpr (by omega)⟩

/-- A list with a day of the week in it is answered while there is a week left after both dates. -/
theorem exists_weekly_next {v : Int} (hv : v ∈ days) (hday : 1 ≤ v ∧ v ≤ 7)
    (hweek : (now.latest stored).daysLater 7 ≠ none) : ∃ d, (weekly days).next now stored = .ok d := by
  have hroom : (now.latest stored).dayNumber + 7 ≤ 2932896 := by
    have hlast := Date.dayNumber_last
    have hnot := mt Date.daysLater_eq_none_iff.mpr hweek
    omega
  obtain ⟨d, hd, -⟩ := exists_weekday_soon now stored hv hday hroom
  exact next_isOk_iff.mpr ⟨d, hd⟩

/-- A rule for days of the week, whatever numbers it holds, is answered with the earliest date after both on one of them,
and fails only when the calendar holds no such date. The answer lies within the week after both dates, and there is one
when one of the numbers is a day of the week and the calendar holds that week. The days of the week are those of the
calendar: they follow each other, and 1 January 1970 was a Thursday. -/
theorem weekly_next_earliest (days : List Int) (now stored : Date) :
    (∀ d, (weekly days).next now stored = .ok d ↔
      IsLeast {d | now < d ∧ stored < d ∧ d ≤ Date.last ∧ d.weekday ∈ days} d) ∧
      ((∃ f, (weekly days).next now stored = .error f) ↔
        ¬ ∃ d : Date, now < d ∧ stored < d ∧ d ≤ Date.last ∧ d.weekday ∈ days) ∧
      (∀ d, (weekly days).next now stored = .ok d →
        ∃ n, (1 ≤ n ∧ n ≤ 7) ∧ (now.latest stored).daysLater n = some d) ∧
      (∀ v ∈ days, 1 ≤ v ∧ v ≤ 7 → (now.latest stored).daysLater 7 ≠ none →
        ∃ d, (weekly days).next now stored = .ok d) ∧
      (∀ d e : Date, d.next? = some e → e.weekday = d.weekday % 7 + 1) ∧
      (⟨1970, 1, 1, by decide, by decide, by decide⟩ : Date).weekday = 4 := by
  have hmem (d : Date) : d ∈ (weekly days).upcoming now stored ↔
      now < d ∧ stored < d ∧ d ≤ Date.last ∧ d.weekday ∈ days := mem_upcoming_iff_le_last
  have hset : {d | now < d ∧ stored < d ∧ d ≤ Date.last ∧ d.weekday ∈ days} = (weekly days).upcoming now stored :=
    (Set.ext hmem).symm
  refine ⟨fun d => ?_, ?_, fun d => exists_daysLater_of_weekly, fun v hv hday hweek => exists_weekly_next hv hday hweek,
    fun d e => Date.weekday_of_next?, by decide⟩
  · rw [hset]
    exact next_eq_ok_iff
  · rw [← exists_congr hmem, not_exists]
    exact next_isError_iff

-- the leap day of year 0 was a Tuesday
example : (weekly [9, 2, -128, 2]).next ⟨-1, 12, 31, by decide, by decide, by decide⟩
    ⟨0, 2, 22, by decide, by decide, by decide⟩ = .ok ⟨0, 2, 29, by decide, by decide, by decide⟩ := by decide

end Rule

end Agenda
