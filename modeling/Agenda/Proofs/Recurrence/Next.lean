import Agenda.Proofs.Except
import Agenda.Proofs.Recurrence.Search
/-!
The next occurrence is the earliest of the upcoming ones, for every rule value and every two dates, and there is none
exactly when nothing is upcoming. What carries this beyond the searches is that few steps are enough: an anniversary
follows within two years, a day of the week within seven days, and a day of the month within 97 months.
-/
namespace Agenda

namespace Rule

/-- How many steps the search of a rule needs at most. -/
def enoughSteps : Rule → Nat
  | daily _ => 0
  | yearly => 2
  | weekly _ => 7
  | monthly _ _ => 97

/-- The fault of a rule whose steps are spent. A daily rule takes none, and its fault is about the interval. -/
def spentFault (now : Date) : Rule → Fault
  | daily interval => .interval interval
  | yearly => .exhausted yearly "years" now
  | weekly days => .exhausted (weekly days) "days" now
  | monthly days months => .exhausted (monthly days months) "months" now

/-- Whether the steps of a search reach a date. -/
def Reaches (steps : Nat) (now stored d : Date) : Rule → Prop
  | daily _ => True
  | yearly => d.year < stored.year + max (now.year - stored.year) 1 + steps
  | weekly _ => d.dayNumber ≤ (now.latest stored).dayNumber + steps
  | monthly _ _ => d.monthIndex < (now.latest stored).monthIndex + steps

/-- Whether the steps of a search lead past the last date of the range. -/
def LeadsPast (steps : Nat) (now stored : Date) : Rule → Prop
  | daily interval => 1 ≤ interval
  | yearly => 10000 < stored.year + max (now.year - stored.year) 1 + steps
  | weekly _ => Date.last.dayNumber < (now.latest stored).dayNumber + steps
  | monthly _ _ => Date.last.monthIndex < (now.latest stored).monthIndex + steps

/-- The intervals counted by division are the fewest that lead past `now`. -/
theorem intervalsPast_le_iff (now stored : Date) (interval k : Int) (hi : 1 ≤ interval) :
    intervalsPast now stored interval ≤ k ↔ 1 ≤ k ∧ now.dayNumber < stored.dayNumber + k * interval := by
  unfold intervalsPast
  dsimp only
  split
  · have hmul (hk : 1 ≤ k) : 1 * 1 ≤ k * interval := Int.mul_le_mul hk hi (by omega) (by omega)
    omega
  · have hdiv : 0 ≤ (now.dayNumber - stored.dayNumber) / interval := Int.ediv_nonneg (by omega) (by omega)
    have hlt := Int.ediv_lt_iff_lt_mul (a := now.dayNumber - stored.dayNumber) (b := k) (show 0 < interval by omega)
    omega

/-- The division of a daily rule takes the place of a search. -/
theorem nextDaily_searched (now stored : Date) (interval : Int) :
    Searched (.interval interval) ((daily interval).upcoming now stored) (fun _ => True) (1 ≤ interval)
      (nextDaily now stored interval) := by
  unfold nextDaily
  split
  · refine .exhausted ?_ (by omega)
    intro x h
    obtain ⟨-, hx, k, hk, he⟩ := h
    have hlt := Date.dayNumber_lt_iff.mpr hx
    have hmul : k * interval ≤ 0 := Int.mul_nonpos_of_nonneg_of_nonpos (by omega) (by omega)
    omega
  · have hi : 1 ≤ interval := by omega
    have hpast (k : Int) := intervalsPast_le_iff now stored interval k hi
    obtain ⟨hk, hnow⟩ := (hpast _).mp le_rfl
    have hmono (k : Int) (h : intervalsPast now stored interval ≤ k) :
        intervalsPast now stored interval * interval ≤ k * interval :=
      Int.mul_le_mul_of_nonneg_right h (by omega)
    have hpos : 1 * interval ≤ intervalsPast now stored interval * interval :=
      Int.mul_le_mul_of_nonneg_right hk (by omega)
    -- every occurrence still to come is at least as far away as the sum
    have hleast (x : Date) (hx : x ∈ (daily interval).upcoming now stored) :
        stored.dayNumber + intervalsPast now stored interval * interval ≤ x.dayNumber := by
      obtain ⟨hlt, -, k, hk1, he⟩ := hx
      have hle := hmono k ((hpast k).mpr ⟨hk1, he ▸ Date.dayNumber_lt_iff.mpr hlt⟩)
      omega
    cases hp : stored.plusDays (intervalsPast now stored interval * interval) with
    | ok d =>
      have hd := Date.plusDays_eq_ok_iff.mp hp
      refine .found d ⟨⟨?_, ?_, _, hk, hd⟩, ?_⟩ trivial
      · exact Date.dayNumber_lt_iff.mp (by omega)
      · exact Date.dayNumber_lt_iff.mp (by omega)
      · intro x hx
        exact Date.dayNumber_le_iff.mp (hd ▸ hleast x hx)
    | error limit =>
      refine .left stored limit ?_ hi
      intro x hx
      have hs := stored.dayNumber_bounds
      have hb := x.dayNumber_bounds
      have hle := hleast x hx
      obtain ⟨d, hd⟩ := Date.exists_plusDays_iff.mpr
        (show -4371587 ≤ stored.dayNumber + intervalsPast now stored interval * interval ∧
          stored.dayNumber + intervalsPast now stored interval * interval ≤ 2932896 by omega)
      cases hp.symm.trans hd

/-- Whatever the number of steps, the engine ends as a search among the upcoming occurrences does. -/
theorem nextWithin_searched (r : Rule) (steps : Nat) (now stored : Date) :
    Searched (r.spentFault now) (r.upcoming now stored) (r.Reaches steps now stored ·)
      (r.LeadsPast steps now stored) (r.nextWithin steps now stored) := by
  cases r with
  | daily interval => exact nextDaily_searched now stored interval
  | yearly =>
    have hn := now.year_mem
    have hs := stored.year_mem
    refine (searchYears_searched now stored steps _ (by omega)).congr ?_ (fun _ => Iff.rfl) Iff.rfl
    intro x
    constructor
    · intro h
      obtain ⟨hx, j, hj, hxj⟩ := h
      exact ⟨hx, hxj.lt (by omega), j, by omega, hxj⟩
    · intro h
      obtain ⟨hx, -, j, hj, hxj⟩ := h
      refine ⟨hx, j, ?_, hxj⟩
      have hy := hxj.1
      rcases Date.lt_def.mp hx with h | ⟨h, -⟩ <;> omega
  | weekly days =>
    refine (searchDays_searched now days steps (now.latest stored)).congr ?_ (fun _ => Iff.rfl) Iff.rfl
    intro x
    exact (mem_upcoming_iff_latest (r := weekly days)).symm
  | monthly days months =>
    refine (searchMonths_searched now (now.latest stored) days months steps _).congr ?_ (fun _ => Iff.rfl) Iff.rfl
    intro x
    rw [mem_upcoming_iff_latest]
    constructor
    · intro h
      obtain ⟨hx, -, hd⟩ := h
      exact ⟨hx, hd⟩
    · intro h
      obtain ⟨hx, hd⟩ := h
      exact ⟨hx, Date.monthIndex_le_of_lt hx, hd⟩

theorem Reaches.mono {r : Rule} {steps steps' : Nat} {now stored d : Date} (h : r.Reaches steps now stored d)
    (hs : steps ≤ steps') : r.Reaches steps' now stored d := by
  cases r <;> simp only [Reaches] at h ⊢ <;> omega

/-- While the range lasts, an anniversary follows in the year after the one where the search starts. -/
theorem exists_anniversary_soon (now stored : Date)
    (hroom : stored.year + max (now.year - stored.year) 1 + 1 ≤ 9999) :
    ∃ d ∈ yearly.upcoming now stored, d.year = stored.year + max (now.year - stored.year) 1 + 1 := by
  have hs := stored.year_mem
  have hyear : ∃ d, stored.IsAnniversary (max (now.year - stored.year) 1 + 1) d := by
    apply Date.exists_isAnniversary_iff.mpr
    omega
  obtain ⟨d, hd⟩ := hyear
  have hy := hd.1
  have hnow : now < d := Or.inl (by omega)
  exact ⟨d, ⟨hnow, hd.lt (by omega), _, by omega, hd⟩, by omega⟩

/-- While the range lasts, each day of the week follows within seven days. -/
theorem exists_weekday_soon (now stored : Date) {days : List Int} {v : Int} (hv : v ∈ days) (hday : 1 ≤ v ∧ v ≤ 7)
    (hroom : (now.latest stored).dayNumber + 7 ≤ 2932896) :
    ∃ d ∈ (weekly days).upcoming now stored, d.dayNumber ≤ (now.latest stored).dayNumber + 7 := by
  generalize hfloor : now.latest stored = floor at *
  have hf := floor.dayNumber_bounds
  have hweek : ∃ d : Date, d.dayNumber = floor.dayNumber + 1 + (v - 5 - floor.dayNumber) % 7 := by
    apply Date.exists_dayNumber
    omega
  obtain ⟨d, hd⟩ := hweek
  have hwd : d.weekday = v := by
    unfold Date.weekday
    omega
  have hlt : floor < d := by
    apply Date.dayNumber_lt_iff.mp
    omega
  have ho : (weekly days).OccursOn stored d := by
    rw [OccursOn, hwd]
    exact hv
  exact ⟨d, mem_upcoming_iff_latest.mpr ⟨hfloor ▸ hlt, ho⟩, by omega⟩

/-- While the range lasts, a day that a month has in its longest year comes within 97 months, the current one included:
at most eight years lie between leap years. -/
theorem exists_isDay_soon (now stored : Date) {days : List Int} {months : Option (List Int)} (month : Nat) {v : Int}
    (hm : 1 ≤ month ∧ month ≤ 12) (hcov : ∀ ms ∈ months, (month : Int) ∈ ms) (hv : v ∈ days) (hv0 : v ≠ 0)
    (hl : (v.natAbs : Int) ≤ longestLength month) (hroom : (now.latest stored).monthIndex + 96 ≤ 120000) :
    ∃ d ∈ (monthly days months).upcoming now stored, d.monthIndex ≤ (now.latest stored).monthIndex + 96 := by
  generalize hfloor : now.latest stored = floor at *
  have hf := floor.month_mem
  have hy := floor.year_mem
  have hi := floor.monthIndex_eq
  -- the first year in which the month is still to come
  obtain ⟨y, hyear⟩ : ∃ y, y = floor.year + if month ≤ floor.month then 1 else 0 := ⟨_, rfl⟩
  obtain ⟨k, hk, hleap⟩ := exists_leap y
  have hrange : -9999 ≤ y + k ∧ y + k ≤ 9999 := by
    split at hyear <;> omega
  have hday : ∃ d, Month.ofDate d = ⟨y + k, month, hrange, hm⟩ ∧ d.IsDay v := by
    apply Month.exists_isDay_iff.mpr
    rw [Month.length, monthLength_of_leap month hleap]
    exact ⟨hv0, hl⟩
  obtain ⟨d, hd, hday⟩ := hday
  have hid : d.monthIndex = 12 * (y + k) + month := congrArg Month.index hd
  have hdm : d.month = month := congrArg Month.number hd
  have hlt : floor < d := by
    apply Date.lt_of_monthIndex_lt
    split at hyear <;> omega
  have ho : (monthly days months).OccursOn stored d := by
    refine ⟨?_, v, hv, hday⟩
    rw [hdm]
    exact hcov
  refine ⟨d, mem_upcoming_iff_latest.mpr ⟨hfloor ▸ hlt, ho⟩, ?_⟩
  split at hyear <;> omega

/-- If anything is upcoming, then something is within few steps. -/
theorem exists_reached (r : Rule) (now stored x : Date) (hx : x ∈ r.upcoming now stored) :
    ∃ d ∈ r.upcoming now stored, r.Reaches r.enoughSteps now stored d := by
  by_cases h : r.Reaches r.enoughSteps now stored x
  · exact ⟨x, hx, h⟩
  -- the occurrence `x` is far away, which leaves room for a nearer one
  · cases r with
    | daily interval => exact absurd trivial h
    | yearly =>
      simp only [Reaches, enoughSteps] at h
      have hb := x.year_mem
      obtain ⟨d, hd, hy⟩ := exists_anniversary_soon now stored (by omega)
      exact ⟨d, hd, by simp only [Reaches, enoughSteps]; omega⟩
    | weekly days =>
      simp only [Reaches, enoughSteps] at h
      have hb := x.dayNumber_bounds
      exact exists_weekday_soon now stored hx.2.2 x.weekday_bounds (by omega)
    | monthly days months =>
      simp only [Reaches, enoughSteps] at h
      obtain ⟨-, -, hcov, v, hv, hday⟩ := hx
      have hb := x.monthIndex_bounds
      obtain ⟨hv0, hle⟩ := (Month.exists_isDay_iff (m := Month.ofDate x)).mp ⟨x, rfl, hday⟩
      obtain ⟨d, hd, hhi⟩ := exists_isDay_soon now stored x.month x.month_mem hcov hv hv0
        (hle.trans (monthLength_le_longest _ _)) (by omega)
      exact ⟨d, hd, by simp only [Reaches, enoughSteps]; omega⟩

theorem nextWithin_isOk {r : Rule} {steps : Nat} {now stored x : Date} (hs : r.enoughSteps ≤ steps)
    (hx : x ∈ r.upcoming now stored) : ∃ d, r.nextWithin steps now stored = .ok d := by
  have h := nextWithin_searched r steps now stored
  obtain ⟨y, hy, hyr⟩ := exists_reached r now stored x hx
  generalize r.nextWithin steps now stored = result at h
  cases h with
  | found d _ _ => exact ⟨d, rfl⟩
  | exhausted none _ => exact absurd (hyr.mono hs) (none y hy)
  | left _ _ none _ => exact absurd hx (none x)

theorem isLeast_of_nextWithin {r : Rule} {steps : Nat} {now stored d : Date}
    (h : r.nextWithin steps now stored = .ok d) : IsLeast (r.upcoming now stored) d := by
  have hs := nextWithin_searched r steps now stored
  rw [h] at hs
  cases hs with
  | found _ least _ => exact least

theorem nextWithin_eq_ok_iff {r : Rule} {steps : Nat} {now stored d : Date} (hs : r.enoughSteps ≤ steps) :
    r.nextWithin steps now stored = .ok d ↔ IsLeast (r.upcoming now stored) d := by
  refine ⟨isLeast_of_nextWithin, fun hd => ?_⟩
  obtain ⟨e, he⟩ := nextWithin_isOk hs hd.1
  rw [he, (isLeast_of_nextWithin he).unique hd]

theorem enoughSteps_le (r : Rule) : r.enoughSteps ≤ maxSteps := by
  cases r <;> simp only [enoughSteps, maxSteps] <;> omega

theorem next_eq_ok_iff {r : Rule} {now stored d : Date} :
    r.next now stored = .ok d ↔ IsLeast (r.upcoming now stored) d :=
  nextWithin_eq_ok_iff r.enoughSteps_le

/-- An answer comes after both dates. -/
theorem lt_of_next {r : Rule} {now stored d : Date} (h : r.next now stored = .ok d) : now < d ∧ stored < d := by
  obtain ⟨hnow, hstored, -⟩ := (next_eq_ok_iff.mp h).1
  exact ⟨hnow, hstored⟩

theorem next_isOk_iff {r : Rule} {now stored : Date} :
    (∃ d, r.next now stored = .ok d) ↔ ∃ d, d ∈ r.upcoming now stored := by
  constructor
  · intro h
    obtain ⟨d, hd⟩ := h
    exact ⟨d, (next_eq_ok_iff.mp hd).1⟩
  · intro h
    obtain ⟨d, hd⟩ := h
    exact nextWithin_isOk r.enoughSteps_le hd

/-- The engine fails exactly when nothing is upcoming. -/
theorem next_isError_iff {r : Rule} {now stored : Date} :
    (∃ f, r.next now stored = .error f) ↔ ∀ d, d ∉ r.upcoming now stored := by
  rw [exists_error_iff, next_isOk_iff, not_exists]

/-- One step of a yearly rule is one year. -/
theorem next_yearly_iff {d e : Date} : yearly.next d d = .ok e ↔ d.IsAnniversary 1 e := by
  rw [next_eq_ok_iff]
  constructor
  · intro h
    obtain ⟨⟨-, -, k, hk, hke⟩, hleast⟩ := h
    have hy := e.year_mem
    have hd := d.year_mem
    have hke' := hke.1
    obtain ⟨x, hx⟩ := (Date.exists_isAnniversary_iff (d := d) (k := 1)).mpr (by omega)
    have hle : e ≤ x := hleast ⟨hx.lt le_rfl, hx.lt le_rfl, 1, le_rfl, hx⟩
    have hx' := hx.1
    have hk1 : k = 1 := by
      rw [Date.le_def, Date.lt_def] at hle
      omega
    rwa [hk1] at hke
  · intro h
    refine ⟨⟨h.lt le_rfl, h.lt le_rfl, 1, le_rfl, h⟩, ?_⟩
    intro x hx
    obtain ⟨-, -, k, hk, hkx⟩ := hx
    rcases hk.eq_or_lt with rfl | hk
    · exact (h.unique hkx).le
    · have hy := h.1
      have hyx := hkx.1
      exact le_of_lt (Or.inl (by omega))

/-- A monthly rule, whatever numbers it holds, is answered with the earliest date after both on which it falls, and
fails only when the range holds no such date: the number of steps hides none. -/
theorem monthly_next_earliest (days : List Int) (months : Option (List Int)) (now stored : Date) :
    (∀ d, (monthly days months).next now stored = .ok d ↔
      IsLeast {d | now < d ∧ stored < d ∧ d ≤ Date.last ∧ d.FallsOn days months} d) ∧
    ((∃ f, (monthly days months).next now stored = .error f) ↔
      ¬ ∃ d : Date, now < d ∧ stored < d ∧ d ≤ Date.last ∧ d.FallsOn days months) := by
  have hrange : {d : Date | now < d ∧ stored < d ∧ d ≤ Date.last ∧ d.FallsOn days months} =
      (monthly days months).upcoming now stored := by
    ext x
    constructor
    · intro h
      obtain ⟨hnow, hstored, -, hx⟩ := h
      exact ⟨hnow, hstored, hx⟩
    · intro h
      obtain ⟨hnow, hstored, hx⟩ := h
      exact ⟨hnow, hstored, x.le_last, hx⟩
  constructor
  · intro d
    rw [hrange]
    exact next_eq_ok_iff
  · change _ ↔ ¬ ∃ d, d ∈ {d : Date | now < d ∧ stored < d ∧ d ≤ Date.last ∧ d.FallsOn days months}
    rw [hrange, not_exists]
    exact next_isError_iff

end Rule

end Agenda
