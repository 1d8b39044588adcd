import Agenda.Proofs.Recurrence.CatchUp
/-!
Yearly rules stored on February 29. The steps lose the day in the first common year and keep to February 28, while the
jump goes to the last day of February. Both succeed or fail together, and they agree except on a February 29.
-/
namespace Agenda

namespace Rule

variable {now stored d e : Date}

/-- The steps begin with February 28 of the next year. -/
theorem next_of_isLeapDay (hs : stored.IsLeapDay) :
    ∃ e, yearly.next stored stored = .ok e ∧ e.year = stored.year + 1 ∧ e.month = 2 ∧ e.day = 28 := by
  have hyear := stored.year_mem
  have hmod := (isLeap_iff _).mp hs.isLeap
  have hcommon := not_isLeap_succ hs.isLeap
  obtain ⟨e, he⟩ := (Date.exists_isAnniversary_iff (d := stored) (k := 1)).mpr (by omega)
  obtain ⟨hy, hm, hd⟩ := he
  refine ⟨e, next_yearly_iff.mpr ⟨hy, hm, hd⟩, hy, hm.trans hs.1, ?_⟩
  rw [hd, hm, hs.1, hs.2, hy, monthLength_february, if_neg hcommon]
  rfl

theorem mem_upcoming_of_isLeapDay (hs : stored.IsLeapDay) (hy : e.year = stored.year + 1) (hle : e ≤ now) :
    d ∈ yearly.upcoming now stored ↔ now < d ∧ d.month = 2 ∧ d.day = monthLength d.year 2 := by
  have hlen (year : Int) : min 29 (monthLength year 2) = monthLength year 2 := by
    apply min_eq_right
    rw [monthLength_february]
    split <;> omega
  constructor
  · intro h
    obtain ⟨hnow, -, k, hk, hkd⟩ := h
    obtain ⟨-, hm, hd⟩ := hkd
    rw [hm, hs.1, hs.2, hlen] at hd
    exact ⟨hnow, hm.trans hs.1, hd⟩
  · intro h
    obtain ⟨hnow, hm, hd⟩ := h
    have hyd : e.year ≤ d.year := by
      rcases Date.lt_def.mp (hle.trans_lt hnow) with h | h <;> omega
    have hk : stored.IsAnniversary (d.year - stored.year) d := by
      refine ⟨by omega, hm.trans hs.1.symm, ?_⟩
      rw [hs.2, hm, hlen]
      exact hd
    exact ⟨hnow, hk.lt (by omega), _, by omega, hk⟩

theorem mem_upcoming_of_february28 (hm : e.month = 2) (hd : e.day = 28) (hle : e ≤ now) :
    d ∈ yearly.upcoming now e ↔ now < d ∧ d.month = 2 ∧ d.day = 28 := by
  have hlen (year : Int) : min 28 (monthLength year 2) = 28 := by
    apply min_eq_left
    exact (monthLength_bounds year 2).1
  constructor
  · intro h
    obtain ⟨hnow, -, k, hk, hkd⟩ := h
    obtain ⟨-, hmd, hdd⟩ := hkd
    rw [hmd, hm, hd, hlen] at hdd
    exact ⟨hnow, hmd.trans hm, hdd⟩
  · intro h
    obtain ⟨hnow, hmd, hdd⟩ := h
    have hlt := hle.trans_lt hnow
    have hyd : e.year < d.year := by
      rcases Date.lt_def.mp hlt with h | h <;> omega
    refine ⟨hnow, hlt, d.year - e.year, by omega, by omega, hmd.trans hm.symm, ?_⟩
    rw [hd, hmd, hlen]
    exact hdd

variable (hs : stored.IsLeapDay) (hy : e.year = stored.year + 1) (hm : e.month = 2) (hd : e.day = 28) (hle : e ≤ now)

include hs hy hm hd hle in
/-- After a leap year that has February 29 to come there is a further year with February 28. -/
theorem upcoming_isLeapDay_iff :
    (∃ x, x ∈ yearly.upcoming now stored) ↔ ∃ x, x ∈ yearly.upcoming now e := by
  constructor
  · intro h
    obtain ⟨x, hx⟩ := h
    obtain ⟨hnow, hxm, hxd⟩ := (mem_upcoming_of_isLeapDay hs hy hle).mp hx
    have hyear := x.year_mem
    by_cases hleap : isLeap x.year = true
    -- 9999 is common, so a leap year is not the last one
    · have hmod := (isLeap_iff _).mp hleap
      obtain ⟨z, hzy, hzm, hzd⟩ := Date.exists_february (x.year + 1) 28 (by omega) (Or.inl rfl)
      have hlt : x < z := Or.inl (by omega)
      exact ⟨z, (mem_upcoming_of_february28 hm hd hle).mpr ⟨hnow.trans hlt, hzm, hzd⟩⟩
    · rw [monthLength_february, if_neg hleap] at hxd
      exact ⟨x, (mem_upcoming_of_february28 hm hd hle).mpr ⟨hnow, hxm, hxd⟩⟩
  · intro h
    obtain ⟨x, hx⟩ := h
    obtain ⟨hnow, hxm, hxd⟩ := (mem_upcoming_of_february28 hm hd hle).mp hx
    obtain ⟨z, hzy, hzm, hzd⟩ := Date.exists_february x.year _ x.year_mem (Or.inr rfl)
    have hb := monthLength_bounds x.year 2
    have hle' : x ≤ z := by
      rw [Date.le_def, Date.lt_def]
      omega
    refine ⟨z, (mem_upcoming_of_isLeapDay hs hy hle).mpr ⟨hnow.trans_le hle', hzm, ?_⟩⟩
    rw [hzd, hzy]

include hs hy hm hd hle in
/-- The two ways agree on every February 28 and differ on every February 29. -/
theorem isLeast_eq_iff {x : Date} (hx : IsLeast (yearly.upcoming now stored) x)
    (hd' : IsLeast (yearly.upcoming now e) d) : x = d ↔ ¬ x.IsLeapDay := by
  obtain ⟨hnow, hxm, hxd⟩ := (mem_upcoming_of_isLeapDay hs hy hle).mp hx.1
  obtain ⟨hnow', hdm, hdd⟩ := (mem_upcoming_of_february28 hm hd hle).mp hd'.1
  constructor
  · rintro rfl hc
    exact absurd (hc.2.symm.trans hdd) (by decide)
  · intro hc
    have hx28 : x.day = 28 := by
      rw [hxd, monthLength_february, if_neg (fun h => hc ((Date.isLeapDay_iff hxm hxd).mpr h))]
    have hle₁ : d ≤ x := hd'.2 ((mem_upcoming_of_february28 hm hd hle).mpr ⟨hnow, hxm, hx28⟩)
    -- the last day of February in the year of `d` is upcoming too, so the year of `x` is no later
    obtain ⟨z, hzy, hzm, hzd⟩ := Date.exists_february d.year _ d.year_mem (Or.inr rfl)
    have hb := monthLength_bounds d.year 2
    have hdz : d ≤ z := by
      rw [Date.le_def, Date.lt_def]
      omega
    have hz : z ∈ yearly.upcoming now stored := by
      apply (mem_upcoming_of_isLeapDay hs hy hle).mpr
      refine ⟨hnow'.trans_le hdz, hzm, ?_⟩
      rw [hzd, hzy]
    have hxz := hx.2 hz
    rw [Date.le_def, Date.lt_def] at hle₁ hxz
    exact Date.ext_parts (by omega) (by omega) (by omega)

/-- Jumping and stepping from February 29 succeed or fail together, and they agree except on a February 29. -/
theorem stepping_of_isLeapDay {stored : Date} (hs : stored.IsLeapDay) (now : Date) :
    ((∃ d, yearly.next now stored = .ok d) ↔ ∃ i d, yearly.PassesAt now stored i d) ∧
    ((∃ f, yearly.next now stored = .error f) ↔ yearly.FailsBefore now stored) ∧
    ∀ d i e, yearly.next now stored = .ok d → yearly.PassesAt now stored i e → (d = e ↔ ¬ d.IsLeapDay) := by
  obtain ⟨a, ha, hy, hm, hd⟩ := next_of_isLeapDay hs
  have hna : ¬ a.IsLeapDay := fun h => absurd (hd.symm.trans h.2) (by decide)
  -- from the first step on, February 29 is forgotten, and jumping agrees with stepping
  have hsteps (hle : a ≤ now) (e : Date) : yearly.next now a = .ok e ↔ ∃ i, yearly.PassesAt now stored i e :=
    (next_eq_ok_iff_passes fun _ => hna).trans (exists_passesAt_iff ha hle)
  have hok : (∃ d, yearly.next now stored = .ok d) ↔ ∃ i d, yearly.PassesAt now stored i d := by
    by_cases hnow : now < a
    · exact iff_of_true ⟨a, next_of_lt ha hnow⟩ ⟨1, a, passesAt_one ha hnow⟩
    · have hle := not_lt.mp hnow
      calc (∃ d, yearly.next now stored = .ok d) ↔ ∃ d, d ∈ yearly.upcoming now stored := next_isOk_iff
        _ ↔ ∃ d, d ∈ yearly.upcoming now a := upcoming_isLeapDay_iff hs hy hm hd hle
        _ ↔ ∃ d, yearly.next now a = .ok d := next_isOk_iff.symm
        _ ↔ ∃ d i, yearly.PassesAt now stored i d := exists_congr (hsteps hle)
        _ ↔ ∃ i d, yearly.PassesAt now stored i d := exists_comm
  refine ⟨hok, next_isError_iff_fails hok, ?_⟩
  intro d i e hde hp
  by_cases hnow : now < a
  · obtain rfl : a = d := Except.ok.inj ((next_of_lt ha hnow).symm.trans hde)
    exact iff_of_true ((passesAt_one ha hnow).unique hp) hna
  · have hle := not_lt.mp hnow
    have hstep : yearly.next now a = .ok e := (hsteps hle e).mpr ⟨i, hp⟩
    exact isLeast_eq_iff hs hy hm hd hle (next_eq_ok_iff.mp hde) (next_eq_ok_iff.mp hstep)

/-- One jump to after `now` and single steps lead to the same date, or both fail, for every rule; only for a yearly
rule stored on February 29 may the dates differ, and they do exactly when the jump leads to a February 29. -/
theorem jump_agrees_with_steps (r : Rule) (now stored : Date) :
    (¬ (r = yearly ∧ stored.IsLeapDay) →
      (∀ d, r.next now stored = .ok d ↔ ∃ i, r.PassesAt now stored i d) ∧
      ((∃ f, r.next now stored = .error f) ↔ r.FailsBefore now stored)) ∧
    (r = yearly ∧ stored.IsLeapDay →
      ((∃ d, r.next now stored = .ok d) ↔ ∃ i d, r.PassesAt now stored i d) ∧
      ((∃ f, r.next now stored = .error f) ↔ r.FailsBefore now stored) ∧
      ∀ d i e, r.next now stored = .ok d → r.PassesAt now stored i e → (d = e ↔ ¬ d.IsLeapDay)) := by
  constructor
  · intro h
    have hleap : r = yearly → ¬ stored.IsLeapDay := fun hr hs => h ⟨hr, hs⟩
    exact ⟨fun d => next_eq_ok_iff_passes hleap, next_isError_iff_fails (next_isOk_iff_passes hleap)⟩
  · intro h
    obtain ⟨rfl, hs⟩ := h
    exact stepping_of_isLeapDay hs now

/-- From February 29, 2024, the jump past June 2027 leads to a February 29, and no step does. -/
theorem jump_leaves_steps_in_leap_year :
    let stored : Date := ⟨2024, 2, 29, by decide, by decide, by decide⟩
    let now : Date := ⟨2027, 6, 1, by decide, by decide, by decide⟩
    let d : Date := ⟨2028, 2, 29, by decide, by decide, by decide⟩
    yearly.next now stored = .ok d ∧ ∀ i e, yearly.PassesAt now stored i e → d ≠ e := by
  intro stored now d
  have hd : yearly.next now stored = .ok d := by rfl
  obtain ⟨-, -, hagree⟩ := (jump_agrees_with_steps yearly now stored).2 ⟨rfl, by decide⟩
  refine ⟨hd, ?_⟩
  intro i e hp he
  exact (hagree d i e hd hp).mp he (by decide)

end Rule

end Agenda
