import Agenda.Proofs.Recurrence.Grammar
import Agenda.Proofs.Recurrence.Next
/-!
Which of three ways the engine ends for a rule that was read: it finds the earliest upcoming occurrence, it leaves the
range because nothing is upcoming, or it gives up after its steps. It gives up for impossible rules only, those with
days that none of their months ever has, and only when the range is long enough for all of the steps.
-/
namespace Agenda

namespace Rule

/-- Whether a rule falls on no date at all: its smallest day, and so each one, is longer than all of its months. -/
def Impossible : Rule → Prop
  | monthly days (some months) => (∀ v ∈ days, 0 < v) ∧ ∀ m ∈ months, ∀ v ∈ days, longestLength m < v
  | _ => False

/-- Whether the engine uses up all of its steps: the rule is impossible and the search starts in April 9833 or
earlier. -/
def GivesUp (r : Rule) (now stored : Date) : Prop :=
  r.Impossible ∧ ((now.latest stored).year < 9833 ∨ (now.latest stored).year = 9833 ∧ (now.latest stored).month ≤ 4)

theorem longestLength_bounds (m : Int) : 29 ≤ longestLength m ∧ longestLength m ≤ 31 := by
  unfold longestLength
  split_ifs <;> omega

theorem exists_months_of_impossible {r : Rule} (h : r.Impossible) : ∃ days months, r = monthly days (some months) := by
  cases r with
  | daily _ => exact absurd h id
  | yearly => exact absurd h id
  | weekly _ => exact absurd h id
  | monthly days months =>
    cases months with
    | none => exact absurd h id
    | some months => exact ⟨days, months, rfl⟩

theorem not_mem_upcoming_of_impossible {r : Rule} {now stored d : Date} (h : r.Impossible) :
    d ∉ r.upcoming now stored := by
  obtain ⟨days, months, rfl⟩ := exists_months_of_impossible h
  intro hd
  obtain ⟨-, -, hcov, v, hv, hday⟩ := hd
  have hlt := h.2 _ (hcov months rfl) v hv
  have hpos := h.1 v hv
  have hle := monthLength_le_longest d.year d.month
  have hdm := d.day_mem
  simp only [Date.IsDay] at hday
  omega

theorem natAbs_le_longest {v m : Int} (hv : isMonthDay v = true) (h : v < 0 ∨ v ≤ longestLength m) :
    v ≠ 0 ∧ (v.natAbs : Int) ≤ longestLength m := by
  have hm := admits_monthDay.mp hv
  have hb := longestLength_bounds m
  omega

/-- A rule that can be written and is not impossible has a month and a day that go together. -/
theorem exists_month_of_possible {days : List Int} {months : Option (List Int)}
    (hw : (monthly days months).WellFormed) (hp : ¬ (monthly days months).Impossible) :
    ∃ month : Nat, (1 ≤ month ∧ month ≤ 12) ∧ (∀ ms ∈ months, (month : Int) ∈ ms) ∧
      ∃ v ∈ days, v ≠ 0 ∧ (v.natAbs : Int) ≤ longestLength month := by
  obtain ⟨⟨hne, -, hkind⟩, hmonths⟩ := hw
  obtain ⟨v, hv⟩ := List.exists_mem_of_ne_nil days hne
  cases months with
  | none =>
    -- every month is covered, and January has every day
    have hm := admits_monthDay.mp (hkind v hv)
    have hl := natAbs_le_longest (m := (1 : Nat)) (hkind v hv) (Or.inr (show v ≤ 31 by omega))
    exact ⟨1, by decide, (fun ms hms => by cases hms), v, hv, hl⟩
  | some ms =>
    obtain ⟨hmne, -, hmkind⟩ := hmonths ms rfl
    have hpair : ∃ m ∈ ms, ∃ w ∈ days, w < 0 ∨ w ≤ longestLength m := by
      by_contra hc
      push Not at hc
      obtain ⟨m, hm⟩ := List.exists_mem_of_ne_nil ms hmne
      apply hp
      constructor
      · intro w hw
        have hlt := (hc m hm w hw).2
        have hb := longestLength_bounds m
        omega
      · intro m hm w hw
        exact (hc m hm w hw).2
    obtain ⟨m, hm, w, hw, hle⟩ := hpair
    have hmb := admits_month.mp (hmkind m hm)
    obtain ⟨k, rfl⟩ : ∃ k : Nat, m = k := ⟨m.toNat, by omega⟩
    refine ⟨k, by omega, ?_, w, hw, natAbs_le_longest (hkind w hw) hle⟩
    intro ms' hms'
    cases hms'
    exact hm

/-- As long as the steps stay within the range, a rule that can be written and is not impossible has an occurrence
still to come. -/
theorem exists_upcoming_of_possible {r : Rule} {now stored : Date} (hw : r.WellFormed) (hp : ¬ r.Impossible)
    (hs : ¬ r.LeadsPast maxSteps now stored) : ∃ d, d ∈ r.upcoming now stored := by
  have hlastDay := Date.dayNumber_last
  have hlastMonth : Date.last.monthIndex = 120000 := rfl
  cases r with
  | daily interval => exact absurd hw.1 hs
  | yearly =>
    simp only [LeadsPast, maxSteps] at hs
    obtain ⟨d, hd, -⟩ := exists_anniversary_soon now stored (by omega)
    exact ⟨d, hd⟩
  | weekly days =>
    simp only [LeadsPast, maxSteps] at hs
    obtain ⟨hne, -, hkind⟩ := hw
    obtain ⟨v, hv⟩ := List.exists_mem_of_ne_nil days hne
    have hb := admits_weekday.mp (hkind v hv)
    obtain ⟨d, hd, -⟩ := exists_weekday_soon now stored hv hb (by omega)
    exact ⟨d, hd⟩
  | monthly days months =>
    simp only [LeadsPast, maxSteps] at hs
    obtain ⟨month, hm, hcov, v, hv, hv0, hle⟩ := exists_month_of_possible hw hp
    obtain ⟨d, hd, -⟩ := exists_isDay_soon now stored month hm hcov hv hv0 hle (by omega)
    exact ⟨d, hd⟩

/-- For an impossible rule the steps stay within the range exactly up to April 9833. -/
theorem leadsPast_iff {r : Rule} {now stored : Date} (h : r.Impossible) :
    ¬ r.LeadsPast maxSteps now stored ↔ r.GivesUp now stored := by
  have hm := (now.latest stored).month_mem
  have hi := (now.latest stored).monthIndex_eq
  have hlast : Date.last.monthIndex = 120000 := rfl
  obtain ⟨days, months, rfl⟩ := exists_months_of_impossible h
  -- December 9999 comes 2000 months after April 9833
  simp only [LeadsPast, maxSteps, GivesUp]
  constructor
  · intro hs
    exact ⟨h, by omega⟩
  · intro hg
    have hdate := hg.2
    omega

theorem spentFault_of_impossible {r : Rule} {now : Date} (h : r.Impossible) :
    r.spentFault now = .exhausted r "months" now := by
  obtain ⟨days, months, rfl⟩ := exists_months_of_impossible h
  rfl

/-- A rule that can be written spends all of its steps exactly when it gives up. -/
theorem givesUp_of_spent {r : Rule} {now stored : Date} (hw : r.WellFormed)
    (hnone : ∀ d ∈ r.upcoming now stored, ¬ r.Reaches maxSteps now stored d)
    (hs : ¬ r.LeadsPast maxSteps now stored) : r.GivesUp now stored := by
  have hp : r.Impossible := by
    by_contra hp
    obtain ⟨x, hx⟩ := exists_upcoming_of_possible hw hp hs
    obtain ⟨d, hd, hr⟩ := exists_reached r now stored x hx
    exact hnone d hd (hr.mono r.enoughSteps_le)
  exact (leadsPast_iff hp).mp hs

theorem next_of_givesUp {r : Rule} {now stored : Date} (h : r.GivesUp now stored) :
    r.next now stored = .error (.exhausted r "months" now) := by
  have hs := nextWithin_searched r maxSteps now stored
  change Searched _ _ _ _ (r.next now stored) at hs
  generalize r.next now stored = result at hs
  cases hs with
  | found d least _ => exact absurd least.1 (not_mem_upcoming_of_impossible h.1)
  | exhausted _ _ => rw [spentFault_of_impossible h.1]
  | left _ _ _ far => exact absurd far ((leadsPast_iff h.1).mpr h)

theorem next_of_not_givesUp {r : Rule} {now stored : Date} (hw : r.WellFormed) (h : ¬ r.GivesUp now stored) :
    (∃ d, r.next now stored = .ok d) ∨ ∃ origin limit, r.next now stored = .error (.range origin limit) := by
  have hs := nextWithin_searched r maxSteps now stored
  change Searched _ _ _ _ (r.next now stored) at hs
  generalize r.next now stored = result at hs
  cases hs with
  | found d _ _ => exact Or.inl ⟨d, rfl⟩
  | exhausted none short => exact absurd (givesUp_of_spent hw none short) h
  | left origin limit _ _ => exact Or.inr ⟨origin, limit, rfl⟩

/-- For a rule that was read, the engine gives up exactly for impossible rules up to April 9833, otherwise leaves the
range exactly when nothing is upcoming, and otherwise succeeds, with no more than 97 months, 7 days or 2 anniversaries
looked at. Only monthly rules ever give up. -/
theorem next_outcome (text : String) (r : Rule) (hr : Rule.parse text = .ok r) (now stored : Date) :
    (∀ rule unit day, r.next now stored = .error (.exhausted rule unit day) ↔
      r.GivesUp now stored ∧ rule = r ∧ unit = "months" ∧ day = now) ∧
    (¬ r.GivesUp now stored → ((∃ origin limit, r.next now stored = .error (.range origin limit)) ↔
      ∀ d, d ∉ r.upcoming now stored)) ∧
    (¬ r.GivesUp now stored → (∃ d, d ∈ r.upcoming now stored) →
      ∃ d, r.next now stored = .ok d ∧ r.nextWithin r.enoughSteps now stored = .ok d) ∧
    (r.GivesUp now stored → ∃ days months, r = monthly days (some months)) := by
  have hw := wellFormed_of_parse hr
  refine ⟨?_, ?_, ?_, ?_⟩
  · intro rule unit day
    constructor
    · intro he
      have hg : r.GivesUp now stored := by
        by_contra hg
        rcases next_of_not_givesUp hw hg with ⟨d, hd⟩ | ⟨origin, limit, hl⟩
        · cases he.symm.trans hd
        · cases he.symm.trans hl
      cases he.symm.trans (next_of_givesUp hg)
      exact ⟨hg, rfl, rfl, rfl⟩
    · rintro ⟨hg, rfl, rfl, rfl⟩
      exact next_of_givesUp hg
  · intro hg
    rw [← next_isError_iff]
    constructor
    · intro h
      obtain ⟨origin, limit, hl⟩ := h
      exact ⟨_, hl⟩
    · intro h
      obtain ⟨f, hf⟩ := h
      rcases next_of_not_givesUp hw hg with ⟨d, hd⟩ | hl
      · cases hf.symm.trans hd
      · exact hl
  · intro _ h
    obtain ⟨x, hx⟩ := h
    obtain ⟨d, hd⟩ := nextWithin_isOk r.enoughSteps_le hx
    exact ⟨d, hd, (nextWithin_eq_ok_iff le_rfl).mpr (next_eq_ok_iff.mp hd)⟩
  · intro hg
    exact exists_months_of_impossible hg.1

/-- No February or April has 31 days, and the search from January 2024 ends within the range. -/
theorem next_outcome_short_months :
    Rule.parse "m 31 2,4" = .ok (monthly [31] (some [2, 4])) ∧
    let day : Date := ⟨2024, 1, 26, by decide, by decide, by decide⟩
    (monthly [31] (some [2, 4])).next day day =
      .error (.exhausted (monthly [31] (some [2, 4])) "months" day) := by
  have hr : Rule.parse "m 31 2,4" = .ok (monthly [31] (some [2, 4])) := by rfl
  refine ⟨hr, ?_⟩
  intro day
  apply ((next_outcome "m 31 2,4" _ hr day day).1 _ _ _).mpr
  exact ⟨⟨⟨by decide, by decide⟩, Or.inl (by decide)⟩, rfl, rfl, rfl⟩

end Rule

end Agenda
