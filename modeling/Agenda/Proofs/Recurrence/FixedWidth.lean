import Agenda.Proofs.Failure
import Agenda.Proofs.Recurrence.Next
import Mathlib.Algebra.Ring.Int.Defs
/-!
The engine in numbers of fixed width. A rule value may hold any 16 or 8 bits, whether or not it can be written. Here the
engine computes with such values: each difference, sum, product and quotient is made in the width of its operands, and
nothing comes out when the result does not fit, when a divisor is zero, or when an answer is not after both dates. Something
always comes out, and it is what the engine over the integers answers.
-/
namespace Agenda

/-- Whether an integer is a number of so many bits, one of them for the sign. -/
def Fits (bits : Nat) (n : Int) : Prop :=
  -2 ^ (bits - 1) ≤ n ∧ n < 2 ^ (bits - 1)

instance (bits : Nat) (n : Int) : Decidable (Fits bits n) :=
  inferInstanceAs (Decidable (_ ∧ _))

/-- The result of an operation on numbers of so many bits, if it is one. -/
def within? (bits : Nat) (n : Int) : Option Int :=
  if Fits bits n then some n else none

theorem within?_of_fits {bits : Nat} {n : Int} (h : Fits bits n) : within? bits n = some n :=
  if_pos h

/-- The quotient of two numbers, toward zero, if there is one. -/
def quotient? (bits : Nat) (a b : Int) : Option Int :=
  if b = 0 then none else within? bits (a.tdiv b)

/-- A rule in numbers of 16 and 8 bits. -/
inductive RuleValue
  | daily (interval : Int16)
  | yearly
  | weekly (days : List Int8)
  | monthly (days : List Int8) (months : Option (List Int8))
  deriving DecidableEq

namespace RuleValue

/-- The rule with these numbers. -/
def rule : RuleValue → Rule
  | daily interval => .daily interval.toInt
  | yearly => .yearly
  | weekly days => .weekly (days.map Int8.toInt)
  | monthly days months => .monthly (days.map Int8.toInt) (months.map (·.map Int8.toInt))

/-- The least number of intervals, at least one, that take `stored` past `now`. -/
def intervalsPast? (now stored : Date) (interval : Int) : Option Int := do
  let elapsed ← within? 32 (now.dayNumber - stored.dayNumber)
  if elapsed < 0 then some 1
  else do
    let k ← quotient? 64 elapsed interval
    within? 64 (k + 1)

def nextDaily? (now stored : Date) (interval : Int16) : Option (Except Fault Date) :=
  if interval < 1 then some (.error (.interval interval.toInt))
  else do
    let k ← intervalsPast? now stored interval.toInt
    let days ← within? 64 (k * interval.toInt)
    match stored.orFault (stored.plusDays days) with
    | .error fault => some (.error fault)
    | .ok d => if now < d ∧ stored < d then some (.ok d) else none

/-- The number of the next anniversary is there before the anniversary is looked at. -/
def searchYears? (now stored : Date) : (steps : Nat) → (k : Int) → Option (Except Fault Date)
  | 0, _ => some (.error (.exhausted .yearly "years" now))
  | steps + 1, k => do
    let next ← within? 64 (k + 1)
    match stored.plusYears k with
    | .error limit => some (.error (.range stored limit))
    | .ok d => if now < d then some (.ok d) else searchYears? now stored steps next

def nextYearly? (now stored : Date) : Option (Except Fault Date) := do
  let years ← within? 16 (now.year - stored.year)
  searchYears? now stored maxSteps (max years 1)

def searchDays? (now : Date) (days : List Int8) : (steps : Nat) → (d : Date) → Option (Except Fault Date)
  | 0, _ => some (.error (.exhausted (.weekly (days.map Int8.toInt)) "days" now))
  | steps + 1, d =>
    match d.next? with
    | none => some (.error (.range d .year))
    | some e => do
      let weekday ← within? 8 e.weekday
      if days.contains (Int8.ofInt weekday) then some (.ok e) else searchDays? now days steps e

/-- The date on a given day of the month, counted from the end when negative: nothing when a number does not fit, no date
when the month does not have the day. -/
def resolve? (m : Month) (day : Int8) : Option (Option Date) := do
  let last ← within? 8 m.length
  let day ← if day < 0 then do
      let past ← within? 8 (last + 1)
      within? 8 (past + day.toInt)
    else some day.toInt
  some (if 1 ≤ day ∧ day ≤ last then Date.ofParts? m.year m.number day.toNat else none)

def coversMonth? (months : Option (List Int8)) (m : Month) : Option Bool := do
  let number ← within? 8 m.number
  some (months.all (·.contains (Int8.ofInt number)))

/-- The earliest date after `floor` in a month that falls on one of the given days. -/
def firstInMonth? (floor : Date) (days : List Int8) (m : Month) : Option (Option Date) := do
  let found ← days.mapM (resolve? m)
  some (earliest ((found.filterMap id).filter (floor < ·)))

/-- The same, if the month is covered. -/
def firstInCovered? (floor : Date) (days : List Int8) (months : Option (List Int8)) (m : Month) :
    Option (Option Date) := do
  let covered ← coversMonth? months m
  if covered then firstInMonth? floor days m else some none

def searchMonths? (now floor : Date) (days : List Int8) (months : Option (List Int8)) :
    (steps : Nat) → (m : Month) → Option (Except Fault Date)
  | 0, _ => some (.error (.exhausted (monthly days months).rule "months" now))
  | steps + 1, m => do
    let found ← firstInCovered? floor days months m
    match found with
    | some d => some (.ok d)
    | none =>
      match m.next? with
      | none => some (.error (.range m.first .year))
      | some m' => searchMonths? now floor days months steps m'

/-- The next occurrence in numbers of fixed width, unless one of them does not fit. -/
def next? (v : RuleValue) (now stored : Date) : Option (Except Fault Date) :=
  match v with
  | daily interval => nextDaily? now stored interval
  | yearly => nextYearly? now stored
  | weekly days => searchDays? now days maxSteps (now.latest stored)
  | monthly days months =>
    let floor := now.latest stored
    searchMonths? now floor days months maxSteps (Month.ofDate floor)

variable {now stored floor : Date} {m : Month} {interval : Int16} {day : Int8} {days : List Int8}
  {months : Option (List Int8)} {n : Int}

/-- Two dates are less than 7.4 million days apart. -/
theorem elapsed_bounds (now stored : Date) :
    -7304483 ≤ now.dayNumber - stored.dayNumber ∧ now.dayNumber - stored.dayNumber ≤ 7304483 := by
  have hnow := now.dayNumber_bounds
  have hstored := stored.dayNumber_bounds
  omega

theorem intervalsPast?_eq {k : Int} (hk : 1 ≤ k) :
    intervalsPast? now stored k = some (Rule.intervalsPast now stored k) := by
  have helapsed := elapsed_bounds now stored
  unfold intervalsPast? Rule.intervalsPast
  rw [within?_of_fits (show Fits 32 _ by unfold Fits; omega)]
  generalize now.dayNumber - stored.dayNumber = elapsed at helapsed ⊢
  by_cases h : elapsed < 0
  · simp only [Option.bind_eq_bind, Option.bind_some, if_pos h]
  · have hdiv : elapsed.tdiv k = elapsed / k := Int.tdiv_eq_ediv_of_nonneg (by omega)
    have hle : elapsed / k ≤ elapsed := Int.ediv_le_self k (by omega)
    have hnonneg : 0 ≤ elapsed / k := Int.ediv_nonneg (by omega) (by omega)
    have hquotient : quotient? 64 elapsed k = some (elapsed / k) := by
      rw [quotient?, if_neg (by omega), hdiv, within?_of_fits (show Fits 64 _ by unfold Fits; omega)]
    simp only [Option.bind_eq_bind, Option.bind_some, if_neg h, hquotient]
    exact within?_of_fits (show Fits 64 _ by unfold Fits; omega)

/-- The days that a daily rule adds are at most one interval more than the two dates are apart. -/
theorem days_bounds (now stored : Date) {k : Int} (hk : 1 ≤ k) (hwidth : k < 2 ^ 15) :
    1 ≤ Rule.intervalsPast now stored k * k ∧ Rule.intervalsPast now stored k * k ≤ 7337250 := by
  have helapsed := elapsed_bounds now stored
  unfold Rule.intervalsPast
  generalize now.dayNumber - stored.dayNumber = elapsed at helapsed ⊢
  by_cases h : elapsed < 0
  · rw [if_pos h]
    omega
  · have hle : elapsed / k * k ≤ elapsed := Int.ediv_mul_le elapsed (by omega)
    have hnonneg : 0 ≤ elapsed / k * k := Int.mul_nonneg (Int.ediv_nonneg (by omega) (by omega)) (by omega)
    rw [if_neg h, Int.add_mul]
    omega

theorem nextDaily?_eq (now stored : Date) (interval : Int16) :
    nextDaily? now stored interval = some (Rule.nextDaily now stored interval.toInt) := by
  have hwidth : interval < 1 ↔ interval.toInt < 1 := Int16.lt_iff_toInt_lt
  by_cases hi : interval.toInt < 1
  · rw [nextDaily?, Rule.nextDaily, if_pos (hwidth.mpr hi), if_pos hi]
  have hbounds := days_bounds now stored (not_lt.mp hi) interval.toInt_lt
  have hafter (d : Date) : Rule.nextDaily now stored interval.toInt = .ok d → now < d ∧ stored < d :=
    Rule.lt_of_next (r := .daily interval.toInt)
  have hdays : within? 64 (Rule.intervalsPast now stored interval.toInt * interval.toInt) =
      some (Rule.intervalsPast now stored interval.toInt * interval.toInt) := within?_of_fits (by unfold Fits; omega)
  rw [nextDaily?, if_neg (mt hwidth.mp hi), intervalsPast?_eq (not_lt.mp hi)]
  simp only [Rule.nextDaily, if_neg hi] at hafter ⊢
  simp only [Option.bind_eq_bind, Option.bind_some, hdays]
  cases hresult : stored.orFault (stored.plusDays (Rule.intervalsPast now stored interval.toInt * interval.toInt)) with
  | error fault => rfl
  | ok d => exact if_pos (hafter d hresult)

/-- The numbers of the anniversaries stay far within 64 bits. -/
theorem searchYears?_eq (now stored : Date) (steps : Nat) {k : Int} (hk : -2 ^ 63 ≤ k) (hsteps : k + steps < 2 ^ 63) :
    searchYears? now stored steps k = some (Rule.searchYears now stored steps k) := by
  induction steps generalizing k with
  | zero => rfl
  | succ steps ih =>
    have hnext : within? 64 (k + 1) = some (k + 1) := within?_of_fits (by unfold Fits; omega)
    rw [searchYears?, Rule.searchYears, hnext]
    simp only [Option.bind_eq_bind, Option.bind_some]
    cases stored.plusYears k with
    | error limit => rfl
    | ok d =>
      by_cases hlt : now < d
      · simp only [if_pos hlt]
      · simp only [if_neg hlt]
        exact ih (by omega) (by omega)

theorem nextYearly?_eq (now stored : Date) : nextYearly? now stored = some (Rule.nextYearly maxSteps now stored) := by
  have hnow := now.year_mem
  have hstored := stored.year_mem
  have hyears : within? 16 (now.year - stored.year) = some (now.year - stored.year) :=
    within?_of_fits (by unfold Fits; omega)
  have hmax : maxSteps = 2000 := rfl
  rw [nextYearly?, hyears]
  exact searchYears?_eq now stored maxSteps (by omega) (by omega)

/-- A number of 8 bits is in a list of such numbers as it is in the list of the integers. -/
theorem contains_ofInt (h : Fits 8 n) : days.contains (Int8.ofInt n) = (days.map Int8.toInt).contains n := by
  have hn : (Int8.ofInt n).toInt = n := Int8.toInt_ofInt_of_le h.1 h.2
  rw [Bool.eq_iff_iff, List.contains_iff_mem, List.contains_iff_mem, List.mem_map]
  constructor
  · intro hmem
    exact ⟨Int8.ofInt n, hmem, hn⟩
  · rintro ⟨v, hv, rfl⟩
    rwa [Int8.ofInt_toInt]

theorem searchDays?_eq (now : Date) (days : List Int8) (steps : Nat) (d : Date) :
    searchDays? now days steps d = some (Rule.searchDays now (days.map Int8.toInt) steps d) := by
  induction steps generalizing d with
  | zero => rfl
  | succ steps ih =>
    rw [searchDays?, Rule.searchDays]
    cases d.next? with
    | none => rfl
    | some e =>
      have hweek := e.weekday_bounds
      have hfits : Fits 8 e.weekday := by
        unfold Fits
        omega
      simp only [within?_of_fits hfits, Option.bind_eq_bind, Option.bind_some, contains_ofInt hfits]
      by_cases hday : (days.map Int8.toInt).contains e.weekday
      · rw [if_pos hday, if_pos hday]
      · rw [if_neg hday, if_neg hday]
        exact ih e

/-- A day of the month is one of its dates, when it is counted from the first. -/
theorem ofParts?_eq_some_iff {d : Date} : (if 1 ≤ n ∧ n ≤ m.length then Date.ofParts? m.year m.number n.toNat else none) =
    some d ↔ Month.ofDate d = m ∧ (d.day : Int) = n := by
  constructor
  · intro h
    split_ifs at h with hn
    obtain ⟨hyear, hmonth, hday⟩ := Date.ofParts?_eq_some_iff.mp h
    exact ⟨Month.ext_parts hyear hmonth, by omega⟩
  · rintro ⟨rfl, rfl⟩
    have hday := d.day_mem
    have hlength : (Month.ofDate d).length = monthLength d.year d.month := rfl
    rw [if_pos (by omega), Date.ofParts?_eq_some_iff]
    exact ⟨rfl, rfl, rfl⟩

theorem resolve?_eq (m : Month) (day : Int8) : resolve? m day = some (m.resolve? day.toInt) := by
  have hlength : 28 ≤ m.length ∧ m.length ≤ 31 := monthLength_bounds m.year m.number
  have hlow := day.le_toInt
  have hhigh := day.toInt_lt
  have hneg : day < 0 ↔ day.toInt < 0 := Int8.lt_iff_toInt_lt
  have hlast : within? 8 m.length = some (m.length : Int) := within?_of_fits (by unfold Fits; omega)
  have hdate {n : Int} (hn : n = if day.toInt < 0 then (m.length : Int) + 1 + day.toInt else day.toInt) :
      (if 1 ≤ n ∧ n ≤ m.length then Date.ofParts? m.year m.number n.toNat else none) = m.resolve? day.toInt := by
    ext d
    rw [ofParts?_eq_some_iff, Month.resolve?_eq_some_iff]
    constructor
    · intro h
      obtain ⟨hm, hd⟩ := h
      exact ⟨hm, (Month.isDay_iff hm).mpr (hd.trans hn)⟩
    · intro h
      obtain ⟨hm, hd⟩ := h
      exact ⟨hm, ((Month.isDay_iff hm).mp hd).trans hn.symm⟩
  unfold resolve?
  simp only [hlast, Option.bind_eq_bind, Option.bind_some]
  by_cases h : day.toInt < 0
  · have hpast : within? 8 ((m.length : Int) + 1) = some ((m.length : Int) + 1) := within?_of_fits (by unfold Fits; omega)
    have hsum : within? 8 ((m.length : Int) + 1 + day.toInt) = some ((m.length : Int) + 1 + day.toInt) :=
      within?_of_fits (by unfold Fits; omega)
    simp only [if_pos (hneg.mpr h), hpast, hsum, Option.bind_some, hdate (if_pos h).symm]
  · simp only [if_neg (mt hneg.mp h), hdate (if_neg h).symm]

theorem coversMonth?_eq (months : Option (List Int8)) (m : Month) :
    coversMonth? months m = some (Rule.coversMonth (months.map (·.map Int8.toInt)) m) := by
  have hnumber := m.number_mem
  have hfits : Fits 8 m.number := by
    unfold Fits
    omega
  rw [coversMonth?, within?_of_fits hfits]
  cases months with
  | none => rfl
  | some months => exact congrArg some (contains_ofInt hfits)

theorem firstInMonth?_eq (floor : Date) (days : List Int8) (m : Month) :
    firstInMonth? floor days m = some (Rule.firstInMonth floor (days.map Int8.toInt) m) := by
  have hfound : days.mapM (resolve? m) = some (days.map fun day => m.resolve? day.toInt) := by
    have hresolve : resolve? m = fun day => pure (m.resolve? day.toInt) := funext (resolve?_eq m)
    rw [hresolve, List.mapM_pure]
    rfl
  rw [firstInMonth?, hfound, Rule.firstInMonth]
  simp only [Option.bind_eq_bind, Option.bind_some, List.filterMap_map]
  rfl

theorem firstInCovered?_eq (floor : Date) (days : List Int8) (months : Option (List Int8)) (m : Month) :
    firstInCovered? floor days months m = some (if Rule.coversMonth (months.map (·.map Int8.toInt)) m then
      Rule.firstInMonth floor (days.map Int8.toInt) m else none) := by
  rw [firstInCovered?, coversMonth?_eq, firstInMonth?_eq, apply_ite some]
  rfl

theorem searchMonths?_eq (now floor : Date) (days : List Int8) (months : Option (List Int8)) (steps : Nat) (m : Month) :
    searchMonths? now floor days months steps m =
      some (Rule.searchMonths now floor (days.map Int8.toInt) (months.map (·.map Int8.toInt)) steps m) := by
  induction steps generalizing m with
  | zero => rfl
  | succ steps ih =>
    rw [searchMonths?, Rule.searchMonths, firstInCovered?_eq]
    simp only [Option.bind_eq_bind, Option.bind_some]
    cases (if Rule.coversMonth (months.map (·.map Int8.toInt)) m then
      Rule.firstInMonth floor (days.map Int8.toInt) m else none) with
    | some d => rfl
    | none =>
      cases m.next? with
      | none => rfl
      | some m' => exact ih m'

theorem next?_eq (v : RuleValue) (now stored : Date) : v.next? now stored = some (v.rule.next now stored) := by
  cases v with
  | daily interval => exact nextDaily?_eq now stored interval
  | yearly => exact nextYearly?_eq now stored
  | weekly days => exact searchDays?_eq now days maxSteps (now.latest stored)
  | monthly days months => exact searchMonths?_eq now (now.latest stored) days months maxSteps _

/-- Whatever the 16 or 8 bits of a rule are, on whatever dates, the engine comes to an answer with no number that does not
fit its width, and the answer is that over the integers. A date that it answers with is after both dates, and what it fails
with is told as a fault and not as the refusal of a rule or a date. -/
theorem next_fits_width (v : RuleValue) (now stored : Date) :
    v.next? now stored = some (v.rule.next now stored) ∧
      (∀ d, v.rule.next now stored = .ok d → now < d ∧ stored < d) ∧
      ∀ fault, v.rule.next now stored = .error fault →
        "internal error: ".toList <+: fault.message.toList ∧ ∀ e : SpecError, fault.message ≠ e.message := by
  refine ⟨next?_eq v now stored, fun d => Rule.lt_of_next, fun fault _ => ?_⟩
  exact ⟨fault.isPrefix_message, fault.message_ne⟩

-- the first -128 days of a month are on no date of it, and a list of months may hold anything
example : (monthly [-128, 0, -29, 127] (some [2, -1])).next? ⟨2024, 2, 1, by decide, by decide, by decide⟩
    ⟨2023, 12, 31, by decide, by decide, by decide⟩ =
      some (.ok ⟨2028, 2, 1, by decide, by decide, by decide⟩) := by decide +kernel

end RuleValue

end Agenda
