import Agenda.Proofs.Except
import Agenda.Proofs.Recurrence.Next
import Mathlib.Data.Int.Interval
import Mathlib.Data.Set.Card
import Mathlib.Data.Set.Finite.Lemmas
/-!
Occurrences in a row, each computed from the one before it. `Rule.Term` says without a computation which date is at
which place, for each kind of rule: a row is known once it has the right first date and the right step, `IsRow`, and the
dates that are listed are then exactly the first ones of the row.
-/
namespace Agenda

namespace Date

variable {S : Set Date} {d e : Date} {i : Nat}

instance : Finite Date := by
  have hinj : Function.Injective fun d : Date =>
      (⟨d.dayNumber, d.dayNumber_bounds⟩ : Set.Icc (-4371587 : Int) 2932896) := by
    intro d e h
    exact dayNumber_inj.mp (congrArg Subtype.val h)
  exact Finite.of_injective _ hinj

/-- Whether a date is at place `i`, from 0, of a set of dates in ascending order. -/
def IsNth (S : Set Date) (i : Nat) (d : Date) : Prop :=
  d ∈ S ∧ {e ∈ S | e < d}.ncard = i

theorem ncard_before_lt (hd : d ∈ S) (hde : d < e) : {x ∈ S | x < d}.ncard < {x ∈ S | x < e}.ncard := by
  apply Set.ncard_lt_ncard _ (Set.toFinite _)
  constructor
  · intro x hx
    exact ⟨hx.1, hx.2.trans hde⟩
  · intro hsub
    have hlt : d < d := (hsub ⟨hd, hde⟩).2
    exact lt_irrefl d hlt

/-- One more date of the set comes before the one that follows. -/
theorem ncard_before_succ (hd : d ∈ S) (hde : d < e) (hgap : ∀ x ∈ S, x < e → x ≤ d) :
    {x ∈ S | x < e}.ncard = {x ∈ S | x < d}.ncard + 1 := by
  have hset : {x ∈ S | x < e} = insert d {x ∈ S | x < d} := by
    ext x
    constructor
    · intro hx
      rcases (hgap x hx.1 hx.2).eq_or_lt with rfl | hlt
      · exact Set.mem_insert _ _
      · exact Set.mem_insert_of_mem _ ⟨hx.1, hlt⟩
    · intro hx
      rcases hx with rfl | hx
      · exact ⟨hd, hde⟩
      · exact ⟨hx.1, hx.2.trans hde⟩
  have hmem : d ∉ {x ∈ S | x < d} := fun h => lt_irrefl d h.2
  rw [hset, Set.ncard_insert_of_notMem hmem (Set.toFinite _)]

theorem isNth_zero_iff : IsNth S 0 d ↔ IsLeast S d := by
  unfold IsNth
  rw [Set.ncard_eq_zero (Set.toFinite _), Set.eq_empty_iff_forall_notMem]
  constructor
  · intro h
    exact ⟨h.1, fun x hx => not_lt.mp fun hlt => h.2 x ⟨hx, hlt⟩⟩
  · intro h
    exact ⟨h.1, fun x hx => not_lt.mpr (h.2 hx.1) hx.2⟩

theorem isNth_succ_of_isLeast (h : IsNth S i d) (he : IsLeast {x ∈ S | d < x} e) : IsNth S (i + 1) e := by
  obtain ⟨⟨heS, hde⟩, hleast⟩ := he
  refine ⟨heS, ?_⟩
  rw [ncard_before_succ h.1 hde, h.2]
  intro x hx hlt
  by_contra hc
  have hle : e ≤ x := hleast ⟨hx, not_le.mp hc⟩
  exact absurd hlt (not_lt.mpr hle)

theorem isNth_succ_iff (h : IsNth S i d) : IsNth S (i + 1) e ↔ IsLeast {x ∈ S | d < x} e := by
  refine ⟨fun he => ?_, isNth_succ_of_isLeast h⟩
  have hcard := h.2
  have hcard' := he.2
  have hde : d < e := by
    by_contra hc
    rcases (not_lt.mp hc).eq_or_lt with rfl | hlt
    · omega
    · have hless := ncard_before_lt he.1 hlt
      omega
  -- the date that follows `d` has as many before it as `e`, so it is not before `e`
  obtain ⟨x, hx, hleast⟩ := Set.exists_min_image {x ∈ S | d < x} id (Set.toFinite _) ⟨e, he.1, hde⟩
  have hnth := isNth_succ_of_isLeast h ⟨hx, hleast⟩
  have hle : x ≤ e := hleast e ⟨he.1, hde⟩
  rcases hle.eq_or_lt with rfl | hlt
  · exact ⟨hx, hleast⟩
  · have hless := ncard_before_lt hnth.1 hlt
    have hcard'' := hnth.2
    omega

theorem IsNth.pred (h : IsNth S (i + 1) e) : ∃ d, IsNth S i d := by
  have hne : {x ∈ S | x < e}.Nonempty := by
    apply Set.nonempty_of_ncard_ne_zero
    rw [h.2]
    omega
  obtain ⟨d, hd, hgreatest⟩ := Set.exists_max_image {x ∈ S | x < e} id (Set.toFinite _) hne
  have hcard := ncard_before_succ hd.1 hd.2 fun x hx hlt => hgreatest x ⟨hx, hlt⟩
  rw [h.2] at hcard
  exact ⟨d, hd.1, by omega⟩

end Date

namespace Rule

variable {r : Rule} {interval : Int} {now stored d e x : Date} {i j : Nat} {T : Nat → Date → Prop}

/-- Whether `d` is at place `i`, from 0, of the row that begins with the next occurrence after both dates. A daily rule
goes on by its interval and a yearly one by a year on the same day, except that February 29 is followed by February 28
from then on. The other rules go through all dates on which they fall. -/
def Term (now stored : Date) (i : Nat) (d : Date) : Rule → Prop
  | daily interval => ∃ x, (daily interval).next now stored = .ok x ∧ d.dayNumber = x.dayNumber + i * interval
  | yearly => ∃ x, yearly.next now stored = .ok x ∧ d.year = x.year + i ∧ d.month = x.month ∧
      d.day = if x.IsLeapDay ∧ i ≠ 0 then 28 else x.day
  | weekly days => Date.IsNth {d | now < d ∧ stored < d ∧ d.weekday ∈ days} i d
  | monthly days months => Date.IsNth {d | now < d ∧ stored < d ∧ d.FallsOn days months} i d

/-- Whether `T` says which date is at which place of the row of dates that begins with the next occurrence and goes on
with the next occurrence after each date. -/
structure IsRow (r : Rule) (now stored : Date) (T : Nat → Date → Prop) : Prop where
  zero_iff : ∀ d, T 0 d ↔ r.next now stored = .ok d
  succ_iff : ∀ i d, T i d → ∀ e, T (i + 1) e ↔ r.next d d = .ok e
  pred : ∀ i e, T (i + 1) e → ∃ d, T i d

namespace IsRow

/-- A row without its first date is the row that begins after it. -/
theorem tail (h : r.IsRow now stored T) (hd : T 0 d) : r.IsRow d d fun i => T (i + 1) :=
  ⟨h.succ_iff 0 d hd, fun i => h.succ_iff (i + 1), fun i => h.pred (i + 1)⟩

theorem unique (h : r.IsRow now stored T) (hd : T i d) (he : T i e) : d = e := by
  induction i generalizing d e with
  | zero =>
    have hd' := (h.zero_iff d).mp hd
    have he' := (h.zero_iff e).mp he
    exact Except.ok.inj (hd'.symm.trans he')
  | succ i ih =>
    obtain ⟨x, hx⟩ := h.pred i d hd
    have hd' := (h.succ_iff i x hx d).mp hd
    have he' := (h.succ_iff i x hx e).mp he
    exact Except.ok.inj (hd'.symm.trans he')

theorem exists_of_le (h : r.IsRow now stored T) (he : T j e) (hij : i ≤ j) : ∃ d, T i d := by
  induction j, hij using Nat.le_induction generalizing e with
  | base => exact ⟨e, he⟩
  | succ j _ ih =>
    obtain ⟨x, hx⟩ := h.pred j e he
    exact ih hx

/-- The row is strictly ascending. -/
theorem lt (h : r.IsRow now stored T) (hd : T i d) (he : T j e) (hij : i < j) : d < e := by
  induction j, hij using Nat.le_induction generalizing e with
  | base => exact (next_eq_ok_iff.mp ((h.succ_iff i d hd e).mp he)).1.1
  | succ j _ ih =>
    obtain ⟨x, hx⟩ := h.pred j e he
    have hlt := (next_eq_ok_iff.mp ((h.succ_iff j x hx e).mp he)).1.1
    exact (ih hx).trans hlt

end IsRow

theorem interval_pos_of_next (h : (daily interval).next now stored = .ok d) : 1 ≤ interval := by
  by_contra hc
  have herr : (daily interval).next now stored = .error (.interval interval) := if_pos (not_le.mp hc)
  cases herr.symm.trans h

theorem next_daily_iff (hi : 1 ≤ interval) :
    (daily interval).next d d = .ok e ↔ e.dayNumber = d.dayNumber + interval := by
  have hone : intervalsPast d d interval = 1 := by simp [intervalsPast]
  change nextDaily d d interval = .ok e ↔ _
  rw [nextDaily, if_neg (by omega), hone, one_mul, Date.orFault, mapError_eq_ok_iff, Date.plusDays_eq_ok_iff]

theorem daily_isRow (now stored : Date) (interval : Int) :
    (daily interval).IsRow now stored fun i d => (daily interval).Term now stored i d where
  zero_iff := by
    intro d
    constructor
    · intro h
      obtain ⟨x, hx, hd⟩ := h
      rw [Nat.cast_zero, zero_mul, add_zero, Date.dayNumber_inj] at hd
      rwa [hd]
    · intro h
      exact ⟨d, h, by simp⟩
  succ_iff := by
    intro i d hd e
    obtain ⟨x, hx, hd⟩ := hd
    rw [next_daily_iff (interval_pos_of_next hx), hd]
    constructor
    · intro h
      obtain ⟨y, hy, he⟩ := h
      obtain rfl := Except.ok.inj (hx.symm.trans hy)
      rw [he, Nat.cast_succ, Int.add_mul, one_mul]
      omega
    · intro h
      refine ⟨x, hx, ?_⟩
      rw [h, Nat.cast_succ, Int.add_mul, one_mul]
      omega
  pred := by
    intro i e h
    obtain ⟨x, hx, he⟩ := h
    have hi := interval_pos_of_next hx
    have hxb := x.dayNumber_bounds
    have heb := e.dayNumber_bounds
    rw [Nat.cast_succ, Int.add_mul, one_mul] at he
    have hpos : 0 ≤ (i : Int) * interval := Int.mul_nonneg (by omega) (by omega)
    -- the date before is in the range, as it comes after `x` and before `e`
    obtain ⟨d, hd⟩ := Date.exists_dayNumber (n := x.dayNumber + i * interval) (by omega)
    exact ⟨d, x, hx, hd⟩

/-- The day of the month at each place of a yearly row that begins with `x`. -/
theorem min_day_succ (hy : d.year = x.year + i)
    (hd : d.day = if x.IsLeapDay ∧ i ≠ 0 then 28 else x.day) :
    min d.day (monthLength (d.year + 1) x.month) = if x.IsLeapDay ∧ i + 1 ≠ 0 then 28 else x.day := by
  by_cases hx : x.IsLeapDay
  · rw [if_pos ⟨hx, by omega⟩, hx.1]
    by_cases hi : i = 0
    · subst hi
      have hcommon := not_isLeap_succ hx.isLeap
      rw [hd, if_neg (by simp), hx.2, hy, Nat.cast_zero, add_zero, monthLength_february, if_neg hcommon]
      rfl
    · rw [hd, if_pos ⟨hx, hi⟩]
      exact min_eq_left (monthLength_bounds _ _).1
  · rw [if_neg (fun h => hx h.1)] at hd ⊢
    rw [hd]
    exact min_eq_left (Date.day_le_monthLength hx _)

theorem yearly_isRow (now stored : Date) :
    yearly.IsRow now stored fun i d => yearly.Term now stored i d where
  zero_iff := by
    intro d
    constructor
    · intro h
      obtain ⟨x, hx, hy, hm, hd⟩ := h
      rw [if_neg (by simp)] at hd
      obtain rfl : d = x := Date.ext_parts (by omega) hm hd
      exact hx
    · intro h
      exact ⟨d, h, by simp, rfl, by simp⟩
  succ_iff := by
    intro i d hd e
    obtain ⟨x, hx, hy, hm, hd⟩ := hd
    have hday := min_day_succ hy hd
    rw [next_yearly_iff]
    constructor
    · intro h
      obtain ⟨y, hy', hye, hme, hde⟩ := h
      obtain rfl := Except.ok.inj (hx.symm.trans hy')
      have hye' : e.year = d.year + 1 := by omega
      exact ⟨hye', hme.trans hm.symm, by rw [hde, hye', hme, hday]⟩
    · intro h
      obtain ⟨hye, hme, hde⟩ := h
      refine ⟨x, hx, by omega, hme.trans hm, ?_⟩
      rw [hde, hye, hme, hm, hday]
  pred := by
    intro i e h
    obtain ⟨x, hx, hy, hm, -⟩ := h
    have hxb := x.year_mem
    have heb := e.year_mem
    have hyear : -9999 ≤ x.year + i ∧ x.year + i ≤ 9999 := by omega
    -- the leap day is lost with the first step, after which any year has the date
    by_cases hleap : x.IsLeapDay ∧ i ≠ 0
    · obtain ⟨d, hdy, hdm, hdd⟩ := Date.exists_february _ 28 hyear (Or.inl rfl)
      exact ⟨d, x, hx, hdy, hdm.trans hleap.1.1.symm, by rw [if_pos hleap, hdd]⟩
    · have hle : x.day ≤ monthLength (x.year + i) x.month := by
        by_cases hi : i = 0
        · rw [hi, Nat.cast_zero, add_zero]
          exact x.day_mem.2
        · exact Date.day_le_monthLength (fun h => hleap ⟨h, hi⟩) _
      exact ⟨⟨x.year + i, x.month, x.day, hyear, x.month_mem, x.day_mem.1, hle⟩, x, hx, rfl, rfl, by rw [if_neg hleap]⟩

section OnDates

variable {occurs : Date → Prop}

theorem upcoming_eq (ho : ∀ stored d, r.OccursOn stored d ↔ occurs d) (now stored : Date) :
    r.upcoming now stored = {d | now < d ∧ stored < d ∧ occurs d} := by
  ext x
  rw [mem_upcoming, ho]
  rfl

/-- A rule that falls on dates whatever the stored date is goes through all of them. -/
theorem isNth_isRow (ho : ∀ stored d, r.OccursOn stored d ↔ occurs d) (now stored : Date) :
    r.IsRow now stored (Date.IsNth {d | now < d ∧ stored < d ∧ occurs d}) where
  zero_iff := by
    intro d
    rw [Date.isNth_zero_iff, next_eq_ok_iff, upcoming_eq ho]
  succ_iff := by
    intro i d hd e
    obtain ⟨hnow, hstored, -⟩ := hd.1
    -- what comes after `d` comes after both dates as well
    have hafter : {x ∈ {x | now < x ∧ stored < x ∧ occurs x} | d < x} = r.upcoming d d := by
      rw [upcoming_eq ho]
      ext x
      constructor
      · intro hx
        exact ⟨hx.2, hx.2, hx.1.2.2⟩
      · intro hx
        exact ⟨⟨hnow.trans hx.1, hstored.trans hx.1, hx.2.2⟩, hx.1⟩
    rw [Date.isNth_succ_iff hd, hafter, next_eq_ok_iff]
  pred := fun i e => Date.IsNth.pred

end OnDates

/-- The terms of a rule are the row that its occurrences make. -/
theorem term_isRow (r : Rule) (now stored : Date) : r.IsRow now stored fun i d => r.Term now stored i d := by
  cases r with
  | daily interval => exact daily_isRow now stored interval
  | yearly => exact yearly_isRow now stored
  | weekly days => exact isNth_isRow (r := weekly days) (fun _ _ => Iff.rfl) now stored
  | monthly days months => exact isNth_isRow (r := monthly days months) (fun _ _ => Iff.rfl) now stored

variable {found : List Date} {count : Nat} {f : Fault}

theorem occurrencesFrom_eq (r : Rule) (now stored : Date) (found : List Date) (count : Nat) :
    r.occurrencesFrom now stored found count =
      (found.reverse ++ (r.occurrences now stored count).1, (r.occurrences now stored count).2) := by
  unfold occurrences
  induction count generalizing now stored found with
  | zero => simp [occurrencesFrom]
  | succ count ih =>
    simp only [occurrencesFrom]
    cases r.next now stored with
    | error f => simp
    | ok d =>
      dsimp only
      rw [ih d d (d :: found), ih d d [d]]
      simp

theorem occurrences_succ_of_ok (h : r.next now stored = .ok d) : r.occurrences now stored (count + 1) =
    (d :: (r.occurrences d d count).1, (r.occurrences d d count).2) := by
  have hfrom := occurrencesFrom_eq r d d [d] count
  rw [occurrences, occurrencesFrom, h]
  exact hfrom

theorem occurrences_succ_of_error (h : r.next now stored = .error f) :
    r.occurrences now stored (count + 1) = ([], some f) := by
  rw [occurrences, occurrencesFrom, h]
  rfl

/-- The occurrences that are listed are the first ones of the row, all of them if it is shorter, and only then there is
a fault. The induction is on the number of occurrences wanted, with a row that loses its first date. -/
theorem IsRow.occurrences_spec (h : r.IsRow now stored T) (count : Nat) :
    (∀ i d, (r.occurrences now stored count).1[i]? = some d ↔ i < count ∧ T i d) ∧
      ((r.occurrences now stored count).2 = none ↔ (r.occurrences now stored count).1.length = count) := by
  induction count generalizing now stored T with
  | zero => simp [occurrences, occurrencesFrom]
  | succ count ih =>
    cases hn : r.next now stored with
    | error f =>
      rw [occurrences_succ_of_error hn]
      refine ⟨fun i d => ?_, by simp⟩
      have hnone : ¬ T i d := by
        intro hd
        obtain ⟨x, hx⟩ := h.exists_of_le hd (Nat.zero_le i)
        cases hn.symm.trans ((h.zero_iff x).mp hx)
      simp [hnone]
    | ok x =>
      have hx := (h.zero_iff x).mpr hn
      obtain ⟨hget, hlen⟩ := ih (h.tail hx)
      rw [occurrences_succ_of_ok hn]
      refine ⟨fun i d => ?_, by simpa using hlen⟩
      cases i with
      | zero =>
        rw [List.getElem?_cons_zero, Option.some.injEq]
        constructor
        · rintro rfl
          exact ⟨Nat.succ_pos count, hx⟩
        · intro hd
          exact h.unique hx hd.2
      | succ i =>
        rw [List.getElem?_cons_succ, hget i d, Nat.add_lt_add_iff_right]

/-- The list is cut short just when the row has no date at one of the places wanted. -/
theorem IsRow.occurrences_eq_none_iff (h : r.IsRow now stored T) (count : Nat) :
    (r.occurrences now stored count).2 = none ↔ ∀ i < count, ∃ d, T i d := by
  obtain ⟨hget, hlen⟩ := h.occurrences_spec count
  rw [hlen]
  constructor
  · intro hall i hi
    have hlt : i < (r.occurrences now stored count).1.length := by omega
    exact ⟨_, ((hget i _).mp (List.getElem?_eq_getElem hlt)).2⟩
  · intro hall
    apply le_antisymm
    · rw [← List.getElem?_eq_none_iff]
      cases hat : (r.occurrences now stored count).1[count]? with
      | none => rfl
      | some d => exact absurd ((hget count d).mp hat).1 (lt_irrefl count)
    · by_contra hlt
      obtain ⟨d, hd⟩ := hall _ (not_le.mp hlt)
      have hat := (hget _ d).mpr ⟨not_le.mp hlt, hd⟩
      rw [List.getElem?_eq_none le_rfl] at hat
      cases hat

/-- The fault that cuts a list short is that of a search. -/
theorem exists_next_of_occurrences (h : (r.occurrences now stored count).2 = some f) :
    ∃ now' stored', r.next now' stored' = .error f := by
  induction count generalizing now stored with
  | zero => cases h
  | succ count ih =>
    cases hn : r.next now stored with
    | error f' =>
      rw [occurrences_succ_of_error hn] at h
      obtain rfl := Option.some.inj h
      exact ⟨now, stored, hn⟩
    | ok d =>
      rw [occurrences_succ_of_ok hn] at h
      exact ih h

end Rule

end Agenda
