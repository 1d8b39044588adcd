import Agenda.Recurrence.Occurrence
import Agenda.Proofs.Recurrence.Upcoming
/-!
The three searches. Each one looks through a set of dates in ascending order, block by block: days, months or
anniversaries. What it ends in is always one of three things, `Searched`, and one step of the search takes the first
block off the set.
-/
namespace Agenda

/-- What a search through the set `S` may end in: with its least date, with the fault `spent` when no date of the set
lies `within` reach of the steps, or out of the range when the set is empty and the steps go `beyond` the range. -/
inductive Searched (spent : Fault) (S : Set Date) (within : Date → Prop) (beyond : Prop) : Except Fault Date → Prop
  | found (d : Date) (least : IsLeast S d) (reached : within d) : Searched spent S within beyond (.ok d)
  | exhausted (none : ∀ x ∈ S, ¬ within x) (short : ¬ beyond) : Searched spent S within beyond (.error spent)
  | left (origin : Date) (limit : Limit) (none : ∀ x, x ∉ S) (far : beyond) :
    Searched spent S within beyond (.error (.range origin limit))

namespace Searched

variable {spent : Fault} {S T : Set Date} {within within' : Date → Prop} {beyond beyond' : Prop}
  {result : Except Fault Date}

theorem congr (h : Searched spent S within beyond result) (hs : ∀ x, x ∈ S ↔ x ∈ T)
    (hw : ∀ x, within x ↔ within' x) (hb : beyond ↔ beyond') : Searched spent T within' beyond' result := by
  obtain rfl : S = T := Set.ext hs
  obtain rfl : within = within' := funext fun x => propext (hw x)
  obtain rfl : beyond = beyond' := propext hb
  exact h

end Searched

theorem eq_nil_of_earliest (ds : List Date) (h : earliest ds = none) : ds = [] := by
  cases ds with
  | nil => rfl
  | cons a ds =>
    unfold earliest at h
    split at h <;> cases h

theorem earliest_isLeast (ds : List Date) (d : Date) (h : earliest ds = some d) : IsLeast {x | x ∈ ds} d := by
  induction ds generalizing d with
  | nil => cases h
  | cons a ds ih =>
    unfold earliest at h
    cases he : earliest ds with
    | none =>
      rw [he] at h
      cases h
      rw [eq_nil_of_earliest ds he]
      exact ⟨List.mem_cons_self, fun x hx => by rw [List.mem_singleton.mp hx]⟩
    | some e =>
      obtain ⟨hmem, hle⟩ := ih e he
      rw [he] at h
      obtain rfl : (if e < a then e else a) = d := Option.some.inj h
      constructor
      · split
        · exact List.mem_cons_of_mem a hmem
        · exact List.mem_cons_self
      · intro x hx
        rcases List.mem_cons.mp hx with rfl | hx
        · split
          · exact le_of_lt ‹_›
          · exact le_rfl
        · have hex : e ≤ x := hle hx
          split
          · exact hex
          · exact (not_lt.mp ‹_›).trans hex

namespace Rule

/-- A search by days meets every later date one by one. -/
theorem searchDays_searched (now : Date) (days : List Int) (steps : Nat) (d : Date) :
    Searched (.exhausted (weekly days) "days" now) {x | d < x ∧ x.weekday ∈ days}
      (fun x => x.dayNumber ≤ d.dayNumber + steps) (Date.last.dayNumber < d.dayNumber + steps)
      (searchDays now days steps d) := by
  induction steps generalizing d with
  | zero =>
    refine .exhausted ?_ ?_
    · intro x h
      obtain ⟨hx, -⟩ := h
      have hlt := Date.dayNumber_lt_iff.mpr hx
      omega
    · have hle := Date.dayNumber_le_iff.mpr (Date.le_last d)
      omega
  | succ steps ih =>
    unfold searchDays
    cases hn : d.next? with
    | none =>
      obtain rfl := Date.eq_last_of_next? hn
      refine .left _ _ ?_ (by omega)
      intro x h
      obtain ⟨hx, -⟩ := h
      exact not_lt.mpr (Date.le_last x) hx
    | some e =>
      have he := Date.dayNumber_of_next? hn
      have hlt (x : Date) : d < x ↔ e ≤ x := by
        rw [← Date.dayNumber_lt_iff, ← Date.dayNumber_le_iff]
        omega
      dsimp only
      split
      · rename_i hc
        refine .found e ⟨⟨(hlt e).mpr le_rfl, List.contains_iff_mem.mp hc⟩, ?_⟩ (by omega)
        intro x h
        obtain ⟨hx, -⟩ := h
        exact (hlt x).mp hx
      -- after `e`, which is not in the set, the set is the same
      · rename_i hc
        have hm : e.weekday ∉ days := fun h => hc (List.contains_iff_mem.mpr h)
        refine (ih e).congr ?_ (fun x => by omega) (by omega)
        intro x
        simp only [Set.mem_ofPred_eq, hlt x]
        constructor
        · intro h
          obtain ⟨hx, hw⟩ := h
          exact ⟨le_of_lt hx, hw⟩
        · intro h
          obtain ⟨hx, hw⟩ := h
          refine ⟨lt_of_le_of_ne hx ?_, hw⟩
          rintro rfl
          exact hm hw

theorem coversMonth_iff {months : Option (List Int)} {m : Month} :
    coversMonth months m = true ↔ ∀ ms ∈ months, (m.number : Int) ∈ ms := by
  cases months <;> simp [coversMonth]

theorem mem_candidates {floor x : Date} {days : List Int} {m : Month} :
    x ∈ (days.filterMap m.resolve?).filter (floor < ·) ↔
      floor < x ∧ Month.ofDate x = m ∧ ∃ v ∈ days, x.IsDay v := by
  simp only [List.mem_filter, List.mem_filterMap, Month.resolve?_eq_some_iff, decide_eq_true_eq]
  constructor
  · intro h
    obtain ⟨⟨v, hv, hm, hd⟩, hf⟩ := h
    exact ⟨hf, hm, v, hv, hd⟩
  · intro h
    obtain ⟨hf, hm, v, hv, hd⟩ := h
    exact ⟨⟨v, hv, hm, hd⟩, hf⟩

/-- The dates of one month after `floor` that a monthly rule falls on. -/
def fallingIn (floor : Date) (days : List Int) (months : Option (List Int)) (m : Month) : Set Date :=
  {x | floor < x ∧ Month.ofDate x = m ∧ x.FallsOn days months}

theorem mem_fallingIn {floor x : Date} {days : List Int} {months : Option (List Int)} {m : Month}
    (hc : coversMonth months m = true) :
    x ∈ fallingIn floor days months m ↔ floor < x ∧ Month.ofDate x = m ∧ ∃ v ∈ days, x.IsDay v := by
  constructor
  · intro h
    obtain ⟨hf, hm, -, hv⟩ := h
    exact ⟨hf, hm, hv⟩
  · intro h
    obtain ⟨hf, rfl, hv⟩ := h
    exact ⟨hf, rfl, coversMonth_iff.mp hc, hv⟩

theorem monthStep_isLeast {floor d : Date} {days : List Int} {months : Option (List Int)} {m : Month}
    (h : (if coversMonth months m then firstInMonth floor days m else none) = some d) :
    IsLeast (fallingIn floor days months m) d := by
  split at h
  · rename_i hc
    obtain ⟨hd, hle⟩ := earliest_isLeast _ d h
    refine ⟨(mem_fallingIn hc).mpr (mem_candidates.mp hd), ?_⟩
    intro x hx
    exact hle (mem_candidates.mpr ((mem_fallingIn hc).mp hx))
  · cases h

theorem monthStep_none {floor x : Date} {days : List Int} {months : Option (List Int)} {m : Month}
    (h : (if coversMonth months m then firstInMonth floor days m else none) = none) :
    x ∉ fallingIn floor days months m := by
  intro hx
  split at h
  · rename_i hc
    have hmem := mem_candidates.mpr ((mem_fallingIn hc).mp hx)
    rw [eq_nil_of_earliest _ h] at hmem
    cases hmem
  · rename_i hc
    obtain ⟨-, rfl, hcov, -⟩ := hx
    exact hc (coversMonth_iff.mpr hcov)

/-- A search by months meets every later month one by one. It steps to a further month also when it is about to give
up, so the last date of the range must lie beyond all of its steps. -/
theorem searchMonths_searched (now floor : Date) (days : List Int) (months : Option (List Int)) (steps : Nat)
    (m : Month) :
    Searched (.exhausted (monthly days months) "months" now)
      {x | floor < x ∧ m.index ≤ x.monthIndex ∧ x.FallsOn days months}
      (fun x => x.monthIndex < m.index + steps) (Date.last.monthIndex < m.index + steps)
      (searchMonths now floor days months steps m) := by
  have hlast : Date.last.monthIndex = 120000 := rfl
  induction steps generalizing m with
  | zero =>
    have hm := m.index_bounds
    refine .exhausted ?_ (by omega)
    intro x h
    obtain ⟨-, hx, -⟩ := h
    omega
  | succ steps ih =>
    unfold searchMonths
    cases hs : if coversMonth months m then firstInMonth floor days m else none with
    | some d =>
      obtain ⟨⟨hf, hm, hd⟩, hle⟩ := monthStep_isLeast hs
      have hi : d.monthIndex = m.index := congrArg Month.index hm
      refine .found d ⟨⟨hf, hi.ge, hd⟩, ?_⟩ (by omega)
      intro x h
      obtain ⟨hfx, hx, hdx⟩ := h
      -- in the month of `d`, or in a later one
      rcases hx.eq_or_lt with hx | hx
      · exact hle ⟨hfx, Month.index_inj.mp hx.symm, hdx⟩
      · exact le_of_lt (Date.lt_of_monthIndex_lt (hi.trans_lt hx))
    | none =>
      have hno (x : Date) (hf : floor < x) (hd : x.FallsOn days months) : x.monthIndex ≠ m.index :=
        fun hm => monthStep_none hs ⟨hf, Month.index_inj.mp hm, hd⟩
      cases hn : m.next? with
      | none =>
        have hm := Month.index_of_next?_none hn
        refine .left _ _ ?_ (by omega)
        intro x h
        obtain ⟨hf, hx, hd⟩ := h
        have hb := x.monthIndex_bounds
        exact hno x hf hd (by omega)
      | some m' =>
        have hm := Month.index_of_next? hn
        refine (ih m').congr ?_ (fun x => by omega) (by omega)
        intro x
        simp only [Set.mem_ofPred_eq]
        constructor
        · intro h
          obtain ⟨hf, hx, hd⟩ := h
          exact ⟨hf, by omega, hd⟩
        · intro h
          obtain ⟨hf, hx, hd⟩ := h
          have hne := hno x hf hd
          exact ⟨hf, by omega, hd⟩

/-- A search by anniversaries meets every later one. -/
theorem searchYears_searched (now stored : Date) (steps : Nat) (k : Int)
    (hk : -9999 ≤ stored.year + k ∧ stored.year + k ≤ 10000) :
    Searched (.exhausted yearly "years" now) {x | now < x ∧ ∃ j, k ≤ j ∧ stored.IsAnniversary j x}
      (fun x => x.year < stored.year + k + steps) (10000 < stored.year + k + steps)
      (searchYears now stored steps k) := by
  induction steps generalizing k with
  | zero =>
    refine .exhausted ?_ (by omega)
    intro x h
    obtain ⟨-, j, hj, hx⟩ := h
    have hy := hx.1
    omega
  | succ steps ih =>
    unfold searchYears
    cases hp : stored.plusYears k with
    | error limit =>
      have hno : ¬ ∃ e, stored.IsAnniversary k e := by
        intro h
        obtain ⟨e, he⟩ := h
        cases hp.symm.trans (Date.plusYears_eq_ok_iff.mpr he)
      rw [Date.exists_isAnniversary_iff] at hno
      refine .left _ _ ?_ (by omega)
      intro x h
      obtain ⟨-, j, hj, hx⟩ := h
      have hy := hx.1
      have hb := x.year_mem
      omega
    | ok d =>
      have hd := Date.plusYears_eq_ok_iff.mp hp
      have hb := d.year_mem
      have hy := hd.1
      dsimp only
      split
      · rename_i hlt
        refine .found d ⟨⟨hlt, k, le_rfl, hd⟩, ?_⟩ (by omega)
        intro x h
        obtain ⟨-, j, hj, hx⟩ := h
        rcases hj.eq_or_lt with rfl | hj
        · exact (hd.unique hx).le
        · have hyx := hx.1
          exact le_of_lt (Or.inl (by omega))
      -- the `k`th anniversary `d` is past, so the set begins with the next one
      · rename_i hnot
        refine (ih (k + 1) (by omega)).congr ?_ (fun x => by omega) (by omega)
        intro x
        simp only [Set.mem_ofPred_eq]
        constructor
        · intro h
          obtain ⟨hx, j, hj, hxj⟩ := h
          exact ⟨hx, j, by omega, hxj⟩
        · intro h
          obtain ⟨hx, j, hj, hxj⟩ := h
          refine ⟨hx, j, ?_, hxj⟩
          rcases hj.eq_or_lt with rfl | hj
          · rw [hd.unique hxj] at hnot
            exact absurd hx hnot
          · omega

end Rule

end Agenda
