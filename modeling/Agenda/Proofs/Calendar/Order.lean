import Agenda.Calendar.Date
import Mathlib.Order.Bounds.Basic
import Mathlib.Order.MinMax
/-!
The calendar order is a linear order: by year, then month, then day, and the three determine the date.
`Date.latest` is its maximum, and the range runs from `Date.first` to `Date.last`.
-/
namespace Agenda

namespace Date

theorem ext_parts {a b : Date} (hy : a.year = b.year) (hm : a.month = b.month) (hd : a.day = b.day) :
    a = b := by
  cases a
  cases b
  cases hy
  cases hm
  cases hd
  rfl

instance : LinearOrder Date where
  le_refl a := by
    rw [le_def, lt_def]
    omega
  le_trans a b c hab hbc := by
    rw [le_def, lt_def] at hab hbc ⊢
    omega
  lt_iff_le_not_ge a b := by
    rw [le_def, le_def, lt_def, lt_def]
    omega
  le_antisymm a b hab hba := by
    rw [le_def, lt_def] at hab hba
    exact ext_parts (by omega) (by omega) (by omega)
  le_total a b := by
    rw [le_def, le_def, lt_def, lt_def]
    omega
  toDecidableLE := inferInstance
  toDecidableLT := inferInstance
  toDecidableEq := inferInstance

theorem latest_eq_max (a b : Date) : a.latest b = max a b := by
  unfold latest
  split
  · exact (max_eq_right (le_of_lt ‹_›)).symm
  · exact (max_eq_left (not_lt.mp ‹_›)).symm

theorem latest_lt_iff {a b d : Date} : a.latest b < d ↔ a < d ∧ b < d := by
  rw [latest_eq_max, max_lt_iff]

theorem first_le (d : Date) : first ≤ d := by
  have hy := d.year_mem
  have hm := d.month_mem
  have hd := d.day_mem
  rw [le_def, lt_def]
  simp only [first]
  omega

theorem le_last (d : Date) : d ≤ last := by
  have hy := d.year_mem
  have hm := d.month_mem
  have hd := d.day_mem
  have hl := monthLength_bounds d.year d.month
  rw [le_def, lt_def]
  simp only [last]
  omega

end Date

end Agenda
