import Agenda.Calendar.Date
/-!
Months in a row, and the dates within one. Negative days of a month count back from its end, so that -1 is the
last day; a day that the month does not have resolves to no date.
-/
namespace Agenda

/-- A month of a supported year. -/
structure Month where
  year : Int
  number : Nat
  year_mem : -9999 ≤ year ∧ year ≤ 9999
  number_mem : 1 ≤ number ∧ number ≤ 12

namespace Month

def ofDate (d : Date) : Month :=
  ⟨d.year, d.month, d.year_mem, d.month_mem⟩

def length (m : Month) : Nat :=
  monthLength m.year m.number

def first (m : Month) : Date :=
  ⟨m.year, m.number, 1, m.year_mem, m.number_mem, by
    have := monthLength_bounds m.year m.number; omega⟩

def next? (m : Month) : Option Month :=
  if h : m.number < 12 then
    some { m with number := m.number + 1, number_mem := by omega }
  else if hy : m.year < 9999 then
    some ⟨m.year + 1, 1, by have := m.year_mem; omega, january_bounds⟩
  else none

/-- The date on a given day of the month, counted from the end when negative. -/
def resolve? (m : Month) (day : Int) : Option Date :=
  let day := if day < 0 then m.length + 1 + day else day
  if h : 1 ≤ day ∧ day ≤ m.length then
    some ⟨m.year, m.number, day.toNat, m.year_mem, m.number_mem, by
      unfold length at h; omega⟩
  else none

end Month

end Agenda
