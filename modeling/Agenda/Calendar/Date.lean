import Agenda.Text.Numeral
/-!
Dates of the proleptic Gregorian calendar in the years -9999 to 9999. A `Date` carries the proof that it is a
real one. Dates are ordered by year, then month, then day; `next?` is the following day, and there is none
after the last date of the range.
-/
namespace Agenda

open Text

/-- A year is leap when 4 divides it, unless 100 does and 400 does not. -/
def isLeap (year : Int) : Bool :=
  year % 4 == 0 && (year % 100 != 0 || year % 400 == 0)

def monthLength (year : Int) (month : Nat) : Nat :=
  if month = 2 then (if isLeap year then 29 else 28)
  else if month = 4 ∨ month = 6 ∨ month = 9 ∨ month = 11 then 30
  else 31

theorem monthLength_bounds (year : Int) (month : Nat) :
    28 ≤ monthLength year month ∧ monthLength year month ≤ 31 := by
  unfold monthLength
  split
  · split <;> omega
  · split <;> omega

/-- A real date in the supported range of years. -/
structure Date where
  year : Int
  month : Nat
  day : Nat
  year_mem : -9999 ≤ year ∧ year ≤ 9999
  month_mem : 1 ≤ month ∧ month ≤ 12
  day_mem : 1 ≤ day ∧ day ≤ monthLength year month
  deriving DecidableEq

theorem january_bounds : 1 ≤ 1 ∧ 1 ≤ 12 :=
  ⟨Nat.le_refl 1, by decide⟩

namespace Date

/-- The date with these parts, if it is a real one. -/
def ofParts? (year : Int) (month day : Nat) : Option Date :=
  if h : (-9999 ≤ year ∧ year ≤ 9999) ∧ (1 ≤ month ∧ month ≤ 12) ∧ 1 ≤ day ∧ day ≤ monthLength year month then
    some ⟨year, month, day, h.1, h.2.1, h.2.2⟩
  else none

/-- By year, then month, then day. -/
instance : LT Date where
  lt a b := a.year < b.year ∨ a.year = b.year ∧ (a.month < b.month ∨ a.month = b.month ∧ a.day < b.day)

instance : LE Date where
  le a b := ¬ b < a

instance (a b : Date) : Decidable (a < b) :=
  inferInstanceAs (Decidable (_ ∨ _))

instance (a b : Date) : Decidable (a ≤ b) :=
  inferInstanceAs (Decidable (¬ _))

theorem lt_def {a b : Date} :
    a < b ↔ a.year < b.year ∨ a.year = b.year ∧ (a.month < b.month ∨ a.month = b.month ∧ a.day < b.day) :=
  Iff.rfl

theorem le_def {a b : Date} : a ≤ b ↔ ¬ b < a :=
  Iff.rfl

def latest (a b : Date) : Date :=
  if a < b then b else a

def first : Date :=
  ⟨-9999, 1, 1, by decide, january_bounds, by decide⟩

def last : Date :=
  ⟨9999, 12, 31, by decide, by decide, by decide⟩

def next? (d : Date) : Option Date :=
  if hd : d.day < monthLength d.year d.month then
    some { d with day := d.day + 1, day_mem := by have := d.day_mem; omega }
  else if hm : d.month < 12 then
    some { d with
      month := d.month + 1, day := 1
      month_mem := by omega
      day_mem := by have := monthLength_bounds d.year (d.month + 1); omega }
  else if hy : d.year < 9999 then
    some ⟨d.year + 1, 1, 1, by have := d.year_mem; omega, january_bounds,
      by have := monthLength_bounds (d.year + 1) 1; omega⟩
  else none

/-- The date written with hyphens, as messages show it: the year in four digits, or in six after a sign when it
is negative. -/
def iso (d : Date) : String :=
  let year := if d.year < 0 then '-' :: Numeral.padded 6 d.year.natAbs else Numeral.padded 4 d.year.natAbs
  String.ofList (year ++ '-' :: Numeral.padded 2 d.month ++ '-' :: Numeral.padded 2 d.day)

end Date

end Agenda
