/-!
Binary floating point numbers of double precision: a mantissa of 53 bits times a power of two, none below the power
-1074. `ofRatio` rounds a quotient to the nearest such number, and to the one with an even mantissa when two are
equally near. Signs are kept elsewhere.
-/
namespace Agenda

/-- The number `mantissa * 2 ^ exponent`. -/
structure Binary64 where
  mantissa : Nat
  exponent : Int
  deriving DecidableEq, Repr

namespace Binary64

def minExponent : Int := -1074

/-- The greatest exponent of a finite number. -/
def maxExponent : Int := 971

/-- The least mantissa of a number whose exponent could be less. -/
def leastMantissa : Nat := 0x10000000000000

def zero : Binary64 :=
  ⟨0, minExponent⟩

/-- A power of a base as a quotient, for an exponent of either sign. -/
def powRatio (base : Nat) (e : Int) : Nat × Nat :=
  if 0 ≤ e then (Nat.pow base e.toNat, 1) else (1, Nat.pow base (-e).toNat)

/-- The quotient rounded to the nearest integer, and a half to the even one. -/
def roundHalfEven (num den : Nat) : Nat :=
  let q := num / den
  let twice := 2 * (num % den)
  if den < twice ∨ den = twice ∧ q % 2 = 1 then q + 1 else q

/-- A quotient in units of `2 ^ e`. -/
def scaled (num den : Nat) (e : Int) : Nat × Nat :=
  let p := powRatio 2 e
  (num * p.2, den * p.1)

/-- The exponent that gives a positive quotient 53 bits before the point, unless that is below the least one. -/
def exponentFor (num den : Nat) : Int :=
  let e : Int := num.log2 - den.log2 - 53
  let s := scaled num den e
  max minExponent (if 2 * leastMantissa ≤ s.1 / s.2 then e + 1 else e)

def ofRatio (num den : Nat) : Binary64 :=
  if num = 0 then zero
  else
    let e := exponentFor num den
    let s := scaled num den e
    let m := roundHalfEven s.1 s.2
    -- rounding up may give one bit too many
    if m = 2 * leastMantissa then ⟨leastMantissa, e + 1⟩ else ⟨m, e⟩

def toRatio (x : Binary64) : Nat × Nat :=
  let p := powRatio 2 x.exponent
  (x.mantissa * p.1, p.2)

/-- Whether the number does not exceed the greatest finite one. -/
def isFinite (x : Binary64) : Bool :=
  x.exponent ≤ maxExponent

def ofNat (n : Nat) : Binary64 :=
  ofRatio n 1

def mul (x y : Binary64) : Binary64 :=
  ofRatio (x.toRatio.1 * y.toRatio.1) (x.toRatio.2 * y.toRatio.2)

def div (x y : Binary64) : Binary64 :=
  ofRatio (x.toRatio.1 * y.toRatio.2) (x.toRatio.2 * y.toRatio.1)

end Binary64

end Agenda
