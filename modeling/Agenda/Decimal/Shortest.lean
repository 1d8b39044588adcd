import Agenda.Decimal.Binary64
import Agenda.Text.Numeral
/-!
The shortest decimal text of a binary floating point number: the fewest digits that are read back as the same
number, of those with as many digits the nearest, and of two equally near the one with an even last digit. A number
is written with a point where its first digit lies between the sixteenth place before the point and the fifth place
after it, and with an exponent elsewhere.
-/
namespace Agenda.Binary64

open Text

/-- The bounds of the numbers that round to `x`, as quotients: below, above. -/
def neighbours (x : Binary64) : (Nat × Nat) × (Nat × Nat) :=
  let p := powRatio 2 (x.exponent - 2)
  -- below a power of two the numbers lie twice as dense
  let down := if x.mantissa = leastMantissa ∧ minExponent < x.exponent then 1 else 2
  (((4 * x.mantissa - down) * p.1, p.2), ((4 * x.mantissa + 2) * p.1, p.2))

/-- Whether `n * 10 ^ k` rounds to `x`. The bounds do when the mantissa is even. -/
def readsBack (x : Binary64) (n : Nat) (k : Int) : Bool :=
  let p := powRatio 10 k
  let (low, high) := x.neighbours
  let atLow := low.1 * p.2
  let atHigh := high.1 * p.2
  let valueLow := n * p.1 * low.2
  let valueHigh := n * p.1 * high.2
  if x.mantissa % 2 = 0 then atLow ≤ valueLow && valueHigh ≤ atHigh else atLow < valueLow && valueHigh < atHigh

/-- The place of the first digit of a positive quotient: the greatest `e` with `10 ^ e` not above it. -/
def firstPlace (num den : Nat) : Int :=
  let guess : Int := ((num.log2 : Int) - den.log2) * 30103 / 100000
  let reaches (e : Int) : Bool :=
    let p := powRatio 10 e
    den * p.1 ≤ num * p.2
  if reaches (guess + 1) then guess + 1
  else if reaches guess then guess
  else guess - 1

/-- The nearest of the two decimals next to `x` that have their last digit at place `k` and read back as `x`; the even
one when both are equally near. -/
def nearest? (x : Binary64) (k : Int) : Option Nat :=
  let p := powRatio 10 k
  let num := x.toRatio.1 * p.2
  let den := x.toRatio.2 * p.1
  let near := roundHalfEven num den
  let far := if near = num / den then near + 1 else near - 1
  if x.readsBack near k then some near
  else if x.readsBack far k then some far
  else none

/-- The digits of the shortest decimal that reads back as `x`, as an integer and the place of its last digit, with
at most `left` more digits to try. Seventeen digits always read back. -/
def shortestFrom (x : Binary64) (k : Int) : (left : Nat) → Nat × Int
  | 0 => ((x.nearest? k).getD 0, k)
  | left + 1 =>
    match x.nearest? k with
    | some n => (n, k)
    | none => shortestFrom x (k - 1) left

/-- The shortest decimal that reads back as a positive number: an integer and the place of its last digit. -/
def shortest (x : Binary64) : Nat × Int :=
  let r := x.toRatio
  x.shortestFrom (firstPlace r.1 r.2) 16

/-- The digits of a positive integer without the zeros at its end, and how many zeros there were. -/
def significant (n : Nat) : List Char × Nat :=
  let ds := (Numeral.digits n).reverse
  ((ds.dropWhile (· == '0')).reverse, (ds.takeWhile (· == '0')).length)

/-- Writes digits whose last one is at place `k`. -/
def writeDigits (ds : List Char) (k : Int) : List Char :=
  let first : Int := k + ds.length - 1
  if first < -5 ∨ 15 < first then
    let fraction := match ds.tail with
      | [] => []
      | rest => '.' :: rest
    let sign := if 0 ≤ first then ['+'] else []
    ds.take 1 ++ fraction ++ 'e' :: sign ++ Numeral.ofInt first
  else if 0 ≤ k then ds ++ List.replicate k.toNat '0' ++ ['.', '0']
  else if 0 ≤ first then ds.take (first + 1).toNat ++ '.' :: ds.drop (first + 1).toNat
  else '0' :: '.' :: List.replicate (-first - 1).toNat '0' ++ ds

def text (x : Binary64) : List Char :=
  if x.mantissa = 0 then ['0', '.', '0']
  else
    let (n, k) := x.shortest
    let (ds, zeros) := significant n
    writeDigits ds (k + zeros)

end Agenda.Binary64
