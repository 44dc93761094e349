import Pushdown.Number.Decimal

/-!
# Decimals rounded step by step

A quick reader of decimals takes in digits as long as they make a number of 64 bits, and counts
the places of the others. It then rounds more than once: the number is rounded to a double, and
that is multiplied with or divided by the double nearest to a power of ten. Each of these is the
nearest double, but the outcome may miss the double nearest to the decimal.

## Operations

* `Binary.times`, `Binary.divided`: a product and a quotient, rounded to the nearest;
* `Double.ofParts`: the double of a number and a power of ten;
* `Double.ofDigits`: the double of digits around a point.
-/

namespace Pushdown

namespace Binary

variable {f : Format}

/-- The number one, in units of the smallest positive datum. -/
def unitsPerOne (f : Format) : Nat := Nat.pow 2 (-f.unitExponent).toNat

/-- The product of two finite data, rounded to the nearest. -/
def times (x y : Binary f) : Binary f :=
  ofRatio (x.negative != y.negative) (x.units.natAbs * y.units.natAbs)
    (unitsPerOne f * unitsPerOne f)

/-- The quotient of two finite data, the second not zero, rounded to the nearest. -/
def divided (x y : Binary f) : Binary f :=
  ofRatio (x.negative != y.negative) x.units.natAbs y.units.natAbs

end Binary

namespace Double

/-- The double nearest to a power of ten. -/
def tenTo (places : Nat) : Double := Binary.ofRatio false (Nat.pow 10 places) 1

/-- The largest power of ten below infinity. -/
def maxPlaces : Nat := 308

/-- A double multiplied with a power of ten: infinity from the first one that is no double, and
divided by several of them where one is not enough. -/
def scaled (x : Double) (power : Int) : Double :=
  if 0 ≤ power then
    if power ≤ maxPlaces then x.times (tenTo power.toNat)
    else if x.magnitude = 0 then x
    else Binary.infinity x.negative
  else if -power ≤ maxPlaces then x.divided (tenTo (-power).toNat)
  else if x.magnitude = 0 then x
  else scaled (x.divided (tenTo maxPlaces)) (power + maxPlaces)
termination_by (-power).toNat
decreasing_by
  have : (0 : Int) < maxPlaces := by decide
  omega

/-- The double of `significand * 10 ^ power`, rounded step by step. -/
def ofParts (negative : Bool) (significand : Nat) (power : Int) : Double :=
  scaled (Binary.ofRatio negative significand 1) power

/-- A number with more digits behind it, as long as it has 64 bits, and the digits from there. -/
def absorb (significand : Nat) : List Char → Nat × List Char
  | [] => (significand, [])
  | c :: rest =>
      let next := 10 * significand + digitValue c
      if next < 18446744073709551616 then absorb next rest else (significand, c :: rest)

/-- The double of digits before and behind a point, times a power of ten. -/
def ofDigits (negative : Bool) (whole fraction : List Char) (power : Int) : Double :=
  let (start, left) := absorb 0 whole
  let (significand, cut) := absorb start fraction
  ofParts negative significand (left.length + power - (fraction.length - cut.length))

end Double

end Pushdown
