import Pushdown.Number.Width

/-!
# Binary floating-point numbers

A datum of an interchange format is a sign and a magnitude word. Magnitude words
order like the numbers they stand for: the finite ones come first, then infinity,
then the words that are not numbers. All arithmetic here is exact arithmetic on
natural numbers followed by one rounding to the nearest datum, ties to even.

## Operations

* `Binary.units`: the exact value, as a multiple of the smallest positive datum;
* `Binary.compare?`, `Binary.equals`: the ordering of numbers, where something
  that is not a number is neither less than, equal to nor greater than anything;
* `Binary.ofRatio`, `Binary.ofInt`, `Binary.ofDecimal`: the nearest datum.
-/

namespace Pushdown

/-- Widths of the two fields of a magnitude word. -/
structure Format where
  fractionBits : Nat
  exponentBits : Nat
deriving DecidableEq

namespace Format

/-- The 64-bit interchange format. -/
def binary64 : Format := ⟨52, 11⟩

/-- The 32-bit interchange format. -/
def binary32 : Format := ⟨23, 8⟩

/-- Number of magnitude words. -/
def size (f : Format) : Nat := Nat.pow 2 (f.fractionBits + f.exponentBits)

/-- Magnitude word of infinity: exponent field all ones, fraction zero. -/
def infinity (f : Format) : Nat :=
  (Nat.pow 2 f.exponentBits - 1) * Nat.pow 2 f.fractionBits

/-- Power of two of the smallest positive datum. -/
def unitExponent (f : Format) : Int :=
  2 - (Nat.pow 2 (f.exponentBits - 1) : Nat) - f.fractionBits

theorem infinity_lt_size (f : Format) : f.infinity < f.size := by
  have h : 0 < Nat.pow 2 f.exponentBits := Nat.two_pow_pos _
  have hf : 0 < Nat.pow 2 f.fractionBits := Nat.two_pow_pos _
  have hs : f.size = Nat.pow 2 f.exponentBits * Nat.pow 2 f.fractionBits :=
    (Nat.pow_add 2 _ _).trans (Nat.mul_comm _ _)
  rw [hs]
  exact Nat.mul_lt_mul_of_pos_right (Nat.sub_lt h Nat.one_pos) hf

end Format

/-- A sign and a magnitude word. -/
structure Binary (f : Format) where
  negative : Bool
  magnitude : Nat
  magnitude_lt : magnitude < f.size
deriving DecidableEq

/-- Double precision. -/
abbrev Double := Binary Format.binary64

/-- Single precision. -/
abbrev Single := Binary Format.binary32

/-- The quotient of two naturals rounded to the nearest, a half to the even one. -/
def roundDiv (num den : Nat) : Nat :=
  let quotient := num / den
  let twice := 2 * (num % den)
  if twice < den then quotient
  else if den < twice then quotient + 1
  else if quotient % 2 = 0 then quotient
  else quotient + 1

namespace Binary

variable {f : Format}

/-- A magnitude word, cut off at infinity. -/
def ofMagnitude (negative : Bool) (magnitude : Nat) : Binary f :=
  ⟨negative, min magnitude f.infinity,
    Nat.lt_of_le_of_lt (Nat.min_le_right _ _) f.infinity_lt_size⟩

/-- Zero of a sign. -/
def zero (negative : Bool) : Binary f := ofMagnitude negative 0

/-- Infinity of a sign. -/
def infinity (negative : Bool) : Binary f := ofMagnitude negative f.infinity

/-- The datum written where there is no number. -/
def notANumber : Binary f :=
  ⟨false, f.size - 1, Nat.sub_lt (Nat.two_pow_pos _) Nat.one_pos⟩

def isNaN (x : Binary f) : Bool := f.infinity < x.magnitude

def isInfinite (x : Binary f) : Bool := x.magnitude = f.infinity

def isFinite (x : Binary f) : Bool := x.magnitude < f.infinity

/-- Position of a number among all numbers; both zeros share theirs. -/
def rank (x : Binary f) : Int :=
  if x.negative then -(x.magnitude : Int) else x.magnitude

/-- Ordering of two numbers; none when one of them is not a number. -/
def compare? (x y : Binary f) : Option Ordering :=
  if x.isNaN || y.isNaN then none else some (compare x.rank y.rank)

/-- Numeric equality: zeros are equal, and nothing equals what is not a number. -/
def equals (x y : Binary f) : Bool :=
  compare? x y == some .eq

/-- Exponent field. -/
def exponentField (x : Binary f) : Nat := x.magnitude / Nat.pow 2 f.fractionBits

/-- Integer significand, hidden bit included. -/
def significand (x : Binary f) : Nat :=
  let fraction := x.magnitude % Nat.pow 2 f.fractionBits
  if x.exponentField = 0 then fraction else fraction + Nat.pow 2 f.fractionBits

/-- Binary places of the significand above the smallest positive datum. -/
def shift (x : Binary f) : Nat := x.exponentField - 1

/-- The exact value of a finite datum, in units of the smallest positive one. -/
def units (x : Binary f) : Int :=
  let size : Int := (x.significand * Nat.pow 2 x.shift : Nat)
  if x.negative then -size else size

/-- Places to shift so that `num / den` has a full significand, none if it is small. -/
def placesFor (f : Format) (num den : Nat) : Nat :=
  let lower : Int := (Nat.log2 num : Int) - Nat.log2 den - 1
  let full : Int := lower - f.fractionBits - f.unitExponent
  let scaled (places : Nat) : Bool :=
    let exponent : Int := f.unitExponent + places
    Nat.pow 2 (f.fractionBits + 1) * den * Nat.pow 2 exponent.toNat ≤
      num * Nat.pow 2 (-exponent).toNat
  if scaled full.toNat then full.toNat + 1 else full.toNat

/-- The datum nearest to `num / den`. -/
def ofRatio (negative : Bool) (num den : Nat) : Binary f :=
  let places := placesFor f num den
  let exponent : Int := f.unitExponent + places
  let rounded :=
    roundDiv (num * Nat.pow 2 (-exponent).toNat) (den * Nat.pow 2 exponent.toNat)
  if num = 0 then zero negative
  else ofMagnitude negative (places * Nat.pow 2 f.fractionBits + rounded)

/-- The datum nearest to an integer. -/
def ofInt (i : Int) : Binary f := ofRatio (i < 0) i.natAbs 1

/-- The datum nearest to `coefficient * 10 ^ power`. -/
def ofDecimal (negative : Bool) (coefficient : Nat) (power : Int) : Binary f :=
  let lead : Int := (Nat.log2 coefficient : Int) * 30103 / 100000 + power
  if coefficient = 0 then zero negative
  else if lead < -400 then zero negative
  else if 400 < lead then infinity negative
  else ofRatio negative (coefficient * Nat.pow 10 power.toNat) (Nat.pow 10 (-power).toNat)

end Binary

end Pushdown
