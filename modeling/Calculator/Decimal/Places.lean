import Calculator.Decimal.Basic

/-!
# Rounding to a number of places

A decimal is rounded to a number of places after the point; a negative number of
places rounds before it.  A number half-way between two neighbours goes to the
greater one, whatever its sign.

A decimal that has no digits beyond the last place kept is left as it is.  All
others are refused when the place to round to is too far before the point: it
is named by an exponent, and exponents have a largest value.

## Main definitions

* `Decimal.Failure` — why a decimal cannot be rounded.
* `Decimal.roundTo places d` — `d` rounded to `places` places.
* `Decimal.normalized d` — `d` in at most `maxDigits` digits, without zeros at
  the end.
-/

namespace Calculator
namespace Decimal

/-- Why a decimal cannot be rounded to a place. -/
inductive Failure
  /-- The place lies above the largest exponent. -/
  | overflow
  /-- The place lies outside everything that can be asked for, or the rounded
  number has more digits than are kept. -/
  | invalidOperation
  deriving DecidableEq, Repr

/-- How many digits are kept of a number. -/
def maxDigits : Nat := 28

/-- The largest exponent. -/
def maxExponent : Int := 999999

/-- The largest exponent that can be asked for. -/
def maxShift : Int := 2 * (maxExponent + maxDigits)

/-- Where a half goes so that it moves toward the greater number: away from zero
above it, toward zero below it. -/
def halfUp (d : Decimal) : Tie := if d.negative then .down else .up

/-- A decimal rounded to a multiple of `10 ^ exponent`, for an exponent that is
not below its own. -/
def rescale (exponent : Int) (d : Decimal) : Decimal :=
  { negative := d.negative
    coefficient := roundQuotient d.coefficient (powerOfTen (exponent - d.exponent).toNat) d.halfUp
    exponent := exponent }

/-- A decimal rounded to `places` places after the point. -/
def roundTo (places : Int) (d : Decimal) : Except Failure Decimal :=
  if -places ≤ d.exponent then .ok d
  else if maxShift < -places then .error .invalidOperation
  else if maxExponent < -places then .error .overflow
  else
    let rounded := d.rescale (-places)
    if digitCount rounded.coefficient ≤ maxDigits then .ok rounded
    else .error .invalidOperation

/-- A decimal cut to `maxDigits` digits, a half going to the even neighbour. -/
def fitted (d : Decimal) : Decimal :=
  let excess := digitCount d.coefficient - maxDigits
  { negative := d.negative
    coefficient := roundQuotient d.coefficient (powerOfTen excess) .even
    exponent := d.exponent + excess }

/-- A decimal in at most `maxDigits` digits, without zeros at the end. -/
def normalized (d : Decimal) : Decimal := d.fitted.reduced

/-- Digits that all lie within the places kept are left alone. -/
theorem roundTo_of_le {places : Int} {d : Decimal} (h : -places ≤ d.exponent) :
    d.roundTo places = .ok d := if_pos h

/-- A number that has few enough digits is not cut. -/
theorem fitted_of_le {d : Decimal} (h : digitCount d.coefficient ≤ maxDigits) :
    d.fitted = d := by
  have hround : roundQuotient d.coefficient 1 .even = d.coefficient := by
    simpa using @roundQuotient_mul d.coefficient 1 (by decide) .even
  simp [fitted, Nat.sub_eq_zero_of_le h, hround]

end Decimal
end Calculator
