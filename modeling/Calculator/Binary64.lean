import Calculator.Rounding

/-!
# Binary floating point in exact arithmetic

A finite floating-point number is a natural multiple of the smallest positive
one, `2⁻¹⁰⁷⁴`.  This module reads that multiple off the bits of a number and,
in the other direction, finds the bits of the number nearest to a fraction, all
in exact arithmetic.  The sign is kept apart: *magnitude bits* are the bits of a
number with the sign bit cleared, and larger magnitudes have larger bits.

## Main definitions

* `Binary64.multiple bits` — the magnitude, in units of `2⁻¹⁰⁷⁴`.
* `Binary64.nearest num den` — the magnitude bits nearest to `num / den`.
* `Binary64.magnitudeBits`, `Binary64.isNegative`, `Binary64.ofMagnitude` — a
  number taken apart and put together.
-/

namespace Calculator
namespace Binary64

/-- How many fractions share one exponent: `2⁵²`. -/
def fractionSpan : Nat := 0x10000000000000

/-- How many magnitudes there are, infinity and what lies beyond it included: `2⁶³`. -/
def magnitudeSpan : Nat := 0x8000000000000000

/-- How many units the number one is made of: the smallest positive number is
the reciprocal of it. -/
def unitsPerOne : Nat := 1 <<< 1074

/-- The magnitude bits of infinity; smaller bits are those of finite numbers. -/
def infinityBits : Nat := 0x7ff * fractionSpan

/-- The stored fraction, with the leading bit that normal numbers leave out. -/
def significand (bits : Nat) : Nat :=
  if bits < fractionSpan then bits else fractionSpan + bits % fractionSpan

/-- The magnitude as a multiple of the smallest positive number. -/
def multiple (bits : Nat) : Nat := significand bits <<< (bits / fractionSpan - 1)

/-- How many binary places the last place of `num / den` stands above the unit,
once the quotient is cut to 53 binary digits: the least `p` with
`num < den <<< (p + 53)`. -/
def lastPlace (num den : Nat) : Nat :=
  let p := num.log2 - (den.log2 + 52)
  if 0 < p ∧ num < den <<< (p + 52) then p - 1 else p

/-- The magnitude bits of the number nearest to `num / den`, a tie going to the
even significand.  Rounding up past the largest significand carries into the
exponent, and everything beyond the largest finite number is infinity. -/
def nearest (num den : Nat) : Nat :=
  let units := num * unitsPerOne
  let p := lastPlace units den
  min (p * fractionSpan + roundQuotient units (den <<< p) .even) infinityBits

/-- The bits of a number without its sign. -/
def magnitudeBits (x : Float) : Nat := x.toBits.toNat % magnitudeSpan

/-- Whether the sign bit of a number is set. -/
def isNegative (x : Float) : Bool := decide (magnitudeSpan ≤ x.toBits.toNat)

/-- The number with the given sign and magnitude bits. -/
def ofMagnitude (negative : Bool) (bits : Nat) : Float :=
  Float.ofBits (UInt64.ofNat (if negative then magnitudeSpan + bits else bits))

theorem nearest_le_infinityBits (num den : Nat) : nearest num den ≤ infinityBits :=
  Nat.min_le_right _ _

/-- Nothing rounds to nothing. -/
@[simp] theorem nearest_zero (den : Nat) : nearest 0 den = 0 := by
  have hround : ∀ d, roundQuotient 0 d .even = 0 := by
    intro d
    by_cases hd : d = 0 <;> simp [roundQuotient, hd]
  simp [nearest, lastPlace, hround, Nat.log2_zero]

end Binary64
end Calculator
