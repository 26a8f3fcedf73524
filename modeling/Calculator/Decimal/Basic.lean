import Calculator.Binary64

/-!
# Decimal numbers

A decimal number is a sign, a coefficient and a power of ten.  One value has
many such forms: `5`, `50 · 10⁻¹`, `500 · 10⁻²`.  The form without zeros at the
end of the coefficient is the reduced one.

## Main definitions

* `powerOfTen`, `digitCount`, `trailingZeros` — the decimal digits of natural numbers.
* `Decimal` — a decimal number in one of its forms.
* `Decimal.numerator`, `Decimal.denominator` — its magnitude as a fraction.
* `Decimal.toFloat` — the floating-point number nearest to it.
* `Decimal.leadingPlace` — the place of its first digit.
* `Decimal.reduced` — the form without zeros at the end.
-/

namespace Calculator

/-- A decimal number: `± coefficient · 10 ^ exponent`. -/
structure Decimal where
  /-- Whether the number bears a minus sign; zero may bear one. -/
  negative : Bool
  /-- The digits, as a natural number. -/
  coefficient : Nat
  /-- The place of the last digit: zero for the units, negative after the point. -/
  exponent : Int
  deriving DecidableEq, Repr, Inhabited

/-- How many decimal digits a natural number is written with. -/
def digitCount (n : Nat) : Nat := (Nat.toDigits 10 n).length

/-- A power of ten. -/
def powerOfTen (n : Nat) : Nat := Nat.pow 10 n

@[simp] theorem powerOfTen_zero : powerOfTen 0 = 1 := rfl

theorem powerOfTen_succ (n : Nat) : powerOfTen (n + 1) = powerOfTen n * 10 := rfl

theorem powerOfTen_pos (n : Nat) : 0 < powerOfTen n := Nat.pow_pos (by decide)

/-- How many zeros stand at the end of the digits of a natural number; zero itself
is taken to have none. -/
def trailingZeros (n : Nat) : Nat :=
  if 0 < n ∧ n % 10 = 0 then trailingZeros (n / 10) + 1 else 0

namespace Decimal

/-- The magnitude times `denominator`. -/
def numerator (d : Decimal) : Nat := d.coefficient * powerOfTen d.exponent.toNat

/-- The power of ten that makes the magnitude a natural number. -/
def denominator (d : Decimal) : Nat := powerOfTen (-d.exponent).toNat

/-- The floating-point number nearest to a decimal number, of the same sign. -/
def toFloat (d : Decimal) : Float :=
  Binary64.ofMagnitude d.negative (Binary64.nearest d.numerator d.denominator)

/-- The place of the first digit of the coefficient. -/
def leadingPlace (d : Decimal) : Int := d.exponent + digitCount d.coefficient - 1

/-- The same value without zeros at the end of the coefficient. -/
def reduced (d : Decimal) : Decimal :=
  let zeros := trailingZeros d.coefficient
  { d with coefficient := d.coefficient / powerOfTen zeros, exponent := d.exponent + zeros }

theorem denominator_pos (d : Decimal) : 0 < d.denominator := powerOfTen_pos _

end Decimal

/-- A number is made of its digits before the zeros at its end, and the zeros. -/
theorem exists_mul_powerOfTen_trailingZeros (n : Nat) :
    ∃ m, n = m * powerOfTen (trailingZeros n) := by
  fun_induction trailingZeros n with
  | case1 n h ih =>
    obtain ⟨m, hm⟩ := ih
    refine ⟨m, ?_⟩
    rw [powerOfTen_succ, ← Nat.mul_assoc, ← hm]
    omega
  | case2 n h => exact ⟨n, (Nat.mul_one n).symm⟩

end Calculator
