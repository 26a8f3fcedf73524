import Calculator.Decimal.Basic

/-!
# Number literals

A number literal is a run of digits with at most one decimal point in it, before
it or after it.  The run denotes a decimal number exactly; its value as a
floating-point number is the nearest one, which is infinity for a literal
beyond all finite numbers.

## Main definitions

* `isLiteralChar` — the characters a literal is made of.
* `IsLiteral` — which runs of them are literals.
* `literal?` — the number that a run denotes.
-/

namespace Calculator

/-- The decimal point. -/
def decimalPoint : Char := '.'

/-- A character of a number literal: one of the ten digits, or the point. -/
def isLiteralChar (c : Char) : Bool := c.isDigit || c == decimalPoint

/-- A run of literal characters is a literal when it has at most one point and is
not a point alone. -/
def IsLiteral (run : List Char) : Prop :=
  run.count decimalPoint ≤ 1 ∧ run ≠ [decimalPoint]

instance (run : List Char) : Decidable (IsLiteral run) :=
  inferInstanceAs (Decidable (_ ∧ _))

/-- How many digits of a run stand after its first point. -/
def fractionPlaces (run : List Char) : Nat :=
  ((run.dropWhile (· ≠ decimalPoint)).drop 1).length

/-- The number a run denotes: its digits without the point, and the place of the
last of them. -/
def literalValue (run : List Char) : Decimal :=
  { negative := false
    coefficient := Nat.ofDigitChars 10 (run.filter (· ≠ decimalPoint)) 0
    exponent := -(fractionPlaces run : Int) }

/-- The number that a run of literal characters denotes, if it is a literal. -/
def literal? (run : List Char) : Option Decimal :=
  if IsLiteral run then some (literalValue run) else none

theorem literal?_eq_some {run : List Char} (h : IsLiteral run) :
    literal? run = some (literalValue run) := if_pos h

theorem literal?_eq_none {run : List Char} (h : ¬ IsLiteral run) : literal? run = none :=
  if_neg h

example : literal? ['.'] = none ∧ literal? ['1', '.', '.'] = none := by decide +kernel

end Calculator
