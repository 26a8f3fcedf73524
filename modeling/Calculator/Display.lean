import Calculator.Decimal.Places
import Calculator.Decimal.Shortest

/-!
# How a result is shown

A finite result is taken at its shortest decimal, rounded to a number of places,
and written in its shortest form: `5` rather than `5.0`, and `0.3` for the sum
of `0.1` and `0.2`.  Numbers from a millionth up to, and without, `10²¹` are
written out; all others get an exponent.  Zero has no sign.  What is not finite
is shown as an error.

## Main definitions

* `positional`, `scientific` — the two ways to write digits.
* `Decimal.text` — the canonical text of a decimal.
* `display places x` — the text of a result.
-/

namespace Calculator

/-- How many places a result is rounded to unless told otherwise. -/
def defaultPlaces : Int := 10

/-- What stands for a result that is not finite. -/
def errorText : String := "Error"

/-- The first place that is not written out before the point. -/
def positionalEnd : Int := 21

/-- The last place after the point at which a number written out may begin. -/
def positionalStart : Int := -6

/-- Digits written out, the last of them at the given place: zeros fill the gap
to the point on either side. -/
def positional (digits : List Char) (place : Int) : List Char :=
  if 0 ≤ place then digits ++ List.replicate place.toNat '0'
  else
    let after := (-place).toNat
    let padded := List.replicate (after + 1 - digits.length) '0' ++ digits
    let before := padded.length - after
    padded.take before ++ '.' :: padded.drop before

/-- An exponent: its sign, and its digits without zeros in front. -/
def exponentText (e : Int) : List Char :=
  (if e < 0 then '-' else '+') :: Nat.toDigits 10 e.natAbs

/-- Digits with the point after the first, and an exponent that says where the
first of them stands. -/
def scientific (digits : List Char) (leadingPlace : Int) : List Char :=
  digits.take 1 ++ (if digits.length ≤ 1 then [] else '.' :: digits.drop 1) ++
    'e' :: exponentText leadingPlace

namespace Decimal

/-- Whether a number is written out. -/
def isPositional (d : Decimal) : Bool :=
  decide (positionalStart ≤ d.leadingPlace) && decide (d.leadingPlace < positionalEnd)

/-- The text of a magnitude other than zero. -/
def magnitudeText (d : Decimal) : List Char :=
  let digits := Nat.toDigits 10 d.coefficient
  if d.isPositional then positional digits d.exponent else scientific digits d.leadingPlace

/-- The text of a decimal: `0` for zero, and otherwise the sign, if it is a minus,
and the digits of the normalized form. -/
def text (d : Decimal) : String :=
  if d.coefficient = 0 then "0"
  else String.ofList ((if d.negative then ['-'] else []) ++ d.normalized.magnitudeText)

end Decimal

/-- The text of a result, rounded to a number of places. -/
def display (places : Int) (x : Float) : Except Decimal.Failure String :=
  if x.isFinite then ((Decimal.ofFloat x).roundTo places).map Decimal.text
  else .ok errorText

/-- A result that is not finite is shown as an error, whatever the places. -/
theorem display_of_not_isFinite {x : Float} (h : x.isFinite = false) (places : Int) :
    display places x = .ok errorText := by
  simp [display, h]

/-- A finite result is shown as the text of its decimal, once that is rounded. -/
theorem display_of_roundTo {x : Float} {places : Int} {rounded : Decimal} (hx : x.isFinite = true)
    (h : (Decimal.ofFloat x).roundTo places = .ok rounded) :
    display places x = .ok rounded.text := by
  rw [display, if_pos hx, h]
  rfl

end Calculator
