import Calculator.Decimal.Basic

/-!
# The shortest decimal of a floating-point number

A floating-point number is known by the shortest decimal that reads back as it,
that is, to which it is the nearest floating-point number.  Of several decimals
of that length it is the one nearest to the number.  Seventeen digits are always
enough.

The search tries the lengths in turn.  At one length the decimals lie on a grid,
and if any grid point reads back then so does one of the two neighbours of the
number on that grid.

A decimal is written down with its digits around the point, or, if it is far from
one, with an exponent.  Written around the point, a whole number gets one zero
behind it.

## Main definitions

* `readsBack bits d` — the magnitude with these bits is nearest to `d`.
* `integerDigits num den` — the place, counted from the point, of the first digit
  of a fraction.
* `decimalOfLength? bits digits` — the decimal of one length that reads back.
* `shortest bits` — the shortest decimal of a finite magnitude.
* `Decimal.pointed d` — a decimal in the form in which it is written.
* `Decimal.ofFloat x` — the shortest decimal of a finite number, with its sign, in
  the form in which it is written.
-/

namespace Calculator

/-- Whether a decimal, without its sign, reads back as the magnitude with the
given bits. -/
def readsBack (bits : Nat) (d : Decimal) : Bool :=
  Binary64.nearest d.numerator d.denominator == bits

/-- The least `k` with `num / den < 10 ^ k`: the number of digits before the
point, and for a fraction below one tenth minus the number of zeros after it. -/
def integerDigits (num den : Nat) : Int :=
  if den ≤ num then digitCount (num / den) else 1 - (digitCount ((den - 1) / num) : Int)

/-- The decimals on the grid `10 ^ exponent` that are tried for `num / den`: the
nearer neighbour first, then both. -/
def gridNeighbours (num den : Nat) (exponent : Int) : List Decimal :=
  let scaledNum := num * powerOfTen (-exponent).toNat
  let scaledDen := den * powerOfTen exponent.toNat
  let below := scaledNum / scaledDen
  [roundQuotient scaledNum scaledDen .even, below, below + 1].map (⟨false, ·, exponent⟩)

/-- The most digits that the shortest decimal of a number can need. -/
def maxShortestDigits : Nat := 17

/-- The exact decimal of a magnitude. -/
def exactDecimal (bits : Nat) : Decimal :=
  ⟨false, Binary64.multiple bits * Nat.pow 5 1074, -1074⟩

/-- A decimal of the given number of digits that reads back, if there is one: the
one nearest to the magnitude. -/
def decimalOfLength? (bits digits : Nat) : Option Decimal :=
  let num := Binary64.multiple bits
  let den := Binary64.unitsPerOne
  (gridNeighbours num den (integerDigits num den - digits)).find? (readsBack bits)

/-- The shortest decimal of the finite magnitude with the given bits.  A grid point
can be the next power of ten, and then it is reduced to a single digit. -/
def shortest (bits : Nat) : Decimal :=
  if bits = 0 then ⟨false, 0, 0⟩
  else
    let found := (List.range' 1 maxShortestDigits).findSome? (decimalOfLength? bits)
    (found.getD (exactDecimal bits)).reduced

/-- The first place before the point at which digits are not written around it. -/
def wholeEnd : Int := 16

/-- A decimal in the form in which it is written: around the point, a whole number has
one zero behind it. -/
def Decimal.pointed (d : Decimal) : Decimal :=
  if 0 ≤ d.exponent ∧ d.leadingPlace < wholeEnd then
    { d with coefficient := d.coefficient * powerOfTen (d.exponent + 1).toNat, exponent := -1 }
  else d

/-- The shortest decimal of a finite number, with its sign, in the form in which it is
written. -/
def Decimal.ofFloat (x : Float) : Decimal :=
  Decimal.pointed
    { shortest (Binary64.magnitudeBits x) with negative := Binary64.isNegative x }

@[simp] theorem shortest_zero : shortest 0 = ⟨false, 0, 0⟩ := rfl

end Calculator
