/-!
# Rounding a quotient

Every rounding of this library is that of a fraction to a neighbouring natural
number: the nearer neighbour, with a rule for the fraction half-way between the
two.

## Main definitions

* `Tie` — the rule for the half-way case.
* `roundQuotient num den tie` — the natural number next to `num / den`.

## Main results

* `roundQuotient_eq_or` — the result is one of the two neighbours.
* `roundQuotient_mul` — a whole number is its own rounding.
-/

namespace Calculator

/-- Where a number half-way between two neighbours goes. -/
inductive Tie
  /-- To the larger neighbour. -/
  | up
  /-- To the smaller neighbour. -/
  | down
  /-- To the even neighbour. -/
  | even
  deriving DecidableEq, Repr

/-- The neighbour that half-way between `q` and `q + 1` goes to. -/
def Tie.settle : Tie → Nat → Nat
  | .up, q => q + 1
  | .down, q => q
  | .even, q => q + q % 2

@[simp] theorem Tie.settle_up (q : Nat) : Tie.up.settle q = q + 1 := rfl

@[simp] theorem Tie.settle_down (q : Nat) : Tie.down.settle q = q := rfl

@[simp] theorem Tie.settle_even (q : Nat) : Tie.even.settle q = q + q % 2 := rfl

/-- The natural number nearest to `num / den`. -/
def roundQuotient (num den : Nat) (tie : Tie) : Nat :=
  if 2 * (num % den) < den then num / den
  else if den < 2 * (num % den) then num / den + 1
  else tie.settle (num / den)

theorem Tie.settle_eq_or (tie : Tie) (q : Nat) : tie.settle q = q ∨ tie.settle q = q + 1 := by
  cases tie with
  | up => exact Or.inr rfl
  | down => exact Or.inl rfl
  | even => rcases Nat.mod_two_eq_zero_or_one q with h | h <;> simp [h]

/-- A rounding is one of the two neighbours. -/
theorem roundQuotient_eq_or (num den : Nat) (tie : Tie) :
    roundQuotient num den tie = num / den ∨ roundQuotient num den tie = num / den + 1 := by
  unfold roundQuotient
  split
  · exact Or.inl rfl
  · split
    · exact Or.inr rfl
    · exact tie.settle_eq_or _

example : roundQuotient 5 2 .up = 3 ∧ roundQuotient 5 2 .down = 2 ∧
    roundQuotient 5 2 .even = 2 ∧ roundQuotient 7 2 .even = 4 := by decide

/-- A whole number is its own rounding. -/
@[simp] theorem roundQuotient_mul (q : Nat) {den : Nat} (hden : 0 < den) (tie : Tie) :
    roundQuotient (q * den) den tie = q := by
  simp [roundQuotient, Nat.mul_mod_left, Nat.mul_div_cancel q hden, hden]

end Calculator
