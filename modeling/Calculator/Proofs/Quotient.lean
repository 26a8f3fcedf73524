import Calculator.Rounding
import Mathlib.Data.Rat.Floor
import Mathlib.Tactic.Linarith

/-!
# The rounding of a quotient, over the rationals

`roundQuotient` compares natural numbers.  Here its result is placed against the
quotient itself: it is never more than one half away from it, and with the half-way
case going up it is the floor of the quotient and one half.  A negative quotient is
rounded to the same floor by rounding its magnitude with the half-way case going down.

## Main results

* `abs_roundQuotient_sub_le` — a rounding is at most one half away.
* `RoundsBetween.abs_sub_le_abs_sub`, `RoundsBetween.even_of_tie` — nothing is nearer, and
  what is as near makes the rounding even.
* `roundQuotient_eq_of_abs_lt` — a natural number less than one half away is the rounding.
* `roundQuotient_mono` — greater quotients have greater roundings.
* `roundQuotient_up_eq_floor`, `neg_roundQuotient_down_eq_floor` — the half-way case
  goes up, for both signs.
-/

namespace Calculator

variable {num den : Nat}

/-- Distances counted in a unit. -/
theorem abs_mul_sub {c : ℚ} (hc : 0 < c) (a u : ℚ) : |a * c - u| = |a - u / c| * c := by
  rw [← abs_of_pos hc, ← abs_mul, abs_of_pos hc, sub_mul, div_mul_cancel₀ _ hc.ne']

/-- The ways `x` is rounded between its neighbours `q` and `q + 1`: below the half-way
point, above it, and on it. -/
def RoundsBetween (x : ℚ) (tie : Tie) (q rounded : Nat) : Prop :=
  (q ≤ x ∧ x < q + 1 / 2 ∧ rounded = q) ∨
    ((q : ℚ) + 1 / 2 < x ∧ x < q + 1 ∧ rounded = q + 1) ∨
    (x = q + 1 / 2 ∧ rounded = tie.settle q)

theorem roundsBetween_roundQuotient (num : Nat) (hden : 0 < den) (tie : Tie) :
    RoundsBetween (num / den) tie (num / den) (roundQuotient num den tie) := by
  have hpos : (0 : ℚ) < den := by exact_mod_cast hden
  have hsplit : (num : ℚ) = den * (num / den : Nat) + (num % den : Nat) := by
    exact_mod_cast (Nat.div_add_mod num den).symm
  have hmod : ((num % den : Nat) : ℚ) < den := by exact_mod_cast Nat.mod_lt num hden
  have hnonneg : (0 : ℚ) ≤ (num % den : Nat) := Nat.cast_nonneg _
  unfold RoundsBetween roundQuotient
  rw [le_div_iff₀ hpos, div_lt_iff₀ hpos, lt_div_iff₀ hpos, div_lt_iff₀ hpos, div_eq_iff hpos.ne']
  split
  · next hbelow =>
    have hbelow' : 2 * ((num % den : Nat) : ℚ) < den := by exact_mod_cast hbelow
    refine Or.inl ⟨by linarith, by linarith, rfl⟩
  · next hnot =>
    split
    · next habove =>
      have habove' : (den : ℚ) < 2 * (num % den : Nat) := by exact_mod_cast habove
      refine Or.inr (Or.inl ⟨by linarith, by linarith, rfl⟩)
    · next hnot' =>
      have htie : 2 * ((num % den : Nat) : ℚ) = den := by
        exact_mod_cast (show 2 * (num % den) = den by omega)
      exact Or.inr (Or.inr ⟨by linarith, rfl⟩)

namespace RoundsBetween

variable {x : ℚ} {tie : Tie} {q q' rounded rounded' : Nat}

/-- A rounding is one of the two neighbours. -/
theorem eq_or (h : RoundsBetween x tie q rounded) : rounded = q ∨ rounded = q + 1 := by
  rcases h with ⟨-, -, h⟩ | ⟨-, -, h⟩ | ⟨-, rfl⟩
  · exact Or.inl h
  · exact Or.inr h
  · exact tie.settle_eq_or q

/-- A rounding is at most one half away. -/
theorem abs_sub_le (h : RoundsBetween x tie q rounded) : |(rounded : ℚ) - x| ≤ 1 / 2 := by
  rw [abs_le]
  rcases h with ⟨hlow, hhigh, rfl⟩ | ⟨hlow, hhigh, rfl⟩ | ⟨heq, rfl⟩
  · constructor <;> linarith
  · push_cast
    constructor <;> linarith
  · rcases tie.settle_eq_or q with hsettle | hsettle
    · rw [hsettle]
      constructor <;> linarith
    · rw [hsettle]
      push_cast
      constructor <;> linarith

/-- A number lies from its lower neighbour on, and before its upper one. -/
theorem le_and_lt (h : RoundsBetween x tie q rounded) : q ≤ x ∧ x < q + 1 := by
  rcases h with ⟨hlow, hhigh, -⟩ | ⟨hlow, hhigh, -⟩ | ⟨heq, -⟩ <;> constructor <;> linarith

/-- Greater numbers have greater neighbours. -/
theorem below_le {y : ℚ} (h : RoundsBetween x tie q rounded) (h' : RoundsBetween y tie q' rounded')
    (hxy : x ≤ y) : q ≤ q' := by
  have hlt : (q : ℚ) < q' + 1 := (h.le_and_lt.1.trans hxy).trans_lt h'.le_and_lt.2
  exact Nat.lt_succ_iff.1 (by exact_mod_cast hlt)

/-- Greater numbers have greater roundings. -/
theorem mono {y : ℚ} (h : RoundsBetween x tie q rounded) (h' : RoundsBetween y tie q' rounded')
    (hxy : x ≤ y) : rounded ≤ rounded' := by
  have hneighbour := h.eq_or
  have hneighbour' := h'.eq_or
  rcases Nat.lt_or_eq_of_le (h.below_le h' hxy) with hlt | rfl
  · omega
  · -- between the same neighbours the side of the half-way point counts
    rcases h with ⟨-, -, hq⟩ | ⟨hlow, -, hq⟩ | ⟨heq, hq⟩
    · omega
    · rcases h' with ⟨-, hhigh', -⟩ | ⟨-, -, hq'⟩ | ⟨heq', -⟩
      · linarith
      · omega
      · linarith
    · rcases h' with ⟨-, hhigh', -⟩ | ⟨-, -, hq'⟩ | ⟨-, hq'⟩
      · linarith
      · omega
      · exact (hq.trans hq'.symm).le

/-- No natural number is nearer than a rounding. -/
theorem abs_sub_le_abs_sub (h : RoundsBetween x tie q rounded) (n : Nat) :
    |(rounded : ℚ) - x| ≤ |n - x| := by
  obtain ⟨hlow, hhigh⟩ := h.le_and_lt
  have hround := abs_le.1 h.abs_sub_le
  rcases Nat.lt_or_ge q n with hlt | hge
  · -- from the upper neighbour on
    have hn : (q + 1 : ℚ) ≤ n := by exact_mod_cast hlt
    rw [abs_of_nonneg (show 0 ≤ (n : ℚ) - x by linarith), abs_le]
    rcases h with ⟨_, _, rfl⟩ | ⟨_, _, rfl⟩ | ⟨_, rfl⟩
    · constructor <;> linarith
    · push_cast
      constructor <;> linarith
    · constructor <;> linarith
  · have hn : (n : ℚ) ≤ q := by exact_mod_cast hge
    rw [abs_of_nonpos (show (n : ℚ) - x ≤ 0 by linarith), abs_le]
    rcases h with ⟨_, _, rfl⟩ | ⟨_, _, rfl⟩ | ⟨_, rfl⟩
    · constructor <;> linarith
    · push_cast
      constructor <;> linarith
    · constructor <;> linarith

/-- If another natural number is as near, the rounding is even. -/
theorem even_of_tie (h : RoundsBetween x .even q rounded) {n : Nat} (hne : n ≠ rounded)
    (htie : |(n : ℚ) - x| = |rounded - x|) : rounded % 2 = 0 := by
  have hcases : n < rounded ∨ rounded + 1 ≤ n := Nat.lt_or_gt_of_ne hne
  rcases h with ⟨hlow, hhigh, rfl⟩ | ⟨hlow, hhigh, rfl⟩ | ⟨-, rfl⟩
  · exfalso
    rw [abs_of_nonpos (show (rounded : ℚ) - x ≤ 0 by linarith)] at htie
    rcases hcases with hlt | hgt
    · have hn : (n : ℚ) + 1 ≤ rounded := by exact_mod_cast hlt
      rw [abs_of_nonpos (by linarith)] at htie
      linarith
    · have hn : (rounded : ℚ) + 1 ≤ n := by exact_mod_cast hgt
      rw [abs_of_nonneg (by linarith)] at htie
      linarith
  · exfalso
    push_cast at htie
    rw [abs_of_nonneg (show 0 ≤ (q + 1 : ℚ) - x by linarith)] at htie
    rcases hcases with hlt | hgt
    · have hn : (n : ℚ) ≤ q := by exact_mod_cast Nat.lt_succ_iff.1 hlt
      rw [abs_of_nonpos (by linarith)] at htie
      linarith
    · have hn : (q : ℚ) + 1 + 1 ≤ n := by exact_mod_cast hgt
      rw [abs_of_nonneg (by linarith)] at htie
      linarith
  · rw [Tie.settle_even]
    omega

theorem up_eq_floor (h : RoundsBetween x .up q rounded) : (rounded : ℤ) = ⌊x + 1 / 2⌋ := by
  rw [eq_comm, Int.floor_eq_iff]
  rcases h with ⟨hlow, hhigh, rfl⟩ | ⟨hlow, hhigh, rfl⟩ | ⟨heq, rfl⟩ <;>
    push_cast [Tie.settle_up] <;> constructor <;> linarith

theorem neg_down_eq_floor (h : RoundsBetween x .down q rounded) :
    -(rounded : ℤ) = ⌊-x + 1 / 2⌋ := by
  rw [eq_comm, Int.floor_eq_iff]
  rcases h with ⟨hlow, hhigh, rfl⟩ | ⟨hlow, hhigh, rfl⟩ | ⟨heq, rfl⟩ <;>
    push_cast [Tie.settle_down] <;> constructor <;> linarith

end RoundsBetween

/-- A rounding is at most one half away from the quotient. -/
theorem abs_roundQuotient_sub_le (num : Nat) (hden : 0 < den) (tie : Tie) :
    |(roundQuotient num den tie : ℚ) - num / den| ≤ 1 / 2 :=
  (roundsBetween_roundQuotient num hden tie).abs_sub_le

/-- A natural number less than one half away from the quotient is its rounding. -/
theorem roundQuotient_eq_of_abs_lt (hden : 0 < den) (tie : Tie) {q : Nat}
    (h : |(num / den : ℚ) - q| < 1 / 2) : roundQuotient num den tie = q := by
  have hround := abs_roundQuotient_sub_le num hden tie
  rw [abs_lt] at h
  rw [abs_le] at hround
  -- two natural numbers less than one apart are the same
  have hbelow : ((roundQuotient num den tie : Nat) : ℚ) < (q + 1 : Nat) := by
    push_cast
    linarith
  have habove : ((q : Nat) : ℚ) < (roundQuotient num den tie + 1 : Nat) := by
    push_cast
    linarith
  rw [Nat.cast_lt] at hbelow habove
  omega

/-- A quotient up to a natural number is not rounded beyond it. -/
theorem roundQuotient_le_of_le (hden : 0 < den) (tie : Tie) {n : Nat} (h : (num / den : ℚ) ≤ n) :
    roundQuotient num den tie ≤ n := by
  have hround := (abs_le.1 (abs_roundQuotient_sub_le num hden tie)).2
  have hlt : (roundQuotient num den tie : ℚ) < (n + 1 : Nat) := by
    push_cast
    linarith
  exact Nat.lt_succ_iff.1 (Nat.cast_lt.1 hlt)

/-- A quotient from a natural number on is not rounded below it. -/
theorem le_roundQuotient_of_le (hden : 0 < den) (tie : Tie) {n : Nat} (h : n ≤ (num / den : ℚ)) :
    n ≤ roundQuotient num den tie := by
  have hround := (abs_le.1 (abs_roundQuotient_sub_le num hden tie)).1
  have hlt : (n : ℚ) < (roundQuotient num den tie + 1 : Nat) := by
    push_cast
    linarith
  exact Nat.lt_succ_iff.1 (Nat.cast_lt.1 hlt)

/-- Greater quotients have greater roundings. -/
theorem roundQuotient_mono {num' den' : Nat} (hden : 0 < den) (hden' : 0 < den')
    (h : (num / den : ℚ) ≤ num' / den') (tie : Tie) :
    roundQuotient num den tie ≤ roundQuotient num' den' tie :=
  (roundsBetween_roundQuotient num hden tie).mono (roundsBetween_roundQuotient num' hden' tie) h

/-- With the half-way case going up, the rounding is the floor of the quotient and one
half. -/
theorem roundQuotient_up_eq_floor (num : Nat) (hden : 0 < den) :
    ((roundQuotient num den .up : Nat) : ℤ) = ⌊(num / den : ℚ) + 1 / 2⌋ :=
  (roundsBetween_roundQuotient num hden .up).up_eq_floor

/-- The half-way case of a negative quotient goes up when that of its magnitude goes
down. -/
theorem neg_roundQuotient_down_eq_floor (num : Nat) (hden : 0 < den) :
    -((roundQuotient num den .down : Nat) : ℤ) = ⌊-(num / den : ℚ) + 1 / 2⌋ :=
  (roundsBetween_roundQuotient num hden .down).neg_down_eq_floor

end Calculator
