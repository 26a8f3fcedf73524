import Calculator.Proofs.Quotient
import Calculator.Binary64
import Mathlib.Algebra.Order.Field.Power
import Mathlib.Tactic.FieldSimp
import Mathlib.Tactic.Ring

/-!
# The nearest floating-point number

`Binary64.nearest` finds the place of the last binary digit from two logarithms and
rounds there.  The place is the only one that leaves at most 53 digits and, unless it is
the unit's, no fewer; so the result depends on the fraction alone and not on how it is
written.  A fraction that differs from a floating-point number by less than one part in
`2 · 10¹⁶` has that number as its nearest.

## Main definitions

* `Binary64.IsLastPlace x p` — cut at place `p`, `x` has 53 binary digits, or fewer if
  `p` is the unit's place.

## Main results

* `Binary64.isLastPlace_lastPlace` — the place that `lastPlace` finds.
* `Binary64.nearest_mono`, `Binary64.nearest_congr` — greater fractions have greater
  nearest numbers, equal fractions the same one.
* `Binary64.nearest_eq_of_abs_sub_le` — **a fraction close to a floating-point number is
  rounded to it**.
-/

namespace Calculator
namespace Binary64

/-! ### The place of the last digit -/

/-- Whether a number cut at a binary place keeps 53 digits, or fewer at the unit's
place. -/
def IsLastPlace (x : ℚ) (p : Nat) : Prop := x < 2 ^ (p + 53) ∧ (p = 0 ∨ 2 ^ (p + 52) ≤ x)

/-- Greater numbers have higher last places. -/
theorem IsLastPlace.mono {x y : ℚ} {p p' : Nat} (h : IsLastPlace x p) (h' : IsLastPlace y p')
    (hxy : x ≤ y) : p ≤ p' := by
  by_contra hlt
  rw [not_le] at hlt
  rcases h.2 with hzero | hlow
  · omega
  · have hpow : (2 : ℚ) ^ (p' + 53) ≤ 2 ^ (p + 52) :=
      pow_le_pow_right₀ (by norm_num) (by omega)
    exact absurd h'.1 (not_lt.2 (hpow.trans (hlow.trans hxy)))

/-- The last place is a matter of the number alone. -/
theorem IsLastPlace.unique {x : ℚ} {p p' : Nat} (h : IsLastPlace x p) (h' : IsLastPlace x p') :
    p = p' :=
  le_antisymm (h.mono h' le_rfl) (h'.mono h le_rfl)

/-- What the two logarithms say of a fraction: it lies within a factor of two of the
power of two that they suggest. -/
theorem lastPlace_bounds (num : Nat) {den : Nat} (hden : 0 < den) :
    num < den * 2 ^ (lastPlace num den + 53) ∧
      (lastPlace num den = 0 ∨ den * 2 ^ (lastPlace num den + 52) ≤ num) := by
  have hdenLow := Nat.log2_self_le hden.ne'
  have hdenHigh := @Nat.lt_log2_self den
  have hnumHigh := @Nat.lt_log2_self num
  unfold lastPlace
  set guess := num.log2 - (den.log2 + 52) with hguess
  have hhigh : num < den * 2 ^ (guess + 53) := by
    calc num < 2 ^ (num.log2 + 1) := hnumHigh
      _ ≤ 2 ^ (den.log2 + (guess + 53)) := Nat.pow_le_pow_right (by decide) (by omega)
      _ = 2 ^ den.log2 * 2 ^ (guess + 53) := Nat.pow_add ..
      _ ≤ den * 2 ^ (guess + 53) := Nat.mul_le_mul_right _ hdenLow
  dsimp only
  split
  · next hless =>
    obtain ⟨hpos, hless⟩ := hless
    rw [Nat.shiftLeft_eq] at hless
    have hnum : num ≠ 0 := by
      rintro rfl
      simp [Nat.log2_zero] at hguess
      omega
    refine ⟨?_, Or.inr ?_⟩
    · rwa [show guess - 1 + 53 = guess + 52 by omega]
    · calc den * 2 ^ (guess - 1 + 52) ≤ 2 ^ (den.log2 + 1) * 2 ^ (guess - 1 + 52) :=
            Nat.mul_le_mul_right _ hdenHigh.le
        _ = 2 ^ num.log2 := by
            rw [← Nat.pow_add]
            congr 1
            omega
        _ ≤ num := Nat.log2_self_le hnum
  · next hnot =>
    rw [Nat.shiftLeft_eq] at hnot
    exact ⟨hhigh, by omega⟩

theorem isLastPlace_lastPlace (num : Nat) {den : Nat} (hden : 0 < den) :
    IsLastPlace (num / den) (lastPlace num den) := by
  have hpos : (0 : ℚ) < den := by exact_mod_cast hden
  obtain ⟨hhigh, hlow⟩ := lastPlace_bounds num hden
  refine ⟨?_, hlow.imp_right fun hlow => ?_⟩
  · rw [div_lt_iff₀ hpos, mul_comm]
    exact_mod_cast hhigh
  · rw [le_div_iff₀ hpos, mul_comm]
    exact_mod_cast hlow

/-! ### Rounding at the last place -/

theorem cast_fractionSpan : (fractionSpan : ℚ) = 2 ^ 52 := by norm_num [fractionSpan]

/-- A fraction in units of the smallest positive number. -/
def unitsOf (num den : Nat) : ℚ := num / den * unitsPerOne

theorem cast_div_shiftLeft (num den p : Nat) :
    ((num * unitsPerOne : Nat) / (den <<< p : Nat) : ℚ) = unitsOf num den / 2 ^ p := by
  rw [Nat.shiftLeft_eq]
  push_cast
  unfold unitsOf
  rw [div_mul_eq_mul_div, div_div]

theorem isLastPlace_unitsOf (num : Nat) {den : Nat} (hden : 0 < den) :
    IsLastPlace (unitsOf num den) (lastPlace (num * unitsPerOne) den) := by
  have hlast := isLastPlace_lastPlace (num * unitsPerOne) hden
  rwa [Nat.cast_mul, mul_div_right_comm] at hlast

theorem shiftLeft_pos {den : Nat} (p : Nat) (hden : 0 < den) : 0 < den <<< p := by
  rw [Nat.shiftLeft_eq]
  exact Nat.mul_pos hden (Nat.pow_pos (by decide))

theorem nearest_eq {num den p : Nat} (hden : 0 < den) (hp : IsLastPlace (unitsOf num den) p) :
    nearest num den =
      min (p * fractionSpan + roundQuotient (num * unitsPerOne) (den <<< p) .even)
        infinityBits := by
  rw [hp.unique (isLastPlace_unitsOf num hden)]
  rfl

/-- Cut at its last place and rounded, a fraction has 53 digits, or is the first number with
one more. -/
theorem roundQuotient_le_of_isLastPlace {num den p : Nat} (hden : 0 < den)
    (hp : IsLastPlace (unitsOf num den) p) :
    roundQuotient (num * unitsPerOne) (den <<< p) .even ≤ 2 * fractionSpan := by
  refine roundQuotient_le_of_le (shiftLeft_pos p hden) .even ?_
  have hhigh := hp.1
  rw [pow_add] at hhigh
  rw [cast_div_shiftLeft, div_le_iff₀ (by positivity), Nat.cast_mul, cast_fractionSpan]
  push_cast
  linarith

/-- Unless its last place is the unit's, it has no fewer digits either. -/
theorem le_roundQuotient_of_isLastPlace {num den p : Nat} (hden : 0 < den)
    (hp : IsLastPlace (unitsOf num den) p) (hpos : p ≠ 0) :
    fractionSpan ≤ roundQuotient (num * unitsPerOne) (den <<< p) .even := by
  refine le_roundQuotient_of_le (shiftLeft_pos p hden) .even ?_
  have hlow := hp.2.resolve_left hpos
  rw [pow_add] at hlow
  rw [cast_div_shiftLeft, le_div_iff₀ (by positivity), cast_fractionSpan]
  linarith

/-- Greater fractions have greater nearest numbers. -/
theorem nearest_mono {num den num' den' : Nat} (hden : 0 < den) (hden' : 0 < den')
    (h : (num / den : ℚ) ≤ num' / den') : nearest num den ≤ nearest num' den' := by
  have hunits : unitsOf num den ≤ unitsOf num' den' :=
    mul_le_mul_of_nonneg_right h (Nat.cast_nonneg _)
  have hlast := isLastPlace_unitsOf num hden
  have hlast' := isLastPlace_unitsOf num' hden'
  rw [nearest_eq hden hlast, nearest_eq hden' hlast']
  refine min_le_min_right _ ?_
  generalize lastPlace (num * unitsPerOne) den = p at *
  generalize lastPlace (num' * unitsPerOne) den' = p' at *
  rcases Nat.lt_or_eq_of_le (hlast.mono hlast' hunits) with hlt | rfl
  · -- rounding may carry into the next place, but not beyond its first number
    have hcarry := roundQuotient_le_of_isLastPlace hden hlast
    have hfull := le_roundQuotient_of_isLastPlace hden' hlast' (by omega)
    have hplaces : (p + 1) * fractionSpan ≤ p' * fractionSpan := Nat.mul_le_mul_right _ hlt
    rw [Nat.add_mul] at hplaces
    omega
  · refine Nat.add_le_add_left (roundQuotient_mono (shiftLeft_pos _ hden) (shiftLeft_pos _ hden')
      ?_ .even) _
    rw [cast_div_shiftLeft, cast_div_shiftLeft]
    exact div_le_div_of_nonneg_right hunits (by positivity)

/-- Equal fractions have the same nearest number. -/
theorem nearest_congr {num den num' den' : Nat} (hden : 0 < den) (hden' : 0 < den')
    (h : (num / den : ℚ) = num' / den') : nearest num den = nearest num' den' :=
  le_antisymm (nearest_mono hden hden' h.le) (nearest_mono hden' hden h.ge)

/-- A fraction less than half a unit of the last place away from a number with that last
place is rounded to it. -/
theorem nearest_eq_of_abs_sub_lt {num den p q : Nat} (hden : 0 < den)
    (hp : IsLastPlace (unitsOf num den) p) (h : |unitsOf num den - q * 2 ^ p| < 2 ^ p / 2) :
    nearest num den = min (p * fractionSpan + q) infinityBits := by
  have hpow : (0 : ℚ) < 2 ^ p := by positivity
  have hround : roundQuotient (num * unitsPerOne) (den <<< p) .even = q := by
    refine roundQuotient_eq_of_abs_lt (shiftLeft_pos p hden) .even ?_
    rw [abs_lt] at h ⊢
    rw [cast_div_shiftLeft, lt_sub_iff_add_lt, sub_lt_iff_lt_add, lt_div_iff₀ hpow,
      div_lt_iff₀ hpow]
    constructor <;> linarith
  rw [nearest_eq hden hp, hround]

/-! ### The parts of a magnitude -/

theorem significand_lt (bits : Nat) : significand bits < 2 ^ 53 := by
  unfold significand fractionSpan
  split <;> omega

theorem significand_add (bits : Nat) :
    (bits / fractionSpan - 1) * fractionSpan + significand bits = bits := by
  unfold significand fractionSpan
  split <;> omega

/-- A number whose last place is not the unit's has all 53 digits. -/
theorem le_significand {bits : Nat} (h : 0 < bits / fractionSpan - 1) :
    fractionSpan ≤ significand bits := by
  unfold significand
  split
  · next hlt =>
    rw [Nat.div_eq_of_lt hlt] at h
    omega
  · exact Nat.le_add_right ..

theorem cast_multiple (bits : Nat) :
    (multiple bits : ℚ) = significand bits * 2 ^ (bits / fractionSpan - 1) := by
  rw [multiple, Nat.shiftLeft_eq]
  push_cast
  rfl

/-- **A fraction close to a floating-point number is rounded to it.**  The bound is less
than half the distance to the next number on either side; just below a power of two the
numbers lie twice as close, and there the fraction may be cut at the place below. -/
theorem nearest_eq_of_abs_sub_le {num den bits : Nat} (hden : 0 < den)
    (hbits : bits < infinityBits)
    (h : |unitsOf num den - multiple bits| ≤ multiple bits / (2 * 10 ^ 16)) :
    nearest num den = bits := by
  have hparts := significand_add bits
  have hfull : bits / fractionSpan - 1 = 0 ∨ fractionSpan ≤ significand bits :=
    (Nat.eq_zero_or_pos _).imp_right le_significand
  have hsignificand : ((significand bits : Nat) : ℚ) + 1 ≤ 2 ^ 53 := by
    exact_mod_cast Nat.succ_le_of_lt (significand_lt bits)
  rw [cast_multiple] at h
  generalize bits / fractionSpan - 1 = p at *
  generalize significand bits = s at *
  generalize hx : unitsOf num den = x at *
  obtain ⟨hlow, hhigh⟩ := abs_le.1 h
  have hpow : (0 : ℚ) < 2 ^ p := by positivity
  have hscaled : (s + 1 : ℚ) * 2 ^ p ≤ 2 ^ 53 * 2 ^ p :=
    mul_le_mul_of_nonneg_right hsignificand hpow.le
  have hhalf : |x - s * 2 ^ p| < 2 ^ p / 2 := h.trans_lt (by linarith)
  by_cases hplace : p = 0 ∨ 2 ^ (p + 52) ≤ x
  · have hlast : IsLastPlace x p := by
      refine ⟨?_, hplace⟩
      rw [pow_add]
      linarith
    rw [nearest_eq_of_abs_sub_lt hden (hx ▸ hlast) (hx ▸ hhalf), hparts]
    exact min_eq_left hbits.le
  · -- the number is a power of two, and the fraction lies just below it
    rw [not_or, not_le, pow_add] at hplace
    obtain ⟨hpositive, hbelow⟩ := hplace
    obtain ⟨k, rfl⟩ : ∃ k, p = k + 1 := ⟨p - 1, by omega⟩
    have hleast : s = fractionSpan := by
      by_contra hne
      have hmore : fractionSpan + 1 ≤ s := by omega
      have hmore' : (2 ^ 52 + 1 : ℚ) ≤ s := by exact_mod_cast hmore
      have := mul_le_mul_of_nonneg_right hmore' hpow.le
      linarith
    have hpow' : (0 : ℚ) < 2 ^ k := by positivity
    rw [hleast, cast_fractionSpan, pow_succ _ k] at hlow
    rw [pow_succ _ k] at hbelow
    have hlast : IsLastPlace x k := by
      rw [IsLastPlace, pow_add, pow_add]
      exact ⟨by linarith, Or.inr (by linarith)⟩
    have hnear : |x - (2 * fractionSpan : Nat) * 2 ^ k| < 2 ^ k / 2 := by
      rw [Nat.cast_mul, cast_fractionSpan, abs_lt]
      push_cast
      constructor <;> linarith
    rw [nearest_eq_of_abs_sub_lt hden (hx ▸ hlast) (hx ▸ hnear),
      show k * fractionSpan + 2 * fractionSpan = bits by
        rw [← hparts, hleast]
        ring]
    exact min_eq_left hbits.le

end Binary64
end Calculator
