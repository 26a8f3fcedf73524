import Calculator.Proofs.Bits
import Calculator.Proofs.DecimalValue
import Calculator.Proofs.Nearest

/-!
# Nothing is nearer than the nearest floating-point number

`Binary64.nearest` rounds a fraction at the place of its 53rd binary digit.  That this
gives the nearest of all floating-point numbers is a matter of two cases.  A number whose
last place is not lower is a whole multiple of the unit of that place, and rounding is to
the nearest of these.  A number whose last place is lower is less than the power of two
that the fraction begins with, and that one is such a multiple, too.

## Main definitions

* `Binary64.rational x` — the rational number that a finite floating-point number is.
* `Binary64.IsNearest y r` — `y` is the floating-point number nearest to `r`, and the even
  one if there are two.

## Main results

* `Binary64.nearest_isNearest` — magnitudes.
* `Decimal.isNearest_toFloat` — **the floating-point number of a decimal is the nearest one**.
* `Decimal.nearest_lt_infinityBits`, `Decimal.nearest_pos` — decimals that are not beyond the
  floating-point numbers, and not next to zero.
-/

namespace Calculator
namespace Binary64

/-- The rational number that a finite floating-point number is. -/
def rational (x : Float) : ℚ :=
  (if isNegative x then -1 else 1) * (multiple (magnitudeBits x) / unitsPerOne)

/-- A floating-point number is the nearest one to a rational: it is finite, no finite one is
nearer, and if another one is as near then its own significand is even. -/
structure IsNearest (y : Float) (r : ℚ) : Prop where
  /-- It is finite. -/
  finite : y.isFinite = true
  /-- No finite number is nearer. -/
  le : ∀ z : Float, z.isFinite = true → |rational y - r| ≤ |rational z - r|
  /-- If another number is as near, the last bit is not set. -/
  even : ∀ z : Float, z.isFinite = true → rational z ≠ rational y →
    |rational z - r| = |rational y - r| → magnitudeBits y % 2 = 0

/-! ### Magnitudes -/

/-- The magnitude of a number that is put together from a place and 53 digits, or from the
first number with one more. -/
theorem multiple_place {p q : Nat} (hq : q ≤ 2 * fractionSpan) (hp : p ≠ 0 → fractionSpan ≤ q) :
    multiple (p * fractionSpan + q) = q * 2 ^ p := by
  have hspan : 0 < fractionSpan := by decide
  rw [multiple, significand, Nat.shiftLeft_eq]
  rcases Nat.lt_or_ge q fractionSpan with hlt | hge
  · -- few digits, at the unit's place
    obtain rfl : p = 0 := by
      by_contra hne
      exact absurd (hp hne) (Nat.not_le.2 hlt)
    rw [Nat.zero_mul, Nat.zero_add, if_pos hlt, Nat.div_eq_of_lt hlt]
  · have hnot : ¬ p * fractionSpan + q < fractionSpan :=
      Nat.not_lt.2 (hge.trans (Nat.le_add_left ..))
    obtain ⟨r, rfl⟩ := Nat.exists_eq_add_of_le hge
    have hsum : p * fractionSpan + (fractionSpan + r) = r + fractionSpan * (p + 1) := by ring
    rw [if_neg hnot, hsum, Nat.add_mul_div_left _ _ hspan, Nat.add_mul_mod_self_left]
    rcases Nat.lt_or_ge r fractionSpan with hlt | hge'
    · rw [Nat.div_eq_of_lt hlt, Nat.mod_eq_of_lt hlt, Nat.zero_add, Nat.add_sub_cancel]
    · obtain rfl : r = fractionSpan := by omega
      rw [Nat.div_self hspan, Nat.mod_self, Nat.add_comm 1 (p + 1), Nat.add_sub_cancel, pow_succ]
      ring

/-- Seen from any place, a magnitude is a whole multiple of its unit, or has a lower place
itself. -/
theorem multiple_cases (bits p : Nat) :
    (∃ n : Nat, (multiple bits : ℚ) = n * 2 ^ p) ∨
      (p ≠ 0 ∧ (multiple bits : ℚ) < 2 ^ (p + 52)) := by
  rw [cast_multiple]
  have hsignificand : ((significand bits : Nat) : ℚ) < 2 ^ 53 := by
    exact_mod_cast significand_lt bits
  generalize bits / fractionSpan - 1 = p' at *
  rcases Nat.lt_or_ge p' p with hlt | hge
  · refine Or.inr ⟨by omega, ?_⟩
    calc (significand bits : ℚ) * 2 ^ p' < 2 ^ 53 * 2 ^ p' :=
          mul_lt_mul_of_pos_right hsignificand (by positivity)
      _ = 2 ^ (p' + 53) := by rw [pow_add, mul_comm]
      _ ≤ 2 ^ (p + 52) := pow_le_pow_right₀ (by norm_num) (by omega)
  · refine Or.inl ⟨significand bits * 2 ^ (p' - p), ?_⟩
    push_cast
    rw [mul_assoc, ← pow_add, Nat.sub_add_cancel hge]

/-- The nearest number is the fraction rounded at its last place. -/
theorem exists_nearest_place {num den : Nat} (hden : 0 < den)
    (hfinite : nearest num den < infinityBits) :
    ∃ p q below : Nat, IsLastPlace (unitsOf num den) p ∧
      RoundsBetween (unitsOf num den / 2 ^ p) .even below q ∧
      nearest num den = p * fractionSpan + q ∧
      (multiple (nearest num den) : ℚ) = q * 2 ^ p := by
  have hlast := isLastPlace_unitsOf num hden
  have heq := nearest_eq hden hlast
  have hcarry := roundQuotient_le_of_isLastPlace hden hlast
  have hfull := @le_roundQuotient_of_isLastPlace num den _ hden hlast
  have hround := roundsBetween_roundQuotient (num * unitsPerOne)
    (shiftLeft_pos (lastPlace (num * unitsPerOne) den) hden) .even
  rw [cast_div_shiftLeft] at hround
  have hbits := heq
  rw [heq] at hfinite
  rw [min_eq_left (by omega)] at hbits
  refine ⟨_, _, _, hlast, hround, hbits, ?_⟩
  rw [hbits, multiple_place hcarry hfull]
  push_cast
  rfl

/-- No magnitude is nearer to a fraction than the nearest one, and if another is as near
then its last bit is not set. -/
theorem nearest_isNearest {num den : Nat} (hden : 0 < den)
    (hfinite : nearest num den < infinityBits) (bits : Nat) :
    |(multiple (nearest num den) : ℚ) - unitsOf num den| ≤ |multiple bits - unitsOf num den| ∧
    (multiple bits ≠ multiple (nearest num den) →
      |(multiple bits : ℚ) - unitsOf num den| = |multiple (nearest num den) - unitsOf num den| →
        nearest num den % 2 = 0) := by
  obtain ⟨p, q, below, hlast, hround, hbits, hnearest⟩ := exists_nearest_place hden hfinite
  generalize unitsOf num den = u at *
  have hpow : (0 : ℚ) < 2 ^ p := by positivity
  have hgrid : ∀ n : Nat, |(q : ℚ) * 2 ^ p - u| ≤ |n * 2 ^ p - u| := by
    intro n
    rw [abs_mul_sub hpow, abs_mul_sub hpow]
    exact mul_le_mul_of_nonneg_right (hround.abs_sub_le_abs_sub n) hpow.le
  rcases multiple_cases bits p with ⟨n, hn⟩ | ⟨hp, hlow⟩
  · rw [hnearest, hn]
    refine ⟨hgrid n, ?_⟩
    intro hne htie
    have hother : n ≠ q := by
      rintro rfl
      exact hne (by exact_mod_cast hn.trans hnearest.symm)
    rw [abs_mul_sub hpow, abs_mul_sub hpow, mul_left_inj' hpow.ne'] at htie
    have heven := hround.even_of_tie hother htie
    rw [hbits, fractionSpan]
    omega
  · -- the power of two that the fraction begins with lies between
    have hhigh : (2 : ℚ) ^ (p + 52) ≤ u := hlast.2.resolve_left hp
    have hbetween := hgrid (2 ^ 52)
    have hpower : ((2 ^ 52 : Nat) : ℚ) * 2 ^ p = 2 ^ (p + 52) := by
      rw [Nat.cast_pow, Nat.cast_ofNat, pow_add, mul_comm]
    rw [hpower, abs_of_nonpos (sub_nonpos.2 hhigh)] at hbetween
    have hfar : |(multiple bits : ℚ) - u| = u - multiple bits := by
      rw [abs_of_nonpos (by linarith), neg_sub]
    rw [hnearest, hfar]
    refine ⟨by linarith, ?_⟩
    intro _ htie
    exfalso
    linarith

/-- Up to a power of two, a fraction and its nearest number are at most half a unit apart of the
last place that numbers have below it. -/
theorem abs_multiple_nearest_sub_le {num den p : Nat} (hden : 0 < den)
    (hfinite : nearest num den < infinityBits) (h : unitsOf num den ≤ 2 ^ (p + 53)) :
    |(multiple (nearest num den) : ℚ) - unitsOf num den| ≤ 2 ^ p / 2 := by
  rcases lt_or_eq_of_le h with hlt | heq
  · obtain ⟨p', q, below, hlast, hround, -, hnearest⟩ := exists_nearest_place hden hfinite
    have hplace : p' ≤ p := by
      rcases hlast.2 with hzero | hlow
      · omega
      · have hpower := (pow_lt_pow_iff_right₀ one_lt_two).1 (hlow.trans_lt hlt)
        omega
    calc |(multiple (nearest num den) : ℚ) - unitsOf num den|
        = |q - unitsOf num den / 2 ^ p'| * 2 ^ p' := by rw [hnearest, abs_mul_sub (by positivity)]
      _ ≤ 1 / 2 * 2 ^ p' := mul_le_mul_of_nonneg_right hround.abs_sub_le (by positivity)
      _ ≤ 1 / 2 * 2 ^ p := mul_le_mul_of_nonneg_left
          (pow_le_pow_right₀ one_le_two hplace) (by norm_num)
      _ = 2 ^ p / 2 := by ring
  · -- the power of two is a number itself
    have hpower : (multiple ((p + 1) * fractionSpan + fractionSpan) : ℚ) = 2 ^ (p + 53) := by
      rw [multiple_place (by omega) (fun _ => le_rfl), Nat.cast_mul, cast_fractionSpan]
      push_cast
      ring
    have hbest := (nearest_isNearest hden hfinite ((p + 1) * fractionSpan + fractionSpan)).1
    rw [hpower, heq, sub_self, abs_zero] at hbest
    rw [heq]
    exact hbest.trans (by positivity)

/-! ### Numbers -/

theorem cast_unitsPerOne_pos : (0 : ℚ) < unitsPerOne := by
  have hpos : 0 < unitsPerOne := shiftLeft_pos 1074 Nat.one_pos
  exact_mod_cast hpos

theorem multiple_div_nonneg (bits : Nat) : (0 : ℚ) ≤ multiple bits / unitsPerOne :=
  div_nonneg (Nat.cast_nonneg _) cast_unitsPerOne_pos.le

theorem abs_rational (x : Float) :
    |rational x| = multiple (magnitudeBits x) / unitsPerOne := by
  have hnonneg := multiple_div_nonneg (magnitudeBits x)
  unfold rational
  split
  · rw [neg_one_mul, abs_neg, abs_of_nonneg hnonneg]
  · rw [one_mul, abs_of_nonneg hnonneg]

/-- The negative of a finite number has the same magnitude and the other sign. -/
theorem neg_ofMagnitude {bits : Nat} (h : bits < infinityBits) (negative : Bool) :
    -(ofMagnitude negative bits) = ofMagnitude (!negative) bits := by
  have hfinite : (ofMagnitude negative bits).isFinite = true := by
    rw [isFinite_iff, magnitudeBits_ofMagnitude h.le]
    exact h
  rw [← ofMagnitude_magnitudeBits (-(ofMagnitude negative bits)), magnitudeBits_neg hfinite,
    isNegative_neg hfinite, magnitudeBits_ofMagnitude h.le, isNegative_ofMagnitude h.le]

end Binary64

namespace Decimal

open Binary64

/-- A magnitude in units of the smallest positive number. -/
theorem magnitude_eq_unitsOf (d : Decimal) :
    d.magnitude = unitsOf d.numerator d.denominator / unitsPerOne := by
  rw [unitsOf, d.numerator_div_denominator, mul_div_cancel_right₀ _ cast_unitsPerOne_pos.ne']

/-- The distance of a magnitude from that of a decimal, in units. -/
theorem abs_sub_magnitude (d : Decimal) (bits : Nat) :
    |(multiple bits : ℚ) / unitsPerOne - d.magnitude| =
      |multiple bits - unitsOf d.numerator d.denominator| / unitsPerOne := by
  rw [magnitude_eq_unitsOf, ← sub_div, abs_div, abs_of_pos cast_unitsPerOne_pos]

variable {d : Decimal}

theorem magnitudeBits_toFloat (d : Decimal) :
    magnitudeBits d.toFloat = nearest d.numerator d.denominator :=
  magnitudeBits_ofMagnitude (nearest_le_infinityBits ..) d.negative

theorem isFinite_toFloat (hfinite : nearest d.numerator d.denominator < infinityBits) :
    d.toFloat.isFinite = true := by
  rw [isFinite_iff, magnitudeBits_toFloat]
  exact hfinite

/-- The floating-point number of a decimal lies on the same side of zero. -/
theorem abs_rational_toFloat_sub (d : Decimal) :
    |rational d.toFloat - d.value| =
      |(multiple (nearest d.numerator d.denominator) : ℚ) / unitsPerOne - d.magnitude| := by
  have hsign : isNegative d.toFloat = d.negative :=
    isNegative_ofMagnitude (nearest_le_infinityBits ..) d.negative
  rw [rational, hsign, magnitudeBits_toFloat, value]
  cases d.negative with
  | true =>
    simp only [if_true]
    rw [neg_one_mul, ← neg_add', abs_neg, ← sub_eq_add_neg]
  | false => simp only [Bool.false_eq_true, if_false, one_mul]

/-- Zero is its own nearest number. -/
theorem nearest_eq_zero_of_value (h : d.value = 0) : nearest d.numerator d.denominator = 0 := by
  have hpos : (0 : ℚ) < d.denominator := by exact_mod_cast d.denominator_pos
  have hnumerator : (d.numerator : ℚ) = 0 := by
    rw [← abs_eq_zero, abs_value, ← d.numerator_div_denominator, div_eq_zero_iff] at h
    exact h.resolve_right hpos.ne'
  rw [Nat.cast_eq_zero.1 hnumerator, nearest_zero]

/-- **The floating-point number of a decimal is the nearest one**, and the even one if two
are as near, unless it is infinite. -/
theorem isNearest_toFloat (hfinite : nearest d.numerator d.denominator < infinityBits) :
    IsNearest d.toFloat d.value := by
  have hmagnitude : ∀ z : Float,
      |(multiple (nearest d.numerator d.denominator) : ℚ) / unitsPerOne - d.magnitude| ≤
        |multiple (magnitudeBits z) / unitsPerOne - d.magnitude| := by
    intro z
    rw [abs_sub_magnitude, abs_sub_magnitude]
    exact div_le_div_of_nonneg_right (nearest_isNearest d.denominator_pos hfinite _).1
      cast_unitsPerOne_pos.le
  -- a number of the other sign is at least as far away as its magnitude
  have hsigned : ∀ z : Float,
      |(multiple (magnitudeBits z) : ℚ) / unitsPerOne - d.magnitude| ≤ |rational z - d.value| := by
    intro z
    rw [← abs_rational, ← abs_value]
    exact abs_abs_sub_abs_le (rational z) d.value
  refine ⟨isFinite_toFloat hfinite, ?_, ?_⟩
  · intro z _
    rw [abs_rational_toFloat_sub]
    exact (hmagnitude z).trans (hsigned z)
  · intro z _ hne htie
    rw [abs_rational_toFloat_sub] at htie
    have hequal : |(multiple (magnitudeBits z) : ℚ) / unitsPerOne - d.magnitude| =
        |(multiple (nearest d.numerator d.denominator) : ℚ) / unitsPerOne - d.magnitude| :=
      le_antisymm ((hsigned z).trans htie.le) (hmagnitude z)
    rw [magnitudeBits_toFloat]
    by_cases hsame : multiple (magnitudeBits z) = multiple (nearest d.numerator d.denominator)
    · -- the other number is the negative, so the decimal is zero
      have habs : |rational z| = |rational d.toFloat| := by
        rw [abs_rational, abs_rational, magnitudeBits_toFloat, hsame]
      have hneg : rational z = -rational d.toFloat := (abs_eq_abs.1 habs).resolve_left hne
      rw [← abs_rational_toFloat_sub, hneg] at htie
      rcases abs_eq_abs.1 htie with hzero | hzero
      · exact absurd (by linarith) hne
      · have hvalue : d.value = 0 := by linarith
        rw [nearest_eq_zero_of_value hvalue]
    · rw [abs_sub_magnitude, abs_sub_magnitude, div_left_inj' cast_unitsPerOne_pos.ne'] at hequal
      exact (nearest_isNearest d.denominator_pos hfinite _).2 hsame hequal

/-- Greater decimals have greater nearest numbers. -/
theorem nearest_le_nearest {d' : Decimal} (h : d.magnitude ≤ d'.magnitude) :
    nearest d.numerator d.denominator ≤ nearest d'.numerator d'.denominator := by
  apply nearest_mono d.denominator_pos d'.denominator_pos
  rwa [d.numerator_div_denominator, d'.numerator_div_denominator]

theorem nearest_le_of_le_magnitude {n : Nat} (h : n ≤ d.magnitude) :
    nearest n 1 ≤ nearest d.numerator d.denominator := by
  apply nearest_mono Nat.one_pos d.denominator_pos
  rwa [d.numerator_div_denominator, Nat.cast_one, div_one]

theorem nearest_le_of_magnitude_le {n : Nat} (h : d.magnitude ≤ n) :
    nearest d.numerator d.denominator ≤ nearest n 1 := by
  apply nearest_mono d.denominator_pos Nat.one_pos
  rwa [d.numerator_div_denominator, Nat.cast_one, div_one]

theorem magnitude_lt_of_nearest_lt {n : Nat}
    (h : nearest d.numerator d.denominator < nearest n 1) : d.magnitude < n := by
  by_contra hge
  exact absurd (nearest_le_of_le_magnitude (not_lt.1 hge)) (Nat.not_le.2 h)

theorem lt_magnitude_of_nearest_lt {n : Nat}
    (h : nearest n 1 < nearest d.numerator d.denominator) : n < d.magnitude := by
  by_contra hle
  exact absurd (nearest_le_of_magnitude_le (not_lt.1 hle)) (Nat.not_le.2 h)

/-- A decimal below `10²¹` is not beyond the floating-point numbers. -/
theorem nearest_lt_infinityBits (h : d.magnitude < 10 ^ 21) :
    nearest d.numerator d.denominator < infinityBits := by
  have hmono : nearest d.numerator d.denominator ≤ nearest (10 ^ 21) 1 :=
    nearest_le_of_magnitude_le (by exact_mod_cast h.le)
  exact hmono.trans_lt (by decide +kernel)

/-- A decimal from a millionth on is not next to zero. -/
theorem nearest_pos (h : 1 / 10 ^ 6 ≤ d.magnitude) :
    0 < nearest d.numerator d.denominator := by
  have hmono : nearest 1 (10 ^ 6) ≤ nearest d.numerator d.denominator := by
    apply nearest_mono (by decide) d.denominator_pos
    rw [d.numerator_div_denominator]
    push_cast
    exact h
  have hpos : 0 < nearest 1 (10 ^ 6) := by decide +kernel
  exact hpos.trans_le hmono

end Decimal
end Calculator
