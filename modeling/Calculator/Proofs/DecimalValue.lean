import Calculator.Display
import Calculator.Proofs.Quotient
import Mathlib.Algebra.Order.Field.Power
import Mathlib.Tactic.FieldSimp
import Mathlib.Tactic.Ring

/-!
# The value of a decimal

A decimal denotes a rational number.  Its forms — reduced, written around the point,
cut to few enough digits — have the same value, and rounding to a number of places
moves the value to the floor of one half more, counted in units of the last place kept.

## Main definitions

* `Decimal.magnitude`, `Decimal.value` — the rational number, without and with its sign.
* `roundedAt places v` — a rational rounded to a number of places, a half going
  to the greater neighbour.

## Main results

* `Decimal.magnitude_reduced`, `Decimal.value_pointed` — the forms of one value.
* `Decimal.eq_of_magnitude_eq` — without zeros at the end of the digits there is one form.
* `Decimal.isPositional_iff` — which decimals are written out.
* `Decimal.value_rescale` — **rounding a decimal rounds its value**.
* `Decimal.exists_roundTo` — rounding a decimal of few enough digits never fails.
-/

namespace Calculator

/-! ### Powers of ten and counts of digits -/

@[simp] theorem cast_powerOfTen (n : Nat) : (powerOfTen n : ℚ) = 10 ^ n := by
  simp [powerOfTen]

theorem powerOfTen_add (m n : Nat) : powerOfTen (m + n) = powerOfTen m * powerOfTen n :=
  Nat.pow_add 10 m n

/-- A number is less than the power of ten with as many zeros as it has digits. -/
theorem lt_powerOfTen_digitCount (n : Nat) : n < powerOfTen (digitCount n) :=
  (Nat.length_toDigits_le_iff (by decide) Nat.length_toDigits_pos).1 le_rfl

theorem digitCount_le {n k : Nat} (hk : 0 < k) (h : n < powerOfTen k) : digitCount n ≤ k :=
  (Nat.length_toDigits_le_iff (by decide) hk).2 h

theorem digitCount_pos (n : Nat) : 0 < digitCount n := Nat.length_toDigits_pos

/-- A positive number is at least the power of ten with one zero less than it has
digits. -/
theorem powerOfTen_digitCount_sub_one_le {n : Nat} (hn : 0 < n) :
    powerOfTen (digitCount n - 1) ≤ n := by
  by_contra hlt
  rw [not_le] at hlt
  rcases Nat.eq_zero_or_pos (digitCount n - 1) with hone | hmore
  · rw [hone, powerOfTen_zero] at hlt
    omega
  · have hshort := digitCount_le hmore hlt
    omega

/-- What is left of a number without the zeros at its end does not end in zero. -/
theorem div_trailingZeros_mod_ten {n : Nat} (hn : 0 < n) :
    n / powerOfTen (trailingZeros n) % 10 ≠ 0 := by
  fun_induction trailingZeros n with
  | case1 n h ih =>
    rw [powerOfTen_succ, Nat.mul_comm, ← Nat.div_div_eq_div_mul]
    exact ih (by omega)
  | case2 n h =>
    rw [powerOfTen_zero, Nat.div_one]
    omega

/-- A rational rounded to a number of places after the point, a half going to the
greater neighbour. -/
def roundedAt (places : Int) (v : ℚ) : ℚ := ⌊v * 10 ^ places + 1 / 2⌋ / 10 ^ places

/-- A rounded number is within half a unit of the last place kept. -/
theorem abs_roundedAt_sub_le (places : Int) (v : ℚ) :
    |roundedAt places v - v| ≤ 1 / 2 / 10 ^ places := by
  have hpow : (0 : ℚ) < 10 ^ places := zpow_pos (by norm_num) places
  have hlow := Int.floor_le (v * 10 ^ places + 1 / 2)
  have hhigh := Int.lt_floor_add_one (v * 10 ^ places + 1 / 2)
  unfold roundedAt
  rw [abs_le, neg_le_sub_iff_le_add, sub_le_iff_le_add, ← add_div, div_add' _ _ _ hpow.ne',
    le_div_iff₀ hpow, div_le_div_iff_of_pos_right hpow]
  constructor <;> linarith

/-- Greater numbers are rounded to greater ones. -/
theorem roundedAt_mono (places : Int) {v w : ℚ} (h : v ≤ w) :
    roundedAt places v ≤ roundedAt places w := by
  have hpow : (0 : ℚ) < 10 ^ places := zpow_pos (by norm_num) places
  have hunits : v * 10 ^ places ≤ w * 10 ^ places := mul_le_mul_of_nonneg_right h hpow.le
  have hfloor : ⌊v * 10 ^ places + 1 / 2⌋ ≤ ⌊w * 10 ^ places + 1 / 2⌋ :=
    Int.floor_le_floor (by linarith)
  exact div_le_div_of_nonneg_right (by exact_mod_cast hfloor) hpow.le

/-- A number less than half a unit away from a rounded one is rounded to it. -/
theorem roundedAt_eq_of_abs_sub_lt {places : Int} {v w : ℚ}
    (h : |v - roundedAt places w| < 1 / 2 / 10 ^ places) :
    roundedAt places v = roundedAt places w := by
  have hpow : (0 : ℚ) < 10 ^ places := zpow_pos (by norm_num) places
  unfold roundedAt at h ⊢
  rw [lt_div_iff₀ hpow, ← abs_mul_sub hpow, abs_lt] at h
  have hfloor : ⌊v * 10 ^ places + 1 / 2⌋ = ⌊w * 10 ^ places + 1 / 2⌋ :=
    Int.floor_eq_iff.2 ⟨by linarith, by linarith⟩
  rw [hfloor]

/-- Rounded numbers less than a unit apart are the same. -/
theorem eq_roundedAt_of_abs_sub_lt {places : Int} {v w : ℚ} (hv : roundedAt places v = v)
    (h : |v - roundedAt places w| < 1 / 10 ^ places) : v = roundedAt places w := by
  have hpow : (0 : ℚ) < 10 ^ places := zpow_pos (by norm_num) places
  rw [← hv] at h ⊢
  unfold roundedAt at h ⊢
  rw [← sub_div, abs_div, abs_of_pos hpow, div_lt_div_iff_of_pos_right hpow] at h
  have hsame : ⌊v * 10 ^ places + 1 / 2⌋ = ⌊w * 10 ^ places + 1 / 2⌋ := by
    rw [← sub_eq_zero, ← Int.abs_lt_one_iff]
    exact_mod_cast h
  rw [hsame]

/-- A number half-way between two neighbours goes to the greater one. -/
theorem roundedAt_of_half {places : Int} {v : ℚ} {n : ℤ} (h : v * 10 ^ places = n + 1 / 2) :
    roundedAt places v = (n + 1) / 10 ^ places := by
  have hfloor : ⌊v * 10 ^ places + 1 / 2⌋ = n + 1 := by
    rw [h, Int.floor_eq_iff]
    push_cast
    constructor <;> linarith
  rw [roundedAt, hfloor]
  push_cast
  rfl

namespace Decimal

/-! ### The value of a decimal and its forms -/

/-- The rational number that a decimal denotes, without its sign. -/
def magnitude (d : Decimal) : ℚ := d.coefficient * 10 ^ d.exponent

/-- The rational number that a decimal denotes. -/
def value (d : Decimal) : ℚ := if d.negative then -d.magnitude else d.magnitude

theorem numerator_div_denominator (d : Decimal) :
    (d.numerator / d.denominator : ℚ) = d.magnitude := by
  rw [numerator, denominator, magnitude, Nat.cast_mul, cast_powerOfTen, cast_powerOfTen,
    mul_div_assoc, ← zpow_natCast, ← zpow_natCast, ← zpow_sub₀ (by norm_num)]
  congr 2
  omega

/-- Equal magnitudes under equal signs are equal values. -/
theorem value_congr {d d' : Decimal} (hsign : d.negative = d'.negative)
    (hmagnitude : d.magnitude = d'.magnitude) : d.value = d'.value := by
  rw [value, value, hsign, hmagnitude]

theorem magnitude_nonneg (d : Decimal) : 0 ≤ d.magnitude :=
  mul_nonneg (Nat.cast_nonneg _) (zpow_nonneg (by norm_num) _)

theorem abs_value (d : Decimal) : |d.value| = d.magnitude := by
  unfold value
  split
  · rw [abs_neg, abs_of_nonneg d.magnitude_nonneg]
  · exact abs_of_nonneg d.magnitude_nonneg

theorem coefficient_eq_zero_iff {d : Decimal} : d.coefficient = 0 ↔ d.magnitude = 0 := by
  rw [magnitude, mul_eq_zero, Nat.cast_eq_zero]
  exact (or_iff_left (zpow_ne_zero _ (by norm_num))).symm

theorem value_eq_zero_iff {d : Decimal} : d.value = 0 ↔ d.coefficient = 0 := by
  rw [← abs_eq_zero, abs_value, coefficient_eq_zero_iff]

/-- Zeros moved from the end of the coefficient to the exponent change nothing. -/
theorem magnitude_shift (negative : Bool) (m zeros : Nat) (e : Int) :
    magnitude ⟨negative, m * powerOfTen zeros, e⟩ = magnitude ⟨negative, m, e + zeros⟩ := by
  simp only [magnitude, Nat.cast_mul, cast_powerOfTen]
  rw [zpow_add₀ (by norm_num), zpow_natCast]
  ring

theorem magnitude_reduced (d : Decimal) : d.reduced.magnitude = d.magnitude := by
  obtain ⟨negative, coefficient, exponent⟩ := d
  obtain ⟨m, hm⟩ := exists_mul_powerOfTen_trailingZeros coefficient
  have hquotient : coefficient / powerOfTen (trailingZeros coefficient) = m :=
    Nat.div_eq_of_eq_mul_left (powerOfTen_pos _) hm
  calc magnitude (reduced ⟨negative, coefficient, exponent⟩)
      = magnitude ⟨negative, m, exponent + trailingZeros coefficient⟩ := by
        simp only [reduced, hquotient]
    _ = magnitude ⟨negative, m * powerOfTen (trailingZeros coefficient), exponent⟩ :=
        (magnitude_shift ..).symm
    _ = magnitude ⟨negative, coefficient, exponent⟩ := by rw [← hm]

/-- A decimal of few enough digits keeps its magnitude when it is normalized. -/
theorem magnitude_normalized {d : Decimal} (hfit : digitCount d.coefficient ≤ maxDigits) :
    d.normalized.magnitude = d.magnitude := by
  rw [normalized, fitted_of_le hfit, magnitude_reduced]

theorem magnitude_pointed (d : Decimal) : d.pointed.magnitude = d.magnitude := by
  unfold pointed
  split
  · next h =>
    rw [magnitude_shift]
    congr 2
    omega
  · rfl

@[simp] theorem negative_pointed (d : Decimal) : d.pointed.negative = d.negative := by
  unfold pointed
  split <;> rfl

@[simp] theorem value_pointed (d : Decimal) : d.pointed.value = d.value :=
  value_congr d.negative_pointed d.magnitude_pointed

/-- Written around the point, a decimal ends at the same place or behind the point. -/
theorem le_exponent_pointed {d : Decimal} {e : Int} (he : e < 0) (h : e ≤ d.exponent) :
    e ≤ d.pointed.exponent := by
  unfold pointed
  split
  · exact Int.le_sub_one_of_lt he
  · exact h

/-! ### Decimals without zeros at their end -/

/-- The last digit of a reduced coefficient is not zero. -/
theorem coefficient_reduced_mod_ten {d : Decimal} (hnonzero : d.coefficient ≠ 0) :
    d.reduced.coefficient % 10 ≠ 0 :=
  div_trailingZeros_mod_ten (Nat.pos_of_ne_zero hnonzero)

theorem coefficient_normalized_mod_ten {d : Decimal} (hfit : digitCount d.coefficient ≤ maxDigits)
    (hnonzero : d.coefficient ≠ 0) : d.normalized.coefficient % 10 ≠ 0 := by
  rw [normalized, fitted_of_le hfit]
  exact coefficient_reduced_mod_ten hnonzero

/-- Of two forms of one magnitude, the one without zeros at its end has the larger exponent. -/
theorem exponent_le_of_magnitude_eq {d d' : Decimal} (hlast : d.coefficient % 10 ≠ 0)
    (h : d.magnitude = d'.magnitude) : d'.exponent ≤ d.exponent := by
  by_contra hlt
  obtain ⟨k, hk⟩ : ∃ k : ℕ, d'.exponent = d.exponent + (k + 1 : ℕ) :=
    ⟨(d'.exponent - d.exponent - 1).toNat, by omega⟩
  have hpow : (10 : ℚ) ^ d.exponent ≠ 0 := zpow_ne_zero _ (by norm_num)
  have hshift : d'.magnitude =
      magnitude ⟨d'.negative, d'.coefficient * powerOfTen (k + 1), d.exponent⟩ := by
    rw [magnitude_shift, ← hk]
  rw [hshift, magnitude, magnitude] at h
  have hcoefficient : d.coefficient = d'.coefficient * powerOfTen k * 10 := by
    rw [Nat.mul_assoc, ← powerOfTen_succ]
    exact_mod_cast mul_right_cancel₀ hpow h
  omega

/-- Without zeros at the end, a magnitude has one form. -/
theorem eq_of_magnitude_eq {d d' : Decimal} (hlast : d.coefficient % 10 ≠ 0)
    (hlast' : d'.coefficient % 10 ≠ 0) (h : d.magnitude = d'.magnitude) :
    d.coefficient = d'.coefficient ∧ d.exponent = d'.exponent := by
  have hexponent : d.exponent = d'.exponent :=
    le_antisymm (exponent_le_of_magnitude_eq hlast' h.symm) (exponent_le_of_magnitude_eq hlast h)
  have hpow : (10 : ℚ) ^ d'.exponent ≠ 0 := zpow_ne_zero _ (by norm_num)
  rw [magnitude, magnitude, hexponent] at h
  exact ⟨by exact_mod_cast mul_right_cancel₀ hpow h, hexponent⟩

/-! ### Decimals that are written out -/

/-- The first digit of a decimal tells its magnitude. -/
theorem magnitude_bounds {d : Decimal} (hnonzero : d.coefficient ≠ 0) :
    (10 : ℚ) ^ d.leadingPlace ≤ d.magnitude ∧ d.magnitude < 10 ^ (d.leadingPlace + 1) := by
  have hpow : (0 : ℚ) < 10 ^ d.exponent := zpow_pos (by norm_num) _
  have hcount := digitCount_pos d.coefficient
  have hlow : ((powerOfTen (digitCount d.coefficient - 1) : Nat) : ℚ) ≤ d.coefficient := by
    exact_mod_cast powerOfTen_digitCount_sub_one_le (Nat.pos_of_ne_zero hnonzero)
  have hhigh : (d.coefficient : ℚ) < (powerOfTen (digitCount d.coefficient) : Nat) := by
    exact_mod_cast lt_powerOfTen_digitCount d.coefficient
  have hfirst : d.leadingPlace = (digitCount d.coefficient - 1 : Nat) + d.exponent := by
    unfold leadingPlace
    omega
  have hnext : d.leadingPlace + 1 = (digitCount d.coefficient : Int) + d.exponent := by
    unfold leadingPlace
    omega
  rw [cast_powerOfTen] at hlow hhigh
  rw [hnext, hfirst, zpow_add₀ (by norm_num), zpow_add₀ (by norm_num), zpow_natCast, zpow_natCast,
    magnitude]
  exact ⟨mul_le_mul_of_nonneg_right hlow hpow.le, mul_lt_mul_of_pos_right hhigh hpow⟩

/-- The first digit of a decimal stands at a place or before it when the decimal reaches
the unit of that place. -/
theorem le_leadingPlace_iff {d : Decimal} (hnonzero : d.coefficient ≠ 0) (place : Int) :
    place ≤ d.leadingPlace ↔ (10 : ℚ) ^ place ≤ d.magnitude := by
  obtain ⟨hlow, hhigh⟩ := magnitude_bounds hnonzero
  have hone : (1 : ℚ) ≤ 10 := by norm_num
  constructor
  · intro h
    exact (zpow_le_zpow_right₀ hone h).trans hlow
  · intro h
    by_contra hlt
    have hpow : (10 : ℚ) ^ (d.leadingPlace + 1) ≤ 10 ^ place :=
      zpow_le_zpow_right₀ hone (by omega)
    exact absurd (h.trans_lt hhigh) (not_lt.2 hpow)

/-- A decimal that reaches a place with few digits ends at most as many places behind it. -/
theorem le_exponent_of_le_magnitude {d : Decimal} {digits : Nat} {place : Int}
    (hdigits : digitCount d.coefficient ≤ digits) (h : (10 : ℚ) ^ place ≤ d.magnitude) :
    place + 1 - digits ≤ d.exponent := by
  have hnonzero : d.coefficient ≠ 0 := by
    rw [ne_eq, coefficient_eq_zero_iff]
    exact ((zpow_pos (by norm_num) place).trans_le h).ne'
  have hplace := (le_leadingPlace_iff hnonzero place).2 h
  unfold leadingPlace at hplace
  omega

/-- The decimals that are written out. -/
theorem isPositional_iff {d : Decimal} (hnonzero : d.coefficient ≠ 0) :
    d.isPositional = true ↔ 1 / 10 ^ 6 ≤ d.magnitude ∧ d.magnitude < 10 ^ 21 := by
  have hmillionth : (1 / 10 ^ 6 : ℚ) = 10 ^ positionalStart := by norm_num [positionalStart]
  have hend : (10 ^ 21 : ℚ) = 10 ^ positionalEnd := by norm_num [positionalEnd]
  rw [isPositional, Bool.and_eq_true, decide_eq_true_eq, decide_eq_true_eq,
    le_leadingPlace_iff hnonzero, ← not_le, le_leadingPlace_iff hnonzero, not_le, hmillionth, hend]

/-- A decimal of few enough digits is written out exactly when its value is between the
bounds, whichever of its forms it has. -/
theorem isPositional_normalized_iff {d : Decimal}
    (hfit : digitCount d.coefficient ≤ maxDigits) (hnonzero : d.coefficient ≠ 0) :
    d.normalized.isPositional = true ↔ 1 / 10 ^ 6 ≤ |d.value| ∧ |d.value| < 10 ^ 21 := by
  have hmagnitude := magnitude_normalized hfit
  have hcoefficient : d.normalized.coefficient ≠ 0 := by
    intro hzero
    rw [coefficient_eq_zero_iff, hmagnitude] at hzero
    exact hnonzero (coefficient_eq_zero_iff.2 hzero)
  rw [isPositional_iff hcoefficient, hmagnitude, abs_value]

/-! ### Rounding to a number of places -/

/-- A magnitude counted in units of a place that is not below its last one. -/
theorem magnitude_div {d : Decimal} {e : Int} (h : d.exponent ≤ e) :
    d.magnitude / 10 ^ e = d.coefficient / powerOfTen (e - d.exponent).toNat := by
  have hcount : ((e - d.exponent).toNat : Int) = e - d.exponent := Int.toNat_of_nonneg (by omega)
  rw [magnitude, cast_powerOfTen, ← zpow_natCast, hcount, zpow_sub₀ (by norm_num)]
  field_simp

/-- **Rounding a decimal rounds its value**, a half going to the greater neighbour
whatever the sign. -/
theorem value_rescale {d : Decimal} {e : Int} (h : d.exponent ≤ e) :
    (d.rescale e).value = roundedAt (-e) d.value := by
  have hpos : 0 < powerOfTen (e - d.exponent).toNat := powerOfTen_pos _
  have hunits : d.magnitude * 10 ^ (-e) = d.coefficient / powerOfTen (e - d.exponent).toNat := by
    rw [← magnitude_div h, zpow_neg, div_eq_mul_inv]
  unfold roundedAt value
  rw [zpow_neg, div_inv_eq_mul, ← zpow_neg]
  cases hsign : d.negative with
  | true =>
    have hfloor := neg_roundQuotient_down_eq_floor d.coefficient hpos
    simp only [rescale, halfUp, hsign, magnitude, if_true]
    rw [neg_mul, ← magnitude, hunits, ← hfloor]
    push_cast
    ring
  | false =>
    have hfloor := roundQuotient_up_eq_floor d.coefficient hpos
    simp only [rescale, halfUp, hsign, magnitude, Bool.false_eq_true, if_false]
    rw [← magnitude, hunits, ← hfloor]
    push_cast
    ring

/-- A decimal without digits beyond the last place kept is its own rounding. -/
theorem roundedAt_value {d : Decimal} {places : Int} (h : -places ≤ d.exponent) :
    roundedAt places d.value = d.value := by
  have hunits : d.magnitude * 10 ^ places =
      ((d.coefficient * powerOfTen (d.exponent + places).toNat : Nat) : ℚ) := by
    have hcount : ((d.exponent + places).toNat : Int) = d.exponent + places :=
      Int.toNat_of_nonneg (by omega)
    rw [magnitude, Nat.cast_mul, cast_powerOfTen, ← zpow_natCast, hcount,
      zpow_add₀ (by norm_num), mul_assoc]
  have hwhole : ∃ n : ℤ, d.value * 10 ^ places = n := by
    unfold value
    split
    · exact ⟨-(d.coefficient * powerOfTen (d.exponent + places).toNat : Nat), by
        rw [neg_mul, hunits, Int.cast_neg, Int.cast_natCast]⟩
    · exact ⟨(d.coefficient * powerOfTen (d.exponent + places).toNat : Nat), by
        rw [hunits, Int.cast_natCast]⟩
  obtain ⟨n, hn⟩ := hwhole
  have hfloor : ⌊(n : ℚ) + 1 / 2⌋ = n := by
    rw [Int.floor_eq_iff]
    constructor <;> linarith
  rw [roundedAt, hn, hfloor, div_eq_iff (zpow_ne_zero _ (by norm_num)), hn]

/-- Rounding adds at most one to the coefficient. -/
theorem coefficient_rescale_le (d : Decimal) (e : Int) :
    (d.rescale e).coefficient ≤ d.coefficient + 1 := by
  have hquotient := Nat.div_le_self d.coefficient (powerOfTen (e - d.exponent).toNat)
  rcases roundQuotient_eq_or d.coefficient (powerOfTen (e - d.exponent).toNat) d.halfUp with
    hround | hround <;>
  · simp only [rescale, hround]
    omega

/-- Rounding adds at most one digit. -/
theorem digitCount_rescale_le {d : Decimal} {digits : Nat} (h : digitCount d.coefficient ≤ digits)
    (e : Int) : digitCount (d.rescale e).coefficient ≤ digits + 1 := by
  refine digitCount_le (Nat.succ_pos digits) ?_
  calc (d.rescale e).coefficient
      ≤ d.coefficient + 1 := coefficient_rescale_le d e
    _ ≤ powerOfTen (digitCount d.coefficient) := lt_powerOfTen_digitCount d.coefficient
    _ < powerOfTen (digits + 1) := Nat.pow_lt_pow_right (by decide) (by omega)

/-- A decimal with digits beyond the last place kept is rounded if few enough are left, unless
the place lies above the largest exponent. -/
theorem roundTo_of_lt {d : Decimal} {places : Int} (h : d.exponent < -places)
    (hplaces : -maxExponent ≤ places)
    (hfit : digitCount (d.rescale (-places)).coefficient ≤ maxDigits) :
    d.roundTo places = .ok (d.rescale (-places)) := by
  have hshift : maxExponent ≤ maxShift := by decide
  unfold roundTo
  rw [if_neg (by omega), if_neg (by omega), if_neg (by omega)]
  exact if_pos hfit

/-- **Rounding a decimal of few enough digits never fails**, unless the place lies above
the largest exponent, and gives the rounded value in few enough digits. -/
theorem exists_roundTo {d : Decimal} {places : Int}
    (hfit : d.coefficient + 1 < powerOfTen maxDigits) (hplaces : -maxExponent ≤ places) :
    ∃ rounded, d.roundTo places = .ok rounded ∧ rounded.value = roundedAt places d.value ∧
      digitCount rounded.coefficient ≤ maxDigits := by
  by_cases hkept : -places ≤ d.exponent
  · exact ⟨d, roundTo_of_le hkept, (roundedAt_value hkept).symm,
      digitCount_le (by decide) (by omega)⟩
  · have hdigits : digitCount (d.rescale (-places)).coefficient ≤ maxDigits :=
      digitCount_le (by decide) ((coefficient_rescale_le d _).trans_lt hfit)
    have hvalue := value_rescale (d := d) (e := -places) (by omega)
    rw [neg_neg] at hvalue
    exact ⟨d.rescale (-places), roundTo_of_lt (by omega) hplaces hdigits, hvalue, hdigits⟩

end Decimal
end Calculator
