import Calculator.Proofs.Order

/-!
# What is shown is shown the same again

A shown number is read as the floating-point number nearest to it, and that one may have
another shortest decimal.  It is shown as the same number all the same.  From `2¹⁹` on
floating-point numbers lie further apart than numbers of ten places, so their shortest decimals
have ten places at most and are shown as they are.  Below that, two decimals with the same
nearest number are close: below `2¹⁸` less than half a unit of the tenth place apart, so they
are rounded to the same number, and from there on less than one unit apart, where neither has
more than ten places.

## Main results

* `le_exponent_shortest` — large numbers have ten places at most.
* `Decimal.abs_value_ofFloat_toFloat_sub_le` — decimals with the same nearest number are close.
* `shownValue_toFloat` — the number that is shown for a shown number.
* `display_idempotent` — **what is shown is shown the same again**.
-/

namespace Calculator

open Binary64

variable {bits : ℕ} {x : Float} {d : Decimal}

/-! ### Large numbers -/

theorem cast_unitsPerOne {m n : ℕ} (h : m + n = 1074) : (unitsPerOne : ℚ) = 2 ^ m * 2 ^ n := by
  rw [← pow_add, h]
  exact cast_one_shiftLeft 1074

/-- The number put together from a place and 53 digits. -/
theorem multiple_div_unitsPerOne {k p q : ℕ} (hkp : k + p = 1074) (hq : q ≤ 2 * fractionSpan)
    (hfull : fractionSpan ≤ q) :
    (multiple (p * fractionSpan + q) : ℚ) / unitsPerOne = q / 2 ^ k := by
  rw [multiple_place hq (fun _ => hfull), cast_unitsPerOne hkp, Nat.cast_mul, Nat.cast_pow,
    Nat.cast_ofNat, mul_div_mul_right _ _ (by positivity)]

/-- A decimal reads back as a number if it is less than half a unit of the last place away from
it, and no other last place comes into question. -/
theorem readsBack_of_abs_sub_lt {k p q : ℕ} (hkp : k + p = 1074)
    (hfinite : p * fractionSpan + q < infinityBits) (hlow : 2 ^ 52 / 2 ^ k ≤ d.magnitude)
    (hhigh : d.magnitude < 2 ^ 53 / 2 ^ k) (hclose : |d.magnitude - q / 2 ^ k| < 1 / 2 / 2 ^ k) :
    readsBack (p * fractionSpan + q) d = true := by
  have hk : (0 : ℚ) < 2 ^ k := by positivity
  have hp : (0 : ℚ) < 2 ^ p := by positivity
  have hunits : unitsOf d.numerator d.denominator = d.magnitude * 2 ^ k * 2 ^ p := by
    rw [unitsOf, d.numerator_div_denominator, cast_unitsPerOne hkp, mul_assoc]
  rw [div_le_iff₀ hk] at hlow
  rw [lt_div_iff₀ hk] at hhigh
  rw [lt_div_iff₀ hk, ← abs_mul_sub hk] at hclose
  have hlast : IsLastPlace (unitsOf d.numerator d.denominator) p := by
    rw [hunits, IsLastPlace, pow_add, pow_add, mul_comm (2 ^ p), mul_comm (2 ^ p)]
    exact ⟨mul_lt_mul_of_pos_right hhigh hp, Or.inr (mul_le_mul_of_nonneg_right hlow hp.le)⟩
  have hnear : |unitsOf d.numerator d.denominator - q * 2 ^ p| < 2 ^ p / 2 := by
    rw [hunits, ← sub_mul, abs_mul, abs_of_pos hp]
    linarith [mul_lt_mul_of_pos_right hclose hp]
  rw [readsBack, beq_iff_eq, nearest_eq_of_abs_sub_lt d.denominator_pos hlast hnear]
  exact min_eq_left hfinite.le

theorem magnitude_tenPlaces (m : ℕ) : Decimal.magnitude ⟨false, m, -10⟩ = m / 10 ^ 10 := by
  rw [Decimal.magnitude, zpow_neg, div_eq_mul_inv]
  rfl

/-- Next to a fraction from `2¹⁹` up to a million there is a number of ten places between these
bounds, since they have no more places themselves. -/
theorem exists_tenPlaces {num den : ℕ} (hden : 0 < den) (hlow : 2 ^ 19 ≤ (num / den : ℚ))
    (hhigh : (num / den : ℚ) ≤ 10 ^ 6) :
    ∃ m : ℕ, 2 ^ 19 * 10 ^ 10 ≤ m ∧ m ≤ powerOfTen 16 ∧
      |(m / 10 ^ 10 : ℚ) - num / den| ≤ 1 / 2 / 10 ^ 10 := by
  refine ⟨(nearestOnGrid num den (-10)).coefficient, le_coefficient_nearestOnGrid hden ?_,
    coefficient_nearestOnGrid_le hden ?_, ?_⟩
  · push_cast
    linarith
  · rw [cast_powerOfTen]
    linarith
  · rw [← magnitude_tenPlaces]
    exact (abs_nearestOnGrid_sub_le num hden (-10)).trans (by norm_num)

/-- From `2¹⁹` up to a million a number of ten places reads back. -/
theorem exists_readsBack_tenPlaces (hfinite : bits < infinityBits)
    (hlow : nearest (2 ^ 19) 1 ≤ bits) (hhigh : bits ≤ nearest (10 ^ 6) 1) :
    ∃ m ≤ powerOfTen 16, readsBack bits ⟨false, m, -10⟩ = true := by
  have hlow' : nearest (2 ^ 19) 1 = 1041 * fractionSpan + 2 ^ 19 * 2 ^ 33 := by decide +kernel
  have hhigh' : nearest (10 ^ 6) 1 = 1041 * fractionSpan + 10 ^ 6 * 2 ^ 33 := by decide +kernel
  obtain ⟨q, rfl⟩ : ∃ q, bits = 1041 * fractionSpan + q := Nat.exists_eq_add_of_le (by omega)
  have hq : 2 ^ 19 * 2 ^ 33 ≤ q := by omega
  have hq' : q ≤ 10 ^ 6 * 2 ^ 33 := by omega
  have hvalue : (multiple (1041 * fractionSpan + q) : ℚ) / unitsPerOne = q / 2 ^ 33 :=
    multiple_div_unitsPerOne rfl (hq'.trans (by decide)) (le_trans (by decide) hq)
  have hfrom : (2 ^ 19 : ℚ) ≤ q / 2 ^ 33 := by
    rw [le_div_iff₀ (by norm_num)]
    exact_mod_cast hq
  have hto : (q / 2 ^ 33 : ℚ) ≤ 10 ^ 6 := by
    rw [div_le_iff₀ (by norm_num)]
    exact_mod_cast hq'
  obtain ⟨m, hm, hm', hnear⟩ := exists_tenPlaces unitsPerOne_pos (hvalue ▸ hfrom) (hvalue ▸ hto)
  have hlarge : (2 ^ 19 * 10 ^ 10 : ℚ) ≤ m := by exact_mod_cast hm
  have hsmall : (m : ℚ) ≤ 10 ^ 16 := by exact_mod_cast hm'
  rw [hvalue] at hnear
  -- half a unit of the tenth place is less than half a unit of the last binary one
  refine ⟨m, hm', readsBack_of_abs_sub_lt (k := 33) rfl hfinite ?_ ?_ ?_⟩ <;>
    rw [magnitude_tenPlaces]
  · linarith
  · linarith
  · exact hnear.trans_lt (by norm_num)

/-- From `2¹⁹` on, shortest decimals have ten places at most. -/
theorem le_exponent_shortest (hfinite : bits < infinityBits)
    (h : 2 ^ 19 ≤ (shortest bits).magnitude) : -10 ≤ (shortest bits).exponent := by
  have hreads := nearest_shortest hfinite
  rcases lt_or_ge (shortest bits).magnitude (10 ^ 6) with hlt | hge
  · have hlow : nearest (2 ^ 19) 1 ≤ bits :=
      hreads ▸ Decimal.nearest_le_of_le_magnitude (by exact_mod_cast h)
    have hhigh : bits ≤ nearest (10 ^ 6) 1 :=
      hreads ▸ Decimal.nearest_le_of_magnitude_le (by exact_mod_cast hlt.le)
    obtain ⟨m, hm, hgrid⟩ := exists_readsBack_tenPlaces hfinite hlow hhigh
    have hplace : (10 : ℚ) ^ (5 : ℤ) ≤ (shortest bits).magnitude := le_trans (by norm_num) h
    have hdigits := digitCount_shortest_le_of_grid hfinite (by decide) hm hgrid
    have hexponent := Decimal.le_exponent_of_le_magnitude hdigits hplace
    omega
  · have hplace : (10 : ℚ) ^ (6 : ℤ) ≤ (shortest bits).magnitude := by exact_mod_cast hge
    have hdigits : digitCount (shortest bits).coefficient ≤ 17 := digitCount_shortest_le hfinite
    have hexponent := Decimal.le_exponent_of_le_magnitude hdigits hplace
    omega

/-- A number whose shortest decimal has ten places at most is shown in full. -/
theorem shownValue_of_le_exponent (h : -10 ≤ (shortest (magnitudeBits x)).exponent) :
    shownValue defaultPlaces x = (Decimal.ofFloat x).value :=
  Decimal.roundedAt_value (Decimal.le_exponent_pointed (by decide) h)

/-! ### Decimals with one nearest number -/

namespace Decimal

variable {k : ℕ}

/-- Up to a power of two, numbers are close to the decimals to which they are nearest. -/
theorem abs_multiple_sub_magnitude_le (hfinite : nearest d.numerator d.denominator < infinityBits)
    (h : d.magnitude ≤ 2 ^ k) :
    |(multiple (nearest d.numerator d.denominator) : ℚ) / unitsPerOne - d.magnitude| ≤
      2 ^ k / 2 ^ 54 := by
  obtain ⟨p, hp⟩ : ∃ p, 53 + p = 1074 := ⟨1021, rfl⟩
  have hunits := cast_unitsPerOne hp
  have hbound : unitsOf d.numerator d.denominator ≤ 2 ^ (k + p + 53) := by
    calc unitsOf d.numerator d.denominator
        = d.magnitude * unitsPerOne := by rw [unitsOf, d.numerator_div_denominator]
      _ ≤ 2 ^ k * unitsPerOne := mul_le_mul_of_nonneg_right h cast_unitsPerOne_pos.le
      _ = 2 ^ (k + p + 53) := by rw [hunits]; ring
  rw [abs_sub_magnitude, div_le_iff₀ cast_unitsPerOne_pos]
  calc |(multiple (nearest d.numerator d.denominator) : ℚ) - unitsOf d.numerator d.denominator|
      ≤ 2 ^ (k + p) / 2 := abs_multiple_nearest_sub_le d.denominator_pos hfinite hbound
    _ = 2 ^ k / 2 ^ 54 * unitsPerOne := by rw [hunits]; ring

/-- On one side of zero, values are as far apart as their magnitudes. -/
theorem abs_value_sub {d' : Decimal} (h : d.negative = d'.negative) :
    |d.value - d'.value| = |d.magnitude - d'.magnitude| := by
  unfold value
  rw [h]
  split
  · rw [← neg_sub', abs_neg]
  · rfl

/-- The shortest decimal of a decimal's nearest number has the same nearest number. -/
theorem nearest_ofFloat_toFloat (hfinite : nearest d.numerator d.denominator < infinityBits) :
    nearest (ofFloat d.toFloat).numerator (ofFloat d.toFloat).denominator =
      nearest d.numerator d.denominator := by
  rw [← magnitudeBits_toFloat, toFloat_ofFloat (isFinite_toFloat hfinite), magnitudeBits_toFloat]

/-- **A decimal and the shortest one with the same nearest number are close.** -/
theorem abs_value_ofFloat_toFloat_sub_le (h : d.magnitude ≤ 2 ^ k)
    (hnext : nearest (2 ^ k) 1 < nearest (2 ^ (k + 1)) 1) :
    |(ofFloat d.toFloat).value - d.value| ≤ 3 * 2 ^ k / 2 ^ 54 := by
  have hle : nearest d.numerator d.denominator ≤ nearest (2 ^ k) 1 :=
    nearest_le_of_magnitude_le (by exact_mod_cast h)
  have hfinite : nearest d.numerator d.denominator < infinityBits :=
    (hle.trans_lt hnext).trans_le (nearest_le_infinityBits ..)
  have hsame := nearest_ofFloat_toFloat hfinite
  have hsign : (ofFloat d.toFloat).negative = d.negative :=
    (negative_pointed _).trans (isNegative_ofMagnitude (nearest_le_infinityBits ..) d.negative)
  rw [abs_value_sub hsign]
  generalize ofFloat d.toFloat = s at *
  have hs : s.magnitude < 2 ^ (k + 1) := by
    exact_mod_cast magnitude_lt_of_nearest_lt ((hsame.le.trans hle).trans_lt hnext)
  have hnear := abs_multiple_sub_magnitude_le hfinite h
  have hnear' := abs_multiple_sub_magnitude_le (hsame.trans_lt hfinite) hs.le
  rw [hsame, abs_sub_comm] at hnear'
  -- both are near the number that is nearest to them
  calc |s.magnitude - d.magnitude|
      ≤ 2 ^ (k + 1) / 2 ^ 54 + 2 ^ k / 2 ^ 54 :=
        (abs_sub_le _ _ _).trans (add_le_add hnear' hnear)
    _ = 3 * 2 ^ k / 2 ^ 54 := by ring

/-- Decimals of one value other than zero have one nearest number. -/
theorem toFloat_congr {d' : Decimal} (h : d.value = d'.value) (hnonzero : d.value ≠ 0) :
    d.toFloat = d'.toFloat := by
  obtain ⟨hsign, hmagnitude⟩ := parts_eq_of_value_eq h hnonzero
  rw [← d.numerator_div_denominator, ← d'.numerator_div_denominator] at hmagnitude
  rw [toFloat, toFloat, hsign, nearest_congr d.denominator_pos d'.denominator_pos hmagnitude]

end Decimal

/-! ### Showing what is shown -/

/-- Below `2¹⁹` what is shown does not go beyond it. -/
theorem abs_shownValue_le (h : |(Decimal.ofFloat x).value| ≤ 2 ^ 19) :
    |shownValue defaultPlaces x| ≤ 2 ^ 19 := by
  have hbound : roundedAt defaultPlaces (2 ^ 19) = 2 ^ 19 := by
    norm_num [roundedAt, defaultPlaces]
  have hbound' : roundedAt defaultPlaces (-2 ^ 19) = -2 ^ 19 := by
    norm_num [roundedAt, defaultPlaces]
  rw [abs_le] at h ⊢
  have hlow := roundedAt_mono defaultPlaces h.1
  have hhigh := roundedAt_mono defaultPlaces h.2
  rw [hbound'] at hlow
  rw [hbound] at hhigh
  exact ⟨hlow, hhigh⟩

/-- A shown number reads back, or is not above `2¹⁹`. -/
theorem toFloat_eq_or (hx : x.isFinite = true) (h : d.value = shownValue defaultPlaces x) :
    d.toFloat = x ∨ d.magnitude ≤ 2 ^ 19 := by
  rcases le_total (2 ^ 19) |(Decimal.ofFloat x).value| with hge | hle
  · have hnonzero : (Decimal.ofFloat x).value ≠ 0 := by
      rw [← abs_pos]
      exact lt_of_lt_of_le (by norm_num) hge
    rw [Decimal.abs_value, Decimal.ofFloat, Decimal.magnitude_pointed] at hge
    rw [shownValue_of_le_exponent (le_exponent_shortest ((isFinite_iff x).1 hx) hge)] at h
    exact Or.inl ((Decimal.toFloat_congr h (h ▸ hnonzero)).trans (Decimal.toFloat_ofFloat hx))
  · rw [← d.abs_value, h]
    exact Or.inr (abs_shownValue_le hle)

/-- The floating-point number nearest to a shown number is finite. -/
theorem nearest_lt_infinityBits_of_shown (hx : x.isFinite = true)
    (h : d.value = shownValue defaultPlaces x) :
    nearest d.numerator d.denominator < infinityBits := by
  rcases toFloat_eq_or hx h with hsame | hsmall
  · rw [← Decimal.magnitudeBits_toFloat, hsame]
    exact (isFinite_iff x).1 hx
  · exact Decimal.nearest_lt_infinityBits (hsmall.trans_lt (by norm_num))

/-- Between `2¹⁸` and `2¹⁹`, a number that is nearest to one of ten places is shown in full. -/
theorem shownValue_toFloat_of_mem {n : ℤ} (hvalue : d.value = n / 10 ^ defaultPlaces)
    (hlow : 2 ^ 18 ≤ d.magnitude) (hhigh : d.magnitude ≤ 2 ^ 19) :
    shownValue defaultPlaces d.toFloat = (Decimal.ofFloat d.toFloat).value := by
  have hfinite : nearest d.numerator d.denominator < infinityBits :=
    Decimal.nearest_lt_infinityBits (hhigh.trans_lt (by norm_num))
  have hmagnitude : d.magnitude = n.natAbs / 10 ^ 10 := by
    have hpow : (0 : ℚ) < 10 ^ 10 := by norm_num
    rw [← d.abs_value, hvalue, abs_div, Nat.cast_natAbs, Int.cast_abs, defaultPlaces,
      zpow_ofNat, abs_of_pos hpow]
  have hn : n.natAbs ≤ powerOfTen 16 := by
    have hle : ((n.natAbs : ℕ) : ℚ) ≤ (powerOfTen 16 : ℕ) := by
      rw [cast_powerOfTen]
      linarith
    exact_mod_cast hle
  have hreads : readsBack (nearest d.numerator d.denominator) ⟨false, n.natAbs, -10⟩ = true := by
    rw [readsBack_congr ((magnitude_tenPlaces _).trans hmagnitude.symm)]
    exact beq_iff_eq.2 rfl
  have hplace : (10 : ℚ) ^ (5 : ℤ) ≤ (shortest (nearest d.numerator d.denominator)).magnitude := by
    have hapart : nearest (10 ^ 5) 1 < nearest (2 ^ 18) 1 := by decide +kernel
    have hle : nearest (2 ^ 18) 1 ≤ nearest d.numerator d.denominator :=
      Decimal.nearest_le_of_le_magnitude (by exact_mod_cast hlow)
    rw [← nearest_shortest hfinite] at hle
    exact_mod_cast (Decimal.lt_magnitude_of_nearest_lt (hapart.trans_le hle)).le
  refine shownValue_of_le_exponent ?_
  rw [Decimal.magnitudeBits_toFloat]
  have hdigits := digitCount_shortest_le_of_grid hfinite (by decide) hn hreads
  have hexponent := Decimal.le_exponent_of_le_magnitude hdigits hplace
  omega

/-- **The number that is shown for a shown number is that number.** -/
theorem shownValue_toFloat (hx : x.isFinite = true) (h : d.value = shownValue defaultPlaces x) :
    shownValue defaultPlaces d.toFloat = d.value := by
  rcases toFloat_eq_or hx h with hsame | hsmall
  · rw [hsame, h]
  · rw [h]
    rcases le_total d.magnitude (2 ^ 18) with hless | hmore
    · have hclose := Decimal.abs_value_ofFloat_toFloat_sub_le hless (by decide +kernel)
      rw [h] at hclose
      exact roundedAt_eq_of_abs_sub_lt (hclose.trans_lt (by norm_num [defaultPlaces]))
    · have hclose := Decimal.abs_value_ofFloat_toFloat_sub_le hsmall (by decide +kernel)
      have hkept := shownValue_toFloat_of_mem h hmore hsmall
      rw [h] at hclose
      rw [hkept]
      exact eq_roundedAt_of_abs_sub_lt hkept (hclose.trans_lt (by norm_num [defaultPlaces]))

/-- **What is shown is shown the same again.**  The text of a finite result denotes its shortest
decimal, rounded; the floating-point number nearest to that is finite, and has the same text. -/
theorem display_idempotent (hx : x.isFinite = true) :
    ∃ text shown, display defaultPlaces x = .ok text ∧ readNumber? text.toList = some shown ∧
      shown.value = shownValue defaultPlaces x ∧
      shown.toFloat.isFinite = true ∧ IsNearest shown.toFloat shown.value ∧
      display defaultPlaces shown.toFloat = .ok text := by
  have hplaces : -Decimal.maxExponent ≤ defaultPlaces := by decide
  obtain ⟨d, hdisplay, hvalue, hfit⟩ := exists_display_eq_text hx hplaces
  obtain ⟨shown, hread, hshown⟩ := Decimal.exists_readNumber?_text hfit
  have hfinite := nearest_lt_infinityBits_of_shown hx (hshown.trans hvalue)
  obtain ⟨d', hdisplay', hvalue', hfit'⟩ :=
    exists_display_eq_text (Decimal.isFinite_toFloat hfinite) hplaces
  have hagain : d'.value = d.value :=
    hvalue'.trans ((shownValue_toFloat hx (hshown.trans hvalue)).trans hshown)
  rw [(Decimal.text_eq_iff hfit' hfit).2 hagain] at hdisplay'
  exact ⟨d.text, shown, hdisplay, hread, hshown.trans hvalue, Decimal.isFinite_toFloat hfinite,
    Decimal.isNearest_toFloat hfinite, hdisplay'⟩

/-- A number with eleven places is shown with ten, and read back as another number. -/
theorem display_idempotent_elevenPlaces :
    (Float.ofBits 0x4119d543cee58df6).isFinite = true ∧
      ∃ shown : Decimal, display defaultPlaces (Float.ofBits 0x4119d543cee58df6) =
          .ok "423248.9520475561" ∧
        shown.toFloat ≠ Float.ofBits 0x4119d543cee58df6 ∧
        display defaultPlaces shown.toFloat = .ok "423248.9520475561" := by
  have hfinite : (Float.ofBits 0x4119d543cee58df6).isFinite = true := by decide +kernel
  have hrun : (display defaultPlaces (Float.ofBits 0x4119d543cee58df6)).toOption =
      some "423248.9520475561" := by decide +kernel
  have hnumber : readNumber? "423248.9520475561".toList = some ⟨false, 4232489520475561, -10⟩ := by
    decide +kernel
  obtain ⟨text, shown, hdisplay, hread, -, -, -, hagain⟩ := display_idempotent hfinite
  rw [hdisplay] at hrun
  obtain rfl : text = "423248.9520475561" := Option.some.inj hrun
  obtain rfl := Option.some.inj (hnumber.symm.trans hread)
  exact ⟨hfinite, _, hdisplay, by decide +kernel, hagain⟩

end Calculator
