import Calculator.Display
import Calculator.Proofs.ExactArithmetic
import Calculator.Proofs.Shortest

/-!
# Whole numbers

Every whole number up to `2⁵³` is a floating-point number, so literals for such numbers are
exact, and so are sums, differences and products that stay among them.  The shortest
decimal of such a number is the number itself: among the decimals on a coarser grid, all of
them whole, no other reads back as it.  And its text is its digits, since what normalization
takes off the end of the digits is put back in front of the point.

## Main definitions

* `Binary64.IsWhole x n` — the floating-point number `x` is the whole number `n`.

## Main results

* `Binary64.exists_isWhole`, `Binary64.isWhole_toFloat` — whole numbers and literals.
* `Binary64.IsWhole.add`, `Binary64.IsWhole.sub`, `Binary64.IsWhole.mul` — arithmetic.
* `Binary64.IsWhole.value_ofFloat` — the shortest decimal.
* `Decimal.text_of_value` — the text of a decimal that denotes a whole number.
* `Binary64.IsWhole.display` — **whole numbers are shown as their digits**.
-/

namespace Calculator

/-! ### Digits and zeros -/

/-- Zeros behind the digits of a number multiply it by powers of ten. -/
theorem toDigits_mul_powerOfTen {n : Nat} (hn : 0 < n) (k : Nat) :
    Nat.toDigits 10 (n * powerOfTen k) = Nat.toDigits 10 n ++ List.replicate k '0' := by
  induction k with
  | zero => simp
  | succ k ih =>
    have hpos : 0 < n * powerOfTen k := Nat.mul_pos hn (powerOfTen_pos k)
    have hlast : Nat.toDigits 10 (10 * (n * powerOfTen k) + 0) =
        Nat.toDigits 10 (n * powerOfTen k) ++ Nat.toDigits 10 0 :=
      (Nat.toDigits_append_toDigits (by decide) hpos (by decide)).symm
    calc Nat.toDigits 10 (n * powerOfTen (k + 1))
        = Nat.toDigits 10 (10 * (n * powerOfTen k) + 0) := by
          rw [powerOfTen_succ]
          congr 1
          ring
      _ = Nat.toDigits 10 n ++ List.replicate k '0' ++ ['0'] := by
          rw [hlast, ih, Nat.toDigits_zero]
      _ = Nat.toDigits 10 n ++ List.replicate (k + 1) '0' := by
          rw [List.append_assoc, List.replicate_succ']

namespace Binary64

/-! ### Whole numbers up to `2⁵³` -/

/-- A floating-point number that is a whole number. -/
structure IsWhole (x : Float) (n : ℤ) : Prop where
  /-- It is finite. -/
  finite : x.isFinite = true
  /-- It equals the whole number. -/
  rational_eq : rational x = n

variable {x y : Float} {m n : ℤ} {bits N : ℕ}

/-- A whole number up to `2⁵³` has as many digits as are stored. -/
theorem exists_isStored (hN : 0 < N) (hle : N ≤ 2 ^ 53) :
    ∃ m e, IsStored m e ∧ (m : ℚ) * 2 ^ e = N := by
  rcases Nat.lt_or_eq_of_le hle with hlt | rfl
  · have hlog : N.log2 < 53 := (Nat.log2_lt hN.ne').2 hlt
    obtain ⟨k, hk⟩ : ∃ k, N.log2 + k = 52 := ⟨52 - N.log2, by omega⟩
    have hpow : 0 < 2 ^ k := Nat.two_pow_pos k
    have hlow : 2 ^ 52 ≤ N * 2 ^ k := by
      rw [← hk, pow_add]
      exact Nat.mul_le_mul_right _ (Nat.log2_self_le hN.ne')
    have hhigh : N * 2 ^ k < 2 ^ 53 := by
      rw [show 53 = N.log2 + 1 + k by omega, pow_add _ (N.log2 + 1)]
      exact Nat.mul_lt_mul_of_pos_right Nat.lt_log2_self hpow
    refine ⟨N * 2 ^ k, -k, ⟨Nat.mul_pos hN hpow, hhigh, Or.inl hlow, by omega, by omega⟩, ?_⟩
    rw [zpow_neg, zpow_natCast]
    push_cast
    field_simp
  · exact ⟨2 ^ 52, 1, ⟨by decide, by decide, Or.inl le_rfl, by decide, by decide⟩, by norm_num⟩

/-- Every whole number up to `2⁵³` is a floating-point number. -/
theorem exists_isWhole (h : |n| ≤ 2 ^ 53) : ∃ z, IsWhole z n := by
  by_cases hn : n = 0
  · obtain ⟨hfinite, hrational⟩ := (Denotes.zero .positive).packed
    exact ⟨_, hfinite, by rw [hrational, hn, Int.cast_zero]⟩
  · rw [Int.abs_eq_natAbs] at h
    obtain ⟨m, e, hm, heq⟩ := exists_isStored (Int.natAbs_pos.2 hn) (by omega)
    obtain ⟨s, hs⟩ : ∃ s : Float.Model.UnpackedFloat.Sign, s.apply n.natAbs = n := by
      rcases Int.natAbs_eq n with hpos | hneg
      · exact ⟨.positive, hpos.symm⟩
      · exact ⟨.negative, hneg.symm⟩
    obtain ⟨hfinite, hrational⟩ := (Denotes.finite s hm).packed
    refine ⟨_, hfinite, ?_⟩
    rw [hrational, cast_apply, mul_assoc, Int.cast_natCast, heq, ← Int.cast_natCast, ← cast_apply,
      hs]

namespace IsWhole

theorem neg (hx : IsWhole x n) : IsWhole (-x) (-n) := by
  obtain ⟨hfinite, hrational⟩ := rational_neg hx.finite
  exact ⟨hfinite, by rw [hrational, hx.rational_eq, Int.cast_neg]⟩

/-- A result that is exact wherever a floating-point number allows it is exact up to `2⁵³`. -/
theorem of_exact (h : |n| ≤ 2 ^ 53)
    (hexact : ∀ z, z.isFinite = true → n = rational z →
      x.isFinite = true ∧ rational x = rational z) : IsWhole x n := by
  obtain ⟨z, hz⟩ := exists_isWhole h
  obtain ⟨hfinite, hrational⟩ := hexact z hz.finite hz.rational_eq.symm
  exact ⟨hfinite, hrational.trans hz.rational_eq⟩

/-- Sums up to `2⁵³` are exact. -/
theorem add (hx : IsWhole x m) (hy : IsWhole y n) (h : |m + n| ≤ 2 ^ 53) :
    IsWhole (x + y) (m + n) := by
  refine of_exact h fun z hz heq => rational_add hx.finite hy.finite hz ?_
  rw [hx.rational_eq, hy.rational_eq, ← heq, Int.cast_add]

/-- Differences up to `2⁵³` are exact. -/
theorem sub (hx : IsWhole x m) (hy : IsWhole y n) (h : |m - n| ≤ 2 ^ 53) :
    IsWhole (x - y) (m - n) := by
  refine of_exact h fun z hz heq => rational_sub hx.finite hy.finite hz ?_
  rw [hx.rational_eq, hy.rational_eq, ← heq, Int.cast_sub]

/-- Products up to `2⁵³` are exact. -/
theorem mul (hx : IsWhole x m) (hy : IsWhole y n) (h : |m * n| ≤ 2 ^ 53) :
    IsWhole (x * y) (m * n) := by
  refine of_exact h fun z hz heq => rational_mul hx.finite hy.finite hz ?_
  rw [hx.rational_eq, hy.rational_eq, ← heq, Int.cast_mul]

end IsWhole

/-- The floating-point number of a decimal that denotes a whole number up to `2⁵³`. -/
theorem isWhole_toFloat {d : Decimal} (hvalue : d.value = n) (h : |n| ≤ 2 ^ 53) :
    IsWhole d.toFloat n := by
  have hmagnitude : d.magnitude < 10 ^ 21 := by
    have hle : |(n : ℚ)| ≤ 2 ^ 53 := by exact_mod_cast h
    rw [← d.abs_value, hvalue]
    exact hle.trans_lt (by norm_num)
  have hnearest := Decimal.isNearest_toFloat (Decimal.nearest_lt_infinityBits hmagnitude)
  obtain ⟨z, hz⟩ := exists_isWhole h
  have hle := hnearest.le z hz.finite
  rw [hz.rational_eq, hvalue, sub_self, abs_zero] at hle
  exact ⟨hnearest.finite, sub_eq_zero.1 (abs_eq_zero.1 (le_antisymm hle (abs_nonneg _)))⟩

/-! ### The shortest decimal -/

theorem IsWhole.multiple_eq (hx : IsWhole x n) :
    multiple (magnitudeBits x) = n.natAbs * unitsPerOne := by
  have habs := abs_rational x
  rw [hx.rational_eq, eq_div_iff cast_unitsPerOne_pos.ne'] at habs
  have hcast : ((multiple (magnitudeBits x) : ℕ) : ℚ) = ((n.natAbs * unitsPerOne : ℕ) : ℚ) := by
    rw [← habs, Nat.cast_mul, Nat.cast_natAbs, Int.cast_abs]
  exact_mod_cast hcast

/-- What is exactly a magnitude reads back as it. -/
theorem readsBack_of_magnitude_eq {d : Decimal} (hfinite : bits < infinityBits)
    (h : d.magnitude = multiple bits / unitsPerOne) : readsBack bits d = true := by
  refine beq_iff_eq.2 (nearest_eq_of_abs_sub_le d.denominator_pos hfinite ?_)
  have hunits : unitsOf d.numerator d.denominator = multiple bits := by
    rw [unitsOf, Decimal.numerator_div_denominator, h, div_mul_cancel₀ _ cast_unitsPerOne_pos.ne']
  rw [hunits, sub_self, abs_zero]
  positivity

theorem readsBack_whole (N bits : ℕ) :
    readsBack bits ⟨false, N, 0⟩ = true ↔ nearest N 1 = bits := by
  simp [readsBack, Decimal.numerator, Decimal.denominator]

theorem nearest_whole_mono {M N : ℕ} (h : M ≤ N) : nearest M 1 ≤ nearest N 1 :=
  nearest_mono Nat.one_pos Nat.one_pos (by simpa using h)

theorem magnitude_whole (N : ℕ) : Decimal.magnitude ⟨false, N, 0⟩ = N := by
  rw [Decimal.magnitude, zpow_zero, mul_one]

/-- A whole number up to `2⁵³` reads back as itself. -/
theorem nearest_whole (hbits : multiple bits = N * unitsPerOne) (hfinite : bits < infinityBits) :
    nearest N 1 = bits := by
  refine (readsBack_whole N bits).1 (readsBack_of_magnitude_eq hfinite ?_)
  rw [hbits, magnitude_whole, Nat.cast_mul, mul_div_cancel_right₀ _ cast_unitsPerOne_pos.ne']

/-- No other whole number reads back as one up to `2⁵³`, the next one after `2⁵³` apart. -/
theorem eq_of_readsBack {W : ℕ} (hN : N ≤ 2 ^ 53) (hbits : multiple bits = N * unitsPerOne)
    (hfinite : bits < infinityBits) (hW : W ≠ 2 ^ 53 + 1)
    (h : readsBack bits ⟨false, W, 0⟩ = true) : W = N := by
  rw [readsBack_whole] at h
  by_cases hle : W ≤ 2 ^ 53
  · have hwhole : IsWhole (Decimal.toFloat ⟨false, W, 0⟩) W :=
      isWhole_toFloat (by rw [Decimal.value, magnitude_whole]; rfl) (by
        rw [Nat.abs_cast]
        exact_mod_cast hle)
    have hmultiple := hwhole.multiple_eq
    have hsame : magnitudeBits (Decimal.toFloat ⟨false, W, 0⟩) = bits :=
      (Decimal.magnitudeBits_toFloat _).trans
        (beq_iff_eq.1 ((readsBack_whole W bits).2 h))
    rw [hsame, hbits, Int.natAbs_natCast] at hmultiple
    exact (Nat.eq_of_mul_eq_mul_right unitsPerOne_pos hmultiple).symm
  · have hstep : nearest (2 ^ 53) 1 < nearest (2 ^ 53 + 2) 1 := by decide +kernel
    have hlow : nearest (2 ^ 53 + 2) 1 ≤ bits := h ▸ nearest_whole_mono (by omega)
    have hhigh : bits ≤ nearest (2 ^ 53) 1 :=
      nearest_whole hbits hfinite ▸ nearest_whole_mono hN
    omega

theorem integerDigits_whole (hN : 0 < N) (hbits : multiple bits = N * unitsPerOne) :
    integerDigits (multiple bits) unitsPerOne = digitCount N := by
  rw [integerDigits, hbits, if_pos (Nat.le_mul_of_pos_left _ hN),
    Nat.mul_div_cancel _ unitsPerOne_pos]

/-- With as many digits as it has, a whole number is its own decimal. -/
theorem decimalOfLength?_digitCount (hN : 0 < N) (hbits : multiple bits = N * unitsPerOne)
    (hfinite : bits < infinityBits) :
    decimalOfLength? bits (digitCount N) = some ⟨false, N, 0⟩ := by
  have hround : nearestOnGrid (multiple bits) unitsPerOne 0 = ⟨false, N, 0⟩ := by
    rw [nearestOnGrid, hbits]
    simp [unitsPerOne_pos]
  have hreads := (readsBack_whole N bits).2 (nearest_whole hbits hfinite)
  rw [decimalOfLength?_eq, integerDigits_whole hN hbits, sub_self]
  rw [← hround] at hreads ⊢
  exact List.find?_cons_of_pos hreads

/-- With fewer digits there is no decimal but one that is the number itself. -/
theorem magnitude_of_decimalOfLength? {digits : ℕ} {d : Decimal} (hpos : 0 < N) (hN : N ≤ 2 ^ 53)
    (hbits : multiple bits = N * unitsPerOne) (hfinite : bits < infinityBits)
    (hshort : digits < digitCount N) (h : decimalOfLength? bits digits = some d) :
    d.magnitude = N := by
  rw [decimalOfLength?_eq, integerDigits_whole hpos hbits] at h
  have hreads := List.find?_some h
  obtain ⟨c, -, rfl⟩ := List.mem_map.1 (List.mem_of_find?_eq_some h)
  -- all decimals on such a grid are multiples of ten
  obtain ⟨k, hk⟩ : ∃ k : ℕ, (digitCount N : ℤ) - digits = 0 + (k + 1 : ℕ) :=
    ⟨digitCount N - digits - 1, by omega⟩
  have hsame : Decimal.magnitude ⟨false, c, digitCount N - digits⟩ =
      Decimal.magnitude ⟨false, c * powerOfTen (k + 1), 0⟩ := by
    rw [hk]
    exact (Decimal.magnitude_shift ..).symm
  have hten : c * powerOfTen (k + 1) ≠ 2 ^ 53 + 1 := by
    rw [powerOfTen_succ, ← Nat.mul_assoc]
    omega
  rw [readsBack_congr hsame] at hreads
  rw [hsame, eq_of_readsBack hN hbits hfinite hten hreads, magnitude_whole]

/-- The shortest decimal of a whole number up to `2⁵³` is the number itself. -/
theorem magnitude_shortest (hpos : 0 < N) (hN : N ≤ 2 ^ 53)
    (hbits : multiple bits = N * unitsPerOne) (hfinite : bits < infinityBits) :
    (shortest bits).magnitude = N := by
  have hnonzero : 0 < bits := by
    refine Nat.pos_of_ne_zero fun hzero => ?_
    have hproduct := Nat.mul_pos hpos unitsPerOne_pos
    rw [← hbits, hzero, multiple_zero] at hproduct
    exact hproduct.false
  obtain ⟨digits, d, hlow, -, hd, hshortest, hbefore⟩ := exists_first_length hnonzero hfinite
  have hfull := decimalOfLength?_digitCount hpos hbits hfinite
  rw [hshortest, Decimal.magnitude_reduced]
  rcases Nat.lt_trichotomy digits (digitCount N) with hless | rfl | hmore
  · exact magnitude_of_decimalOfLength? hpos hN hbits hfinite hless hd
  · rw [hfull] at hd
    obtain rfl := Option.some.inj hd
    exact magnitude_whole N
  · rw [hbefore _ (digitCount_pos N) hmore] at hfull
    cases hfull

/-- The shortest decimal of a whole number up to `2⁵³`, with its sign. -/
theorem IsWhole.value_ofFloat (hx : IsWhole x n) (h : |n| ≤ 2 ^ 53) :
    (Decimal.ofFloat x).value = n := by
  have hbits := hx.multiple_eq
  have hfinite := (isFinite_iff x).1 hx.finite
  have hmagnitude : (Decimal.ofFloat x).magnitude = n.natAbs := by
    refine (Decimal.magnitude_pointed _).trans ?_
    rcases Nat.eq_zero_or_pos n.natAbs with hzero | hpos
    · have hbits' : magnitudeBits x = 0 := by
        refine Nat.eq_zero_of_not_pos fun hpos => (multiple_pos hpos).ne' ?_
        rw [hbits, hzero, Nat.zero_mul]
      rw [hzero, hbits']
      simp [Decimal.magnitude]
    · rw [Int.abs_eq_natAbs] at h
      exact magnitude_shortest hpos (by omega) hbits hfinite
  have hsign : (Decimal.ofFloat x).negative = isNegative x := Decimal.negative_pointed _
  rw [← hx.rational_eq, Decimal.value, hmagnitude, hsign, rational, hbits, Nat.cast_mul,
    mul_div_cancel_right₀ _ cast_unitsPerOne_pos.ne']
  split <;> ring

end Binary64

/-! ### The text -/

namespace Decimal

variable {d : Decimal} {n : ℤ}

/-- A reduced decimal that denotes a whole number ends before the point. -/
theorem exponent_nonneg {N : ℕ} (hlast : d.coefficient % 10 ≠ 0) (h : d.magnitude = N) :
    0 ≤ d.exponent := by
  have hwhole : magnitude ⟨false, N, 0⟩ = N := by rw [magnitude, zpow_zero, mul_one]
  exact exponent_le_of_magnitude_eq hlast (h.trans hwhole.symm)

/-- The digits of a reduced decimal that denotes a whole number are those of the number. -/
theorem magnitudeText_whole {N : ℕ} (hlast : d.coefficient % 10 ≠ 0) (h : d.magnitude = N)
    (hpositional : d.isPositional = true) : d.magnitudeText = Nat.toDigits 10 N := by
  have hexponent := exponent_nonneg hlast h
  obtain ⟨k, hk⟩ := Int.eq_ofNat_of_zero_le hexponent
  have hN : N = d.coefficient * powerOfTen k := by
    rw [magnitude, hk, zpow_natCast, ← cast_powerOfTen] at h
    exact_mod_cast h.symm
  rw [magnitudeText, if_pos hpositional, positional, if_pos hexponent, hk, Int.toNat_natCast, hN,
    toDigits_mul_powerOfTen (by omega)]

/-- The text of a decimal that denotes a whole number is the number, without a point or an
exponent. -/
theorem text_of_value (hvalue : d.value = n) (hsmall : |n| < 10 ^ 21)
    (hfit : digitCount d.coefficient ≤ maxDigits) : d.text = toString n := by
  by_cases hzero : d.coefficient = 0
  · obtain rfl : n = 0 := by
      rw [value_eq_zero_iff.2 hzero] at hvalue
      exact_mod_cast hvalue.symm
    rw [text, if_pos hzero]
    rfl
  · have hmagnitude : d.magnitude = n.natAbs := by
      rw [← d.abs_value, hvalue, Nat.cast_natAbs, Int.cast_abs]
    have hlast := coefficient_normalized_mod_ten hfit hzero
    have hnonzero : n ≠ 0 := by
      rintro rfl
      exact hzero (value_eq_zero_iff.1 (hvalue.trans Int.cast_zero))
    have hpositional : d.normalized.isPositional = true := by
      rw [isPositional_normalized_iff hfit hzero, hvalue]
      have hone : (1 : ℚ) ≤ |(n : ℚ)| := by exact_mod_cast Int.one_le_abs hnonzero
      exact ⟨le_trans (by norm_num) hone, by exact_mod_cast hsmall⟩
    have hdigits := magnitudeText_whole hlast ((magnitude_normalized hfit).trans hmagnitude)
      hpositional
    rw [text, if_neg hzero, hdigits]
    rw [value, hmagnitude] at hvalue
    cases hsign : d.negative with
    | false =>
      rw [hsign, if_neg Bool.false_ne_true] at hvalue
      have hn : (n.natAbs : ℤ) = n := Int.cast_injective ((Int.cast_natCast _).trans hvalue)
      rw [if_neg Bool.false_ne_true, List.nil_append, ← Nat.repr_eq_ofList_toDigits, ← hn]
      rfl
    | true =>
      rw [hsign, if_pos rfl] at hvalue
      have hn : -(n.natAbs : ℤ) = n := by
        rw [Int.natCast_natAbs]
        exact_mod_cast hvalue
      have hnegative : ¬ 0 ≤ n := by omega
      have habs : (-n).toNat = n.natAbs := by omega
      rw [if_pos rfl, String.ofList_append, ← Nat.repr_eq_ofList_toDigits, Int.toString_eq_repr,
        Int.repr_eq_if, if_neg hnegative, habs]

end Decimal

/-! ### What is shown -/

/-- Rounding to places after the point changes no whole number. -/
theorem roundedAt_whole {places : Int} (hplaces : 0 ≤ places) (n : ℤ) : roundedAt places n = n := by
  obtain ⟨k, rfl⟩ := Int.eq_ofNat_of_zero_le hplaces
  have hpow : (10 : ℚ) ^ k ≠ 0 := by positivity
  have hfloor : ⌊(n : ℚ) * 10 ^ k + 1 / 2⌋ = n * 10 ^ k := by
    rw [Int.floor_eq_iff]
    push_cast
    constructor <;> linarith
  rw [roundedAt, zpow_natCast, hfloor]
  push_cast
  exact mul_div_cancel_right₀ _ hpow

/-- **A whole number up to `2⁵³` is shown as its digits**, whatever the places after the
point. -/
theorem Binary64.IsWhole.display {x : Float} {n : ℤ} (hx : IsWhole x n) (h : |n| ≤ 2 ^ 53)
    {places : Int} (hplaces : 0 ≤ places) : Calculator.display places x = .ok (toString n) := by
  obtain ⟨d, hdisplay, hvalue, hfit⟩ :=
    exists_display_eq_text hx.finite ((by decide : -Decimal.maxExponent ≤ 0).trans hplaces)
  rw [hx.value_ofFloat h, roundedAt_whole hplaces] at hvalue
  rw [hdisplay, Decimal.text_of_value hvalue (h.trans_lt (by norm_num)) hfit]

end Calculator
