import Calculator.Proofs.ExactArithmetic
import Calculator.Proofs.TextForm

/-!
# Greater results are shown as greater numbers

Numbers are compared by the exponents and digits they are stored with.  That is the order of
the rational numbers that they are, since a number with a greater exponent has all its digits.
From there on every step keeps the order: the shortest decimals lie in the order of the
numbers they read back as, and rounding goes up at a half on either side of zero.

## Main results

* `Binary64.Denotes.compare_eq`, `Binary64.le_iff_rational_le` — numbers are compared as
  rational numbers.
* `Decimal.value_ofFloat_mono` — greater numbers have greater shortest decimals.
* `display_mono` — **greater results are shown as greater numbers**.
-/

namespace Calculator

namespace Binary64

open Float.Model

variable {m n : ℕ} {e t : ℤ} {u v : UnpackedFloat} {p q : ℚ} {x y : Float}

/-! ### Numbers taken apart -/

theorem IsStored.mul_pos (hm : IsStored m e) : (0 : ℚ) < m * 2 ^ e := by
  have hdigits := hm.pos
  positivity

theorem cast_positive_mul (m : ℕ) (e : ℤ) :
    ((UnpackedFloat.Sign.positive.apply m : ℤ) : ℚ) * 2 ^ e = m * 2 ^ e := by
  rw [apply_positive, Int.cast_natCast]

theorem cast_negative_mul (m : ℕ) (e : ℤ) :
    ((UnpackedFloat.Sign.negative.apply m : ℤ) : ℚ) * 2 ^ e = -(m * 2 ^ e) := by
  rw [apply_negative, Int.cast_neg, Int.cast_natCast, neg_mul]

theorem compare_neg (p q : ℚ) : compare (-p) (-q) = (compare p q).swap := by
  rw [← cmp_eq_compare, ← cmp_eq_compare, cmp_swap]
  exact strictMono_id.neg.cmp_map_eq p q

/-- A number with a greater exponent is greater, since it has all its digits. -/
theorem IsStored.mul_lt (hm : IsStored m e) (hn : IsStored n t) (h : e < t) :
    (m : ℚ) * 2 ^ e < n * 2 ^ t := by
  have hpow : (0 : ℚ) < 2 ^ e := by positivity
  have hlowest := hm.lowest
  have hdigits : ((2 ^ 52 : ℕ) : ℚ) ≤ n := by
    exact_mod_cast hn.full.resolve_right (by omega)
  have hmore : ((m : ℕ) : ℚ) < (2 ^ 53 : ℕ) := by exact_mod_cast hm.lt
  push_cast at hdigits hmore
  calc (m : ℚ) * 2 ^ e < 2 ^ 53 * 2 ^ e := mul_lt_mul_of_pos_right hmore hpow
    _ = 2 ^ 52 * 2 ^ (e + 1) := by rw [zpow_add_one₀ two_ne_zero]; ring
    _ ≤ n * 2 ^ t := mul_le_mul hdigits (zpow_le_zpow_right₀ (by norm_num) h) (by positivity)
        (by positivity)

/-- Exponents count first, and digits after them. -/
theorem IsStored.compare_eq (hm : IsStored m e) (hn : IsStored n t) :
    (compare e t).then (compare m n) = compare ((m : ℚ) * 2 ^ e) (n * 2 ^ t) := by
  rcases lt_trichotomy e t with hlt | rfl | hgt
  · rw [compare_lt_iff_lt.2 hlt, compare_lt_iff_lt.2 (hm.mul_lt hn hlt)]
    rfl
  · have hpow : (0 : ℚ) < 2 ^ e := by positivity
    rw [compare_eq_iff_eq.2 rfl, Ordering.eq_then, ← cmp_eq_compare, ← cmp_eq_compare,
      cmp_mul_pos_right hpow, Nat.strictMono_cast.cmp_map_eq]
  · rw [compare_gt_iff_gt.2 hgt, compare_gt_iff_gt.2 (hn.mul_lt hm hgt)]
    rfl

/-- Numbers taken apart are compared as the rational numbers that they denote. -/
theorem Denotes.compare_eq (hp : Denotes u p) (hq : Denotes v q) :
    u.compare v = some (compare p q) := by
  cases hp with
  | zero s =>
    cases hq with
    | zero s' => exact congrArg some (compare_eq_iff_eq.2 rfl).symm
    | @finite s' n t hn =>
      have hpos := hn.mul_pos
      cases s' with
      | positive => exact congrArg some (compare_lt_iff_lt.2 hpos).symm
      | negative =>
        rw [cast_negative_mul, compare_gt_iff_gt.2 (neg_lt_zero.2 hpos)]
        rfl
  | @finite s m e hm =>
    have hpos := hm.mul_pos
    cases hq with
    | zero s' =>
      cases s with
      | positive => exact congrArg some (compare_gt_iff_gt.2 hpos).symm
      | negative =>
        rw [cast_negative_mul, compare_lt_iff_lt.2 (neg_lt_zero.2 hpos)]
        rfl
    | @finite s' n t hn =>
      have hpos' := hn.mul_pos
      cases s with
      | positive =>
        rw [cast_positive_mul]
        cases s' with
        | positive =>
          rw [cast_positive_mul]
          exact congrArg some (hm.compare_eq hn)
        | negative =>
          rw [cast_negative_mul, compare_gt_iff_gt.2 ((neg_lt_zero.2 hpos').trans hpos)]
          rfl
      | negative =>
        rw [cast_negative_mul]
        cases s' with
        | positive =>
          rw [cast_positive_mul, compare_lt_iff_lt.2 ((neg_lt_zero.2 hpos).trans hpos')]
          rfl
        | negative =>
          rw [cast_negative_mul, compare_neg, ← hm.compare_eq hn]
          rfl

/-- **Finite numbers are compared as rational numbers.** -/
theorem le_iff_rational_le (hx : x.isFinite = true) (hy : y.isFinite = true) :
    x ≤ y ↔ rational x ≤ rational y := by
  have hparts : x ≤ y ↔ x.toModel.unpack.le y.toModel.unpack = true := by
    change decide (x.toModel ≤ y.toModel) = true ↔ _
    rw [decide_eq_true_iff]
    rfl
  rw [hparts, UnpackedFloat.le, (denotes_unpack hx).compare_eq (denotes_unpack hy)]
  exact Std.LawfulBCmp.isLE_iff_le

end Binary64

open Binary64

variable {bits bits' : ℕ} {x y : Float} {places : Int}

/-! ### Shortest decimals -/

/-- Greater magnitudes have greater bits. -/
theorem le_of_multiple_le (hfinite : bits < infinityBits) (hfinite' : bits' < infinityBits)
    (h : (multiple bits : ℚ) / unitsPerOne ≤ multiple bits' / unitsPerOne) : bits ≤ bits' := by
  rw [← nearest_multiple hfinite, ← nearest_multiple hfinite']
  exact nearest_mono unitsPerOne_pos unitsPerOne_pos h

/-- Greater magnitudes have greater shortest decimals. -/
theorem magnitude_shortest_mono (hfinite : bits < infinityBits) (hfinite' : bits' < infinityBits)
    (h : (multiple bits : ℚ) / unitsPerOne ≤ multiple bits' / unitsPerOne) :
    (shortest bits).magnitude ≤ (shortest bits').magnitude := by
  rcases Nat.lt_or_eq_of_le (le_of_multiple_le hfinite hfinite' h) with hlt | rfl
  · by_contra hgreater
    have hmono := Decimal.nearest_le_nearest (not_le.1 hgreater).le
    rw [nearest_shortest hfinite, nearest_shortest hfinite'] at hmono
    omega
  · exact le_rfl

namespace Decimal

theorem value_ofFloat (x : Float) :
    (ofFloat x).value = if isNegative x then -(shortest (magnitudeBits x)).magnitude
      else (shortest (magnitudeBits x)).magnitude := by
  rw [ofFloat, value_pointed]
  rfl

/-- **Greater numbers have greater shortest decimals.** -/
theorem value_ofFloat_mono (hx : x.isFinite = true) (hy : y.isFinite = true)
    (h : rational x ≤ rational y) : (ofFloat x).value ≤ (ofFloat y).value := by
  rw [isFinite_iff] at hx hy
  have hnonneg := (shortest (magnitudeBits x)).magnitude_nonneg
  have hnonneg' := (shortest (magnitudeBits y)).magnitude_nonneg
  have hmultiple := multiple_div_nonneg (magnitudeBits x)
  have hmultiple' := multiple_div_nonneg (magnitudeBits y)
  unfold rational at h
  rw [value_ofFloat, value_ofFloat]
  split_ifs at h ⊢ with hsx hsy hsy
  · have hmono := magnitude_shortest_mono hy hx (by linarith)
    linarith
  · linarith
  · -- A positive number that is at most a negative one is zero, and so is the other.
    have hzero : (shortest 0).magnitude = 0 := coefficient_eq_zero_iff.1 rfl
    have hunits : (multiple 0 : ℚ) / unitsPerOne = 0 := by
      rw [multiple_zero, Nat.cast_zero, zero_div]
    have hfinite : 0 < infinityBits := by decide
    have hmono := magnitude_shortest_mono hx hfinite (by rw [hunits]; linarith)
    have hmono' := magnitude_shortest_mono hy hfinite (by rw [hunits]; linarith)
    linarith
  · exact magnitude_shortest_mono hx hy (by linarith)

end Decimal

/-! ### Results -/

/-- **Greater results are shown as greater numbers**: with any number of places, the texts of
two finite results denote their shortest decimals, rounded, and the text of the greater result
denotes a number that is not less. -/
theorem display_mono (hx : x.isFinite = true) (hy : y.isFinite = true) (hle : x ≤ y)
    (hplaces : -999999 ≤ places) :
    ∃ text text' shown shown', display places x = .ok text ∧ display places y = .ok text' ∧
      readNumber? text.toList = some shown ∧ readNumber? text'.toList = some shown' ∧
      shown.value = shownValue places x ∧ shown'.value = shownValue places y ∧
      shown.value ≤ shown'.value := by
  obtain ⟨d, hdisplay, hvalue, hfit⟩ := exists_display_eq_text hx hplaces
  obtain ⟨d', hdisplay', hvalue', hfit'⟩ := exists_display_eq_text hy hplaces
  obtain ⟨shown, hread, hshown⟩ := Decimal.exists_readNumber?_text hfit
  obtain ⟨shown', hread', hshown'⟩ := Decimal.exists_readNumber?_text hfit'
  refine ⟨d.text, d'.text, shown, shown', hdisplay, hdisplay', hread, hread', hshown.trans hvalue,
    hshown'.trans hvalue', ?_⟩
  rw [hshown, hshown', hvalue, hvalue']
  exact roundedAt_mono places (Decimal.value_ofFloat_mono hx hy ((le_iff_rational_le hx hy).1 hle))

/-- Minus two and a half is shown without places as minus two, and `10²¹` with an exponent. -/
theorem display_mono_acrossZero :
    Float.ofBits 0xc004000000000000 ≤ Float.ofBits 0x444b1ae4d6e2ef50 ∧
      (display 0 (Float.ofBits 0xc004000000000000)).toOption = some "-2" ∧
      (display 0 (Float.ofBits 0x444b1ae4d6e2ef50)).toOption = some "1e+21" ∧
      ∃ text text' shown shown', display 0 (Float.ofBits 0xc004000000000000) = .ok text ∧
        display 0 (Float.ofBits 0x444b1ae4d6e2ef50) = .ok text' ∧
        readNumber? text.toList = some shown ∧ readNumber? text'.toList = some shown' ∧
        shown.value ≤ shown'.value := by
  have hfinite : (Float.ofBits 0xc004000000000000).isFinite = true := by decide +kernel
  have hfinite' : (Float.ofBits 0x444b1ae4d6e2ef50).isFinite = true := by decide +kernel
  have hle : Float.ofBits 0xc004000000000000 ≤ Float.ofBits 0x444b1ae4d6e2ef50 := by
    decide +kernel
  obtain ⟨text, text', shown, shown', hdisplay, hdisplay', hread, hread', -, -, hmono⟩ :=
    display_mono hfinite hfinite' hle (show (-999999 : Int) ≤ 0 by decide)
  exact ⟨hle, by decide +kernel, by decide +kernel, text, text', shown, shown', hdisplay,
    hdisplay', hread, hread', hmono⟩

end Calculator
