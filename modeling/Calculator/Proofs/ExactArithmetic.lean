import Calculator.Proofs.NearestFloat

/-!
# Sums, differences and products without rounding

An operation on floating-point numbers takes its operands apart into sign, digits and
place, calculates with the digits, rounds to 53 of them and puts the result together
again.  If the exact result is itself a floating-point number then its digits are found at
the place that is rounded to, nothing but zeros is cut off, and the operation gives that
very number.

## Main definitions

* `IsStored m e` — digits and a place as they are stored.
* `Denotes u q` — a number taken apart, in the form in which it is stored, and the rational
  number that it is.

## Main results

* `denotes_unpack`, `Denotes.packed` — taking numbers apart and putting them together.
* `denotes_roundWithAccuracy`, `denotes_normalize` — rounding what needs none.
* `Denotes.add`, `Denotes.mul` — operations on numbers taken apart.
* `rational_neg`, `rational_add`, `rational_sub`, `rational_mul` — **operations are exact
  wherever the exact result is a floating-point number**.
-/

namespace Calculator
namespace Binary64

open Float.Model

variable {m n : ℕ} {e t : ℤ} {u v : UnpackedFloat} {p q : ℚ}

/-! ### Digits and places -/

/-- Digits and a place as they are stored: 53 binary digits, or fewer at the lowest place. -/
structure IsStored (m : ℕ) (e : ℤ) : Prop where
  /-- There is a digit other than zero. -/
  pos : 0 < m
  /-- There are at most 53 digits. -/
  lt : m < 2 ^ 53
  /-- There are fewer at the lowest place only. -/
  full : 2 ^ 52 ≤ m ∨ e = -1074
  /-- No place is lower than that of the smallest number. -/
  lowest : -1074 ≤ e
  /-- No place is higher than that of the largest number. -/
  highest : e ≤ 971

/-- A number taken apart, in the form in which it is stored, and the rational number that
it is. -/
inductive Denotes : UnpackedFloat → ℚ → Prop
  /-- A zero. -/
  | zero (s : UnpackedFloat.Sign) : Denotes (.zero s) 0
  /-- A finite number other than zero. -/
  | finite (s : UnpackedFloat.Sign) {m : ℕ} {e : ℤ} (h : IsStored m e) :
      Denotes (.finite s m e h.pos) ((s.apply m : ℤ) * 2 ^ e)

theorem log2_bounds (hm : 0 < m) (e : ℤ) :
    (2 : ℚ) ^ ((m.log2 : ℤ) + e) ≤ m * 2 ^ e ∧ (m : ℚ) * 2 ^ e < 2 ^ ((m.log2 : ℤ) + e + 1) := by
  have hpos : (0 : ℚ) < 2 ^ e := by positivity
  have hle : ((2 ^ m.log2 : ℕ) : ℚ) ≤ m := by exact_mod_cast Nat.log2_self_le hm.ne'
  have hlt : (m : ℚ) < ((2 ^ (m.log2 + 1) : ℕ) : ℚ) := by exact_mod_cast Nat.lt_log2_self
  push_cast at hle hlt
  constructor
  · rw [zpow_add₀ (by norm_num), zpow_natCast]
    exact mul_le_mul_of_nonneg_right hle hpos.le
  · rw [show (m.log2 : ℤ) + e + 1 = ((m.log2 + 1 : ℕ) : ℤ) + e by push_cast; ring,
      zpow_add₀ (by norm_num), zpow_natCast]
    exact mul_lt_mul_of_pos_right hlt hpos

/-- The first digit of a number is at the same place, however it is written. -/
theorem log2_add_le (hm : 0 < m) (hn : 0 < n) (h : (m : ℚ) * 2 ^ e = n * 2 ^ t) :
    (m.log2 : ℤ) + e ≤ n.log2 + t := by
  have hlt : (2 : ℚ) ^ ((m.log2 : ℤ) + e) < 2 ^ ((n.log2 : ℤ) + t + 1) :=
    (log2_bounds hm e).1.trans_lt (h ▸ (log2_bounds hn t).2)
  exact Int.lt_add_one_iff.1 ((zpow_lt_zpow_iff_right₀ (by norm_num)).1 hlt)

theorem log2_add_eq (hm : 0 < m) (hn : 0 < n) (h : (m : ℚ) * 2 ^ e = n * 2 ^ t) :
    (m.log2 : ℤ) + e = n.log2 + t :=
  le_antisymm (log2_add_le hm hn h) (log2_add_le hn hm h.symm)

theorem IsStored.log2_lt (h : IsStored m e) : m.log2 < 53 := (Nat.log2_lt h.pos.ne').2 h.lt

theorem IsStored.log2_eq (h : IsStored m e) (hfull : 2 ^ 52 ≤ m) : m.log2 = 52 :=
  (Nat.log2_eq_iff h.pos.ne').2 ⟨hfull, h.lt⟩

theorem pos_of_mul_eq (h : (m : ℚ) * 2 ^ e = n * 2 ^ t) (hn : 0 < n) : 0 < m := by
  have hpos : (0 : ℚ) < m * 2 ^ e := by
    rw [h]
    positivity
  exact_mod_cast pos_of_mul_pos_left hpos (by positivity)

/-! ### Rounding what needs none -/

/-- The place that a number is rounded to is the one at which it is stored. -/
theorem targetExponent_eq (hn : IsStored n t) (h : (m : ℚ) * 2 ^ e = n * 2 ^ t) :
    Format.binary64.targetExponent (totalExponent m e) = t := by
  have hfirst := log2_add_eq (pos_of_mul_eq h hn.pos) hn.pos h
  have hbits : Format.binary64.mantissaBits = 53 := rfl
  have hmin : Format.binary64.minExponent = -1074 := rfl
  have hlowest := hn.lowest
  rw [Format.targetExponent, totalExponent, hbits, hmin]
  rcases hn.full with hfull | hplace
  · rw [hn.log2_eq hfull] at hfirst
    omega
  · have hlt := hn.log2_lt
    omega

/-- Zeros that are shifted out leave no trace. -/
theorem shiftRight_zeros (n k : ℕ) :
    (⟨n * 2 ^ k, false, false⟩ : UnpackedFloat.ExtendedMantissa) >>> k = ⟨n, false, false⟩ := by
  induction k generalizing n with
  | zero => rw [pow_zero, mul_one]; rfl
  | succ k ih =>
    have hsplit : n * 2 ^ (k + 1) = 2 * n * 2 ^ k := by ring
    -- the last of the shifts is one by itself
    change ((⟨n * 2 ^ (k + 1), false, false⟩ : UnpackedFloat.ExtendedMantissa) >>>
      k).shiftRightOne = _
    rw [hsplit, ih, UnpackedFloat.ExtendedMantissa.shiftRightOne]
    simp

theorem shiftToTargetExponent_exact (hn : IsStored n t) (h : (m : ℚ) * 2 ^ e = n * 2 ^ t)
    (hle : e ≤ t) :
    UnpackedFloat.shiftToTargetExponent Format.binary64 m e .exact = (⟨n, false, false⟩, t) := by
  obtain ⟨k, rfl⟩ := Int.le.dest hle
  have hdigits : m = n * 2 ^ k := by
    have hpow : (2 : ℚ) ^ e ≠ 0 := by positivity
    have hcast : (m : ℚ) = ((n * 2 ^ k : ℕ) : ℚ) := by
      refine mul_right_cancel₀ hpow (h.trans ?_)
      rw [zpow_add₀ (by norm_num), zpow_natCast]
      push_cast
      ring
    exact_mod_cast hcast
  have hshift : (e + k - e).toNat = k := by omega
  rw [UnpackedFloat.shiftToTargetExponent, UnpackedFloat.shiftToExponent,
    targetExponent_eq hn h, hshift, hdigits]
  exact congrArg (·, e + (k : ℤ)) (shiftRight_zeros n k)

/-- A number that is stored with digits at its place is not changed by rounding. -/
theorem roundWithAccuracy_exact (s : UnpackedFloat.Sign) (hn : IsStored n t)
    (h : (m : ℚ) * 2 ^ e = n * 2 ^ t) (hle : e ≤ t) :
    UnpackedFloat.roundWithAccuracy Format.binary64 s m e .exact = .finite s n t hn.pos := by
  have hround : (⟨n, false, false⟩ : UnpackedFloat.ExtendedMantissa).roundedMantissa = n := rfl
  simp only [UnpackedFloat.roundWithAccuracy, shiftToTargetExponent_exact hn h hle, hround,
    shiftToTargetExponent_exact hn rfl le_rfl]
  exact dif_neg hn.pos.ne'

theorem round_exact (s : UnpackedFloat.Sign) (hn : IsStored n t)
    (h : (m : ℚ) * 2 ^ e = n * 2 ^ t) :
    UnpackedFloat.round Format.binary64 s m e = .finite s n t hn.pos := by
  rw [UnpackedFloat.round, targetExponent_eq hn h, UnpackedFloat.decreaseExponent]
  refine roundWithAccuracy_exact s hn ?_ (by omega)
  rw [Nat.shiftLeft_eq, ← h, zpow_sub₀ (by norm_num), zpow_natCast]
  push_cast
  field_simp

/-! ### Signs -/

theorem apply_positive (z : ℤ) : UnpackedFloat.Sign.positive.apply z = z := rfl

theorem apply_negative (z : ℤ) : UnpackedFloat.Sign.negative.apply z = -z := rfl

theorem cast_apply (s : UnpackedFloat.Sign) (z : ℤ) :
    ((s.apply z : ℤ) : ℚ) = (s.apply 1 : ℤ) * z := by
  cases s <;> simp [apply_positive, apply_negative]

theorem apply_apply (s : UnpackedFloat.Sign) (z : ℤ) : s.apply (s.apply z) = z := by
  cases s <;> simp [apply_positive, apply_negative]

theorem apply_neg (s : UnpackedFloat.Sign) (z : ℤ) : (-s).apply z = -s.apply z := by
  cases s with
  | positive => rfl
  | negative => exact (neg_neg z).symm

theorem apply_mul (s s' : UnpackedFloat.Sign) (z z' : ℤ) :
    (s * s').apply (z * z') = s.apply z * s'.apply z' := by
  cases s with
  | positive =>
    cases s' with
    | positive => rfl
    | negative => exact (mul_neg z z').symm
  | negative =>
    cases s' with
    | positive => exact (neg_mul z z').symm
    | negative => exact (neg_mul_neg z z').symm

theorem abs_apply_mul (s : UnpackedFloat.Sign) (m : ℕ) (e : ℤ) :
    |((s.apply m : ℤ) : ℚ) * 2 ^ e| = m * 2 ^ e := by
  have hpow : (0 : ℚ) < 2 ^ e := by positivity
  rw [abs_mul, abs_of_pos hpow]
  cases s <;> simp [apply_positive, apply_negative]

theorem apply_mul_ne_zero (s : UnpackedFloat.Sign) (hm : 0 < m) (e : ℤ) :
    ((s.apply m : ℤ) : ℚ) * 2 ^ e ≠ 0 := by
  have hdigits : (0 : ℚ) < m := by exact_mod_cast hm
  rw [← abs_pos, abs_apply_mul]
  positivity

theorem Denotes.exists_isStored (h : Denotes u q) (hq : q ≠ 0) :
    ∃ n t, IsStored n t ∧ |q| = n * 2 ^ t := by
  cases h with
  | zero s => exact absurd rfl hq
  | finite s hn => exact ⟨_, _, hn, abs_apply_mul ..⟩

/-- Digits with a sign are rounded as they are without. -/
theorem normalize_apply (s : UnpackedFloat.Sign) (hm : 0 < m) (e : ℤ) :
    UnpackedFloat.normalize Format.binary64 (s.apply m) e .positive =
      UnpackedFloat.round Format.binary64 s m e := by
  have hpos : (0 : ℤ) < m := by exact_mod_cast hm
  cases s with
  | positive =>
    have hcompare : compare (m : ℤ) 0 = .gt := compare_gt_iff_gt.2 hpos
    simp [UnpackedFloat.normalize, apply_positive, hcompare]
  | negative =>
    have hcompare : compare (-(m : ℤ)) 0 = .lt := compare_lt_iff_lt.2 (by omega)
    simp [UnpackedFloat.normalize, apply_negative, hcompare]

/-- Digits that go down far enough are not changed by rounding if the number is stored with
digits of its own. -/
theorem denotes_roundWithAccuracy {s : UnpackedFloat.Sign} (hm : 0 < m)
    (hdown : 52 ≤ m.log2 ∨ e ≤ -1074) (hv : Denotes v ((s.apply m : ℤ) * 2 ^ e)) :
    Denotes (UnpackedFloat.roundWithAccuracy Format.binary64 s m e .exact)
      ((s.apply m : ℤ) * 2 ^ e) := by
  obtain ⟨n, t, hn, habs⟩ := hv.exists_isStored (apply_mul_ne_zero s hm e)
  rw [abs_apply_mul] at habs
  have hle : e ≤ t := by
    have hfirst := log2_add_eq hm hn.pos habs
    have hlast := hn.log2_lt
    have hlowest := hn.lowest
    omega
  have hvalue : ((s.apply m : ℤ) : ℚ) * 2 ^ e = (s.apply n : ℤ) * 2 ^ t := by
    rw [cast_apply, cast_apply s n, mul_assoc, mul_assoc, Int.cast_natCast, Int.cast_natCast, habs]
  rw [roundWithAccuracy_exact s hn habs hle, hvalue]
  exact .finite s hn

/-- Whole digits at a place, of either sign, are not changed by rounding if the number is
stored with digits of its own. -/
theorem denotes_normalize {z : ℤ} (h : (z : ℚ) * 2 ^ e = q) (hq : Denotes v q) :
    Denotes (UnpackedFloat.normalize Format.binary64 z e .positive) q := by
  have hpow : (0 : ℚ) < 2 ^ e := by positivity
  cases hq with
  | zero s =>
    obtain rfl : z = 0 := by simpa [hpow.ne'] using h
    exact .zero _
  | @finite s n t hn =>
    have habs : ((s.apply z : ℤ) : ℚ) * 2 ^ e = n * 2 ^ t := by
      rw [cast_apply, mul_assoc, h, ← mul_assoc, ← cast_apply, apply_apply, Int.cast_natCast]
    have hpos : 0 < s.apply z := by
      have hdigits : (0 : ℚ) < n := by exact_mod_cast hn.pos
      have hproduct : (0 : ℚ) < (s.apply z : ℤ) * 2 ^ e := by
        rw [habs]
        positivity
      exact_mod_cast pos_of_mul_pos_left hproduct hpow.le
    obtain ⟨m, hm⟩ := Int.eq_ofNat_of_zero_le hpos.le
    obtain rfl : z = s.apply m := by rw [← hm, apply_apply]
    rw [apply_apply] at habs
    rw [normalize_apply s (pos_of_mul_eq habs hn.pos), round_exact s hn habs]
    exact .finite s hn

/-! ### Operations on numbers taken apart -/

/-- The negative of a number. -/
theorem Denotes.neg (hp : Denotes u p) : Denotes u.neg (-p) := by
  cases hp with
  | zero s =>
    rw [neg_zero]
    exact .zero (-s)
  | @finite s m e hm =>
    rw [← neg_mul, ← Int.cast_neg, ← apply_neg]
    exact .finite (-s) hm

/-- Digits that are continued to a lower place. -/
theorem shifted_value (s : UnpackedFloat.Sign) (m : ℕ) (h : t ≤ e) :
    ((s.apply (m <<< (e - t).toNat : ℕ) : ℤ) : ℚ) * 2 ^ t = (s.apply m : ℤ) * 2 ^ e := by
  obtain ⟨k, rfl⟩ := Int.le.dest h
  have hshift : (t + k - t).toNat = k := by omega
  rw [cast_apply, cast_apply s m, hshift, Nat.shiftLeft_eq, zpow_add₀ (by norm_num), zpow_natCast]
  push_cast
  ring

/-- The sum of two numbers, where it is a floating-point number itself. -/
theorem Denotes.add (hp : Denotes u p) (hq : Denotes v q) (hsum : ∃ w, Denotes w (p + q)) :
    Denotes (UnpackedFloat.add Format.binary64 u v) (p + q) := by
  cases hp with
  | zero s =>
    cases hq with
    | zero s' =>
      rw [add_zero, UnpackedFloat.add]
      split
      · exact .zero _
      · exact .zero _
    | finite s' hn =>
      rw [zero_add]
      exact .finite s' hn
  | finite s hm =>
    cases hq with
    | zero s' =>
      rw [add_zero]
      exact .finite s hm
    | finite s' hn =>
      obtain ⟨w, hw⟩ := hsum
      refine denotes_normalize ?_ hw
      rw [Int.cast_add, add_mul]
      exact congrArg₂ (· + ·) (shifted_value s _ (min_le_left ..))
        (shifted_value s' _ (min_le_right ..))

/-- A difference is a sum. -/
theorem sub_eq_add (u v : UnpackedFloat) :
    UnpackedFloat.sub Format.binary64 u v = UnpackedFloat.add Format.binary64 u v.neg := by
  cases u with
  | notANumber => rfl
  | infinity s => cases v <;> rfl
  | zero s => cases v <;> rfl
  | finite s m e hm =>
    cases v with
    | notANumber => rfl
    | infinity s' => rfl
    | zero s' => rfl
    | finite s' n t hn =>
      simp only [UnpackedFloat.sub, UnpackedFloat.add, UnpackedFloat.neg, apply_neg,
        Int.sub_eq_add_neg]

/-- The difference of two numbers, where it is a floating-point number itself. -/
theorem Denotes.sub (hp : Denotes u p) (hq : Denotes v q) (hdiff : ∃ w, Denotes w (p - q)) :
    Denotes (UnpackedFloat.sub Format.binary64 u v) (p - q) := by
  rw [sub_eq_add_neg] at hdiff ⊢
  rw [sub_eq_add]
  exact hp.add hq.neg hdiff

/-- A product has as many digits as are stored, unless both factors are at the lowest place. -/
theorem IsStored.le_log2_mul_or (hm : IsStored m e) (hn : IsStored n t) :
    52 ≤ (m * n).log2 ∨ e + t ≤ -1074 := by
  have hne : m * n ≠ 0 := (Nat.mul_pos hm.pos hn.pos).ne'
  rw [Nat.le_log2 hne]
  rcases hm.full with hfull | he
  · exact Or.inl (hfull.trans (Nat.le_mul_of_pos_right m hn.pos))
  · rcases hn.full with hfull | ht
    · exact Or.inl (hfull.trans (Nat.le_mul_of_pos_left n hm.pos))
    · exact Or.inr (by omega)

/-- The product of two numbers, where it is a floating-point number itself. -/
theorem Denotes.mul (hp : Denotes u p) (hq : Denotes v q) (hproduct : ∃ w, Denotes w (p * q)) :
    Denotes (UnpackedFloat.mul Format.binary64 u v) (p * q) := by
  cases hp with
  | zero s =>
    rw [zero_mul]
    cases hq with
    | zero s' => exact .zero _
    | finite s' hn => exact .zero _
  | @finite s m e hm =>
    cases hq with
    | zero s' =>
      rw [mul_zero]
      exact .zero _
    | @finite s' n t hn =>
      have hvalue : ((s.apply m : ℤ) : ℚ) * 2 ^ e * ((s'.apply n : ℤ) * 2 ^ t) =
          ((s * s').apply (m * n : ℕ) : ℤ) * 2 ^ (e + t) := by
        rw [Nat.cast_mul, apply_mul, zpow_add₀ (by norm_num)]
        push_cast
        ring
      obtain ⟨w, hw⟩ := hproduct
      rw [hvalue] at hw ⊢
      exact denotes_roundWithAccuracy (Nat.mul_pos hm.pos hn.pos) (hm.le_log2_mul_or hn) hw

/-! ### Numbers put together -/

/-- A number put together from its parts. -/
def packed (u : UnpackedFloat) : Float := ⟨Float.Model.pack u⟩

theorem packed_unpack (x : Float) : packed x.toModel.unpack = x := by
  obtain ⟨bits, hvalid⟩ := x
  have hbits : UnpackedFloat.pack Format.binary64
      (UnpackedFloat.unpack Format.binary64 bits.toBitVec) = bits.toBitVec :=
    UnpackedFloat.pack_unpack_of_valid hvalid
  simp [packed, Float.Model.pack, Float.Model.unpack, hbits]

/-- The bits of a number that is put together. -/
theorem toNat_pack (s : UnpackedFloat.Sign) (hm : IsStored m e) :
    (UnpackedFloat.pack Format.binary64 (.finite s m e hm.pos)).toNat =
      s.toBitVec.toNat * magnitudeSpan + ((e + 1074).toNat * fractionSpan + m) := by
  have hlowest := hm.lowest
  have hhighest := hm.highest
  have hlt := hm.lt
  have hbias : (e + Format.binary64.exponentBias +
      Format.binary64.mantissaBitsWithoutImplicit).toNat = (e + 1074).toNat + 1 := by
    change (e + 1023 + 52).toNat = _
    omega
  have hexponent : ¬ 2 ^ 11 ≤ (e + 1074).toNat + 1 + 1 := by omega
  have hbits : Format.binary64.mantissaBits = 53 := rfl
  simp only [UnpackedFloat.pack, hbias, hbits, if_neg hexponent]
  by_cases hfull : 2 ^ 52 ≤ m
  · rw [if_pos (by rw [hm.log2_eq hfull]), toNat_packComponents, BitVec.toNat_ofNat,
      BitVec.toNat_ofNat]
    unfold fractionSpan
    omega
  · obtain rfl : e = -1074 := hm.full.resolve_left hfull
    have hlog : m.log2 < 52 := (Nat.log2_lt hm.pos.ne').2 (not_le.1 hfull)
    rw [if_neg (by omega), toNat_packComponents, BitVec.toNat_ofNat, BitVec.toNat_ofNat]
    unfold fractionSpan
    omega

theorem toNat_toBits_packed (s : UnpackedFloat.Sign) (hm : IsStored m e) :
    (packed (.finite s m e hm.pos)).toBits.toNat =
      s.toBitVec.toNat * magnitudeSpan + ((e + 1074).toNat * fractionSpan + m) :=
  toNat_pack s hm

theorem magnitudeBits_packed (s : UnpackedFloat.Sign) (hm : IsStored m e) :
    magnitudeBits (packed (.finite s m e hm.pos)) = (e + 1074).toNat * fractionSpan + m ∧
      (e + 1074).toNat * fractionSpan + m < infinityBits := by
  have hhighest := hm.highest
  have hlt := hm.lt
  have hfinite : (e + 1074).toNat * fractionSpan + m < infinityBits := by
    unfold infinityBits fractionSpan
    omega
  have hspan : infinityBits < magnitudeSpan := by decide
  rw [magnitudeBits, toNat_toBits_packed s hm, Nat.mul_add_mod_self_right,
    Nat.mod_eq_of_lt (hfinite.trans hspan)]
  exact ⟨rfl, hfinite⟩

theorem isNegative_packed (s : UnpackedFloat.Sign) (hm : IsStored m e) :
    (if isNegative (packed (.finite s m e hm.pos)) then (-1 : ℚ) else 1) = (s.apply 1 : ℤ) := by
  obtain ⟨-, hfinite⟩ := magnitudeBits_packed s hm
  have hspan : infinityBits < magnitudeSpan := by decide
  rw [isNegative, toNat_toBits_packed s hm]
  cases s with
  | positive => simp [apply_positive, UnpackedFloat.Sign.toBitVec, hfinite.trans hspan]
  | negative => simp [apply_negative, UnpackedFloat.Sign.toBitVec]

theorem cast_one_shiftLeft (k : ℕ) : ((1 <<< k : ℕ) : ℚ) = 2 ^ (k : ℤ) := by
  rw [Nat.one_shiftLeft, zpow_natCast, Nat.cast_pow, Nat.cast_ofNat]

theorem multiple_stored (hm : IsStored m e) :
    (multiple ((e + 1074).toNat * fractionSpan + m) : ℚ) / unitsPerOne = m * 2 ^ e := by
  have hlt := hm.lt
  have hlowest := hm.lowest
  have hspan : m ≤ 2 * fractionSpan := by
    unfold fractionSpan
    omega
  have hfull : (e + 1074).toNat ≠ 0 → fractionSpan ≤ m := fun hp => hm.full.resolve_right (by omega)
  have hplace : (((e + 1074).toNat : ℕ) : ℤ) = e + 1074 := Int.toNat_of_nonneg (by omega)
  have hunits : (unitsPerOne : ℚ) = 2 ^ ((1074 : ℕ) : ℤ) := cast_one_shiftLeft 1074
  have hnonzero : (2 : ℚ) ^ ((1074 : ℕ) : ℤ) ≠ 0 := zpow_ne_zero _ two_ne_zero
  rw [multiple_place hspan hfull, Nat.cast_mul, Nat.cast_pow, Nat.cast_ofNat, ← zpow_natCast,
    hplace, hunits, div_eq_iff hnonzero, mul_assoc, ← zpow_add₀ two_ne_zero]
  rfl

/-- A number put together from parts in the form in which they are stored is finite, and the
number that the parts denote. -/
theorem Denotes.packed (h : Denotes u q) :
    (Binary64.packed u).isFinite = true ∧ rational (Binary64.packed u) = q := by
  cases h with
  | zero s =>
    have hbits : magnitudeBits (Binary64.packed (.zero s)) = 0 := by cases s <;> decide +kernel
    rw [isFinite_iff, rational, hbits]
    exact ⟨by decide, by simp [multiple, significand, fractionSpan]⟩
  | finite s hm =>
    obtain ⟨hbits, hfinite⟩ := magnitudeBits_packed s hm
    rw [isFinite_iff, rational, isNegative_packed s hm, hbits, multiple_stored hm,
      cast_apply s (_ : ℕ), mul_assoc, Int.cast_natCast]
    exact ⟨hfinite, rfl⟩

/-- Bits that are not those of infinity, or beyond, are taken apart into a number. -/
theorem exists_denotes_unpack (b : BitVec 64)
    (h : @UnpackedFloat.unpackExponent Format.binary64 b ≠ -BitVec.ofNat _ 1) :
    ∃ q, Denotes (UnpackedFloat.unpack Format.binary64 b) q := by
  have hbias : Format.binary64.exponentBias = 1023 := rfl
  have hones : (-BitVec.ofNat Format.binary64.exponentBits 1).toNat = 2047 := rfl
  have hexponent : (@UnpackedFloat.unpackExponent Format.binary64 b).toNat < 2 ^ 11 :=
    BitVec.isLt _
  have hmantissa : (@UnpackedFloat.unpackMantissa Format.binary64 b).toNat < 2 ^ 52 :=
    BitVec.isLt _
  have hfinite := h
  rw [ne_eq, ← BitVec.toNat_inj, hones] at hfinite
  simp only [UnpackedFloat.unpack, if_neg h]
  split
  · next he =>
    rw [← BitVec.toNat_inj, BitVec.toNat_ofNat, Nat.zero_mod] at he
    split
    · exact ⟨_, .zero _⟩
    · next hm =>
      rw [← BitVec.toNat_inj, BitVec.toNat_ofNat, Nat.zero_mod] at hm
      exact ⟨_, .finite _ ⟨by omega, by omega, Or.inr (by omega), by omega, by omega⟩⟩
  · next he =>
    -- the leading digit is not stored
    have hdigits : (1#1 ++ @UnpackedFloat.unpackMantissa Format.binary64 b).toNat =
        2 ^ 52 + (@UnpackedFloat.unpackMantissa Format.binary64 b).toNat := by
      rw [BitVec.toNat_append, ← Nat.shiftLeft_add_eq_or_of_lt (BitVec.isLt _)]
      rfl
    rw [← BitVec.toNat_inj, BitVec.toNat_ofNat, Nat.zero_mod] at he
    exact ⟨_, .finite _ ⟨by omega, by omega, Or.inl (by omega), by omega, by omega⟩⟩

/-- The parts of a finite number denote it. -/
theorem denotes_unpack {x : Float} (hx : x.isFinite = true) :
    Denotes x.toModel.unpack (rational x) := by
  obtain ⟨q, hq⟩ := exists_denotes_unpack x.toBits.toBitVec ((isFinite_unpack _).1 hx)
  have hparts : Denotes x.toModel.unpack q := hq
  have hrational := hparts.packed.2
  rw [packed_unpack] at hrational
  rwa [hrational]

theorem add_eq_packed (x y : Float) :
    x + y = packed (UnpackedFloat.add Format.binary64 x.toModel.unpack y.toModel.unpack) := rfl

theorem sub_eq_packed (x y : Float) :
    x - y = packed (UnpackedFloat.sub Format.binary64 x.toModel.unpack y.toModel.unpack) := rfl

theorem mul_eq_packed (x y : Float) :
    x * y = packed (UnpackedFloat.mul Format.binary64 x.toModel.unpack y.toModel.unpack) := rfl

theorem neg_eq_packed (x : Float) : -x = packed x.toModel.unpack.neg := rfl

/-! ### Operations -/

variable {x y z : Float}

/-- The negative of a number is exact. -/
theorem rational_neg (hx : x.isFinite = true) :
    (-x).isFinite = true ∧ rational (-x) = -rational x := by
  rw [neg_eq_packed]
  exact (denotes_unpack hx).neg.packed

/-- **A sum is exact where it is a floating-point number.** -/
theorem rational_add (hx : x.isFinite = true) (hy : y.isFinite = true) (hz : z.isFinite = true)
    (h : rational x + rational y = rational z) :
    (x + y).isFinite = true ∧ rational (x + y) = rational z := by
  rw [add_eq_packed, ← h]
  exact ((denotes_unpack hx).add (denotes_unpack hy) ⟨_, h ▸ denotes_unpack hz⟩).packed

/-- **A difference is exact where it is a floating-point number.** -/
theorem rational_sub (hx : x.isFinite = true) (hy : y.isFinite = true) (hz : z.isFinite = true)
    (h : rational x - rational y = rational z) :
    (x - y).isFinite = true ∧ rational (x - y) = rational z := by
  rw [sub_eq_packed, ← h]
  exact ((denotes_unpack hx).sub (denotes_unpack hy) ⟨_, h ▸ denotes_unpack hz⟩).packed

/-- **A product is exact where it is a floating-point number.** -/
theorem rational_mul (hx : x.isFinite = true) (hy : y.isFinite = true) (hz : z.isFinite = true)
    (h : rational x * rational y = rational z) :
    (x * y).isFinite = true ∧ rational (x * y) = rational z := by
  rw [mul_eq_packed, ← h]
  exact ((denotes_unpack hx).mul (denotes_unpack hy) ⟨_, h ▸ denotes_unpack hz⟩).packed

end Binary64
end Calculator
