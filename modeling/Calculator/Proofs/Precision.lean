import Calculator.Proofs.NearestFloat
import Calculator.Proofs.Shortest

/-!
# What cannot be shown

A result that is not finite is always shown, as an error.  A finite result is rounded first,
and rounding can fail in two ways only: the place to round to lies above the largest exponent,
or the rounded number has more digits than are kept.  The second never happens.  A finite
result is written with at most seventeen digits; it is rounded only if some of these lie beyond
the last place kept, so rounding takes digits away, and adds one at most by a carry.  For the
same reason nothing is lost when the rounded number is cut to the digits that are kept.

## Main definitions

* `refusal places` — the failure to round to a place above the largest exponent.

## Main results

* `Decimal.exponent_ofFloat_lt` — the digits of a finite number end below that exponent.
* `display_eq_refusal` — no finite result can be rounded to a place so high.
* `Decimal.roundTo_ofFloat` — everywhere else it can, within the digits that are kept.
* `display_eq_error_iff` — **which results cannot be shown**.
-/

namespace Calculator

variable {x : Float} {places : Int}

namespace Decimal

/-- The digits of a finite number end below the largest exponent. -/
theorem exponent_ofFloat_lt (hx : x.isFinite = true) :
    (ofFloat x).exponent < maxExponent := by
  have hbits := congrArg Binary64.magnitudeBits (toFloat_ofFloat hx)
  rw [magnitudeBits_toFloat] at hbits
  by_cases hzero : (ofFloat x).coefficient = 0
  · -- zero is written `0.0`
    rw [nearest_eq_zero_of_value (value_eq_zero_iff.2 hzero)] at hbits
    rw [ofFloat, ← hbits, shortest_zero]
    cases Binary64.isNegative x <;> decide +kernel
  · by_contra hlarge
    have hone : (1 : ℚ) ≤ (ofFloat x).coefficient := by
      exact_mod_cast Nat.one_le_iff_ne_zero.2 hzero
    have hpower : (powerOfTen 309 : ℚ) ≤ (ofFloat x).magnitude :=
      calc (powerOfTen 309 : ℚ) = 10 ^ ((309 : ℕ) : ℤ) := by rw [cast_powerOfTen, zpow_natCast]
        _ ≤ 10 ^ (ofFloat x).exponent :=
          zpow_le_zpow_right₀ (by norm_num) (by rw [maxExponent] at hlarge; omega)
        _ ≤ (ofFloat x).magnitude := le_mul_of_one_le_left (by positivity) hone
    have hinfinity : Binary64.nearest (powerOfTen 309) 1 = Binary64.infinityBits := by
      decide +kernel
    have hmono : Binary64.nearest (powerOfTen 309) 1 ≤ Binary64.magnitudeBits x := by
      rw [← hbits]
      exact nearest_le_of_le_magnitude hpower
    have hfinite := (Binary64.isFinite_iff x).1 hx
    omega

/-- Where the place is not too high, the decimal of a finite number is rounded.  It is left as
it is if it has no digits beyond the last place kept; whichever way, it has few enough digits
to be written in full. -/
theorem roundTo_ofFloat (hx : x.isFinite = true) (hplaces : -maxExponent ≤ places) :
    ∃ rounded, (ofFloat x).roundTo places = .ok rounded ∧
      (-places ≤ (ofFloat x).exponent → rounded = ofFloat x) ∧
      ((ofFloat x).exponent < -places → rounded = (ofFloat x).rescale (-places)) ∧
      digitCount rounded.coefficient ≤ maxShortestDigits + 1 := by
  have hdigits := digitCount_ofFloat_le hx
  by_cases hkept : -places ≤ (ofFloat x).exponent
  · exact ⟨ofFloat x, roundTo_of_le hkept, fun _ => rfl, fun hcut => absurd hkept (not_le.2 hcut),
      by omega⟩
  · have hrounded := digitCount_rescale_le hdigits (-places)
    have hfit : digitCount ((ofFloat x).rescale (-places)).coefficient ≤ maxDigits :=
      hrounded.trans (by decide)
    exact ⟨_, roundTo_of_lt (not_le.1 hkept) hplaces hfit, fun h => absurd h hkept, fun _ => rfl,
      hrounded⟩

end Decimal

/-- The failure to round to a place above the largest exponent. -/
def refusal (places : Int) : Decimal.Failure :=
  if Decimal.maxShift < -places then .invalidOperation else .overflow

theorem refusal_eq (places : Int) :
    refusal places = if -2000054 ≤ places then .overflow else .invalidOperation := by
  have hshift : Decimal.maxShift = 2000054 := by decide
  rw [refusal, hshift]
  by_cases hnear : -2000054 ≤ places
  · rw [if_pos hnear, if_neg (by omega)]
  · rw [if_neg hnear, if_pos (by omega)]

/-- A finite result cannot be rounded to a place above the largest exponent. -/
theorem display_eq_refusal (hx : x.isFinite = true)
    (hplaces : places < -Decimal.maxExponent) : display places x = .error (refusal places) := by
  have hexponent := Decimal.exponent_ofFloat_lt hx
  have hround : (Decimal.ofFloat x).roundTo places = .error (refusal places) := by
    have hkept : ¬ -places ≤ (Decimal.ofFloat x).exponent := by omega
    have habove : Decimal.maxExponent < -places := by omega
    rw [Decimal.roundTo, if_neg hkept, refusal, if_pos habove]
    split <;> rfl
  rw [display, if_pos hx, hround]
  rfl

/-- **Which results cannot be shown.**  Showing a result fails exactly if it is finite and the
place to round to lies above the largest exponent; how it fails depends on the place alone.
In every other case a finite result is shown.  Its decimal has at most seventeen digits.  It
is left as it is if none of them lies beyond the last place kept, and rounded otherwise; either
way it has at most eighteen digits then, so it is not cut, and what is written has its value. -/
theorem display_eq_error_iff (x : Float) (places : Int) :
    (∀ failure, display places x = .error failure ↔
      x.isFinite = true ∧ places < -999999 ∧
        failure = if -2000054 ≤ places then .overflow else .invalidOperation) ∧
    (x.isFinite = true → -999999 ≤ places →
      digitCount (Decimal.ofFloat x).coefficient ≤ 17 ∧
      ∃ rounded, (Decimal.ofFloat x).roundTo places = .ok rounded ∧
        display places x = .ok rounded.text ∧
        (-places ≤ (Decimal.ofFloat x).exponent → rounded = Decimal.ofFloat x) ∧
        ((Decimal.ofFloat x).exponent < -places →
          rounded = (Decimal.ofFloat x).rescale (-places)) ∧
        digitCount rounded.coefficient ≤ 18 ∧
        rounded.fitted = rounded ∧ rounded.normalized.value = rounded.value) := by
  refine ⟨fun failure => ⟨fun hfails => ?_, ?_⟩, fun hx hplaces => ?_⟩
  · cases hx : x.isFinite with
    | false =>
      rw [display_of_not_isFinite hx] at hfails
      cases hfails
    | true =>
      have hplaces : places < -999999 := by
        by_contra hplaces
        obtain ⟨rounded, hround, -⟩ := Decimal.roundTo_ofFloat hx (not_lt.1 hplaces)
        rw [display_of_roundTo hx hround] at hfails
        cases hfails
      rw [display_eq_refusal hx hplaces, Except.error.injEq] at hfails
      exact ⟨rfl, hplaces, hfails ▸ refusal_eq places⟩
  · rintro ⟨hx, hplaces, rfl⟩
    rw [display_eq_refusal hx hplaces, refusal_eq]
  · obtain ⟨rounded, hround, hkept, hcut, hdigits⟩ := Decimal.roundTo_ofFloat hx hplaces
    have hfit : digitCount rounded.coefficient ≤ Decimal.maxDigits := hdigits.trans (by decide)
    exact ⟨Decimal.digitCount_ofFloat_le hx, rounded, hround, display_of_roundTo hx hround, hkept,
      hcut, hdigits, Decimal.fitted_of_le hfit,
      Decimal.value_congr rfl (Decimal.magnitude_normalized hfit)⟩

end Calculator
