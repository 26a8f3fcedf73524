import Calculator.Binary64
import Mathlib

/-!
# Finite numbers and zeros, by their bits

The tests on floating-point numbers take a number apart into sign, exponent and
fraction.  What they find is said here of the bits: a number is finite when its
magnitude lies below that of infinity, and equals zero when it is one of the two
zeros.  A number is put together from its sign and its magnitude, and negation changes
the sign alone.

## Main results

* `Binary64.isFinite_iff` — the finite numbers.
* `Binary64.beq_zero_iff` — the numbers that equal zero.
* `Binary64.ofMagnitude_magnitudeBits`, `Binary64.magnitudeBits_ofMagnitude`,
  `Binary64.isNegative_ofMagnitude` — a number put together from its parts, and taken apart
  again.
* `Binary64.magnitudeBits_neg`, `Binary64.isNegative_neg` — the parts of the negative.
* `Binary64.neg_neg_self` — negating twice.
-/

namespace Calculator
namespace Binary64

open Float.Model Float.Model.UnpackedFloat

theorem toNat_unpackExponent (b : BitVec 64) :
    (@unpackExponent Format.binary64 b).toNat = b.toNat / 2 ^ 52 % 2 ^ 11 := by
  simp [unpackExponent, BitVec.extractLsb, Nat.shiftRight_eq_div_pow]

theorem toNat_unpackMantissa (b : BitVec 64) :
    (@unpackMantissa Format.binary64 b).toNat = b.toNat % 2 ^ 52 := by
  simp [unpackMantissa, BitVec.extractLsb]

theorem isFinite_unpack (b : BitVec 64) :
    (UnpackedFloat.unpack Format.binary64 b).isFinite = true ↔
      @unpackExponent Format.binary64 b ≠ -BitVec.ofNat _ 1 := by
  simp only [UnpackedFloat.unpack]
  split
  · next h => split <;> exact iff_of_false Bool.false_ne_true (absurd h)
  · next h =>
    split
    · split <;> exact iff_of_true rfl h
    · exact iff_of_true rfl h

/-- A number is finite when its magnitude lies below that of infinity. -/
theorem isFinite_iff (x : Float) : x.isFinite = true ↔ magnitudeBits x < infinityBits := by
  have hunpack : x.isFinite = (UnpackedFloat.unpack Format.binary64 x.toBits.toBitVec).isFinite :=
    rfl
  have hones : (-BitVec.ofNat Format.binary64.exponentBits 1).toNat = 2047 := rfl
  have hbits : x.toBits.toBitVec.toNat = x.toBits.toNat := rfl
  have hlt := x.toBits.toNat_lt
  rw [hunpack, isFinite_unpack, ne_eq, ← BitVec.toNat_inj, toNat_unpackExponent, hones, hbits]
  unfold magnitudeBits magnitudeSpan infinityBits fractionSpan
  omega

/-- The numbers that equal zero are the two zeros. -/
theorem beq_zero_iff (x : Float) : (x == 0) = true ↔ x = 0 ∨ x = -0 := by
  have hsign : (0 : Float) ≠ -0 := by decide
  have hzeros : (0 : Float) ≠ .nan ∧ (-0 : Float) ≠ .nan := by decide
  rw [Float.beq_iff_ne_nan_and_eq]
  constructor
  · rintro ⟨-, -, hzero | ⟨-, hzero⟩ | ⟨hzero, -⟩⟩
    · exact Or.inl hzero
    · exact absurd hzero hsign
    · exact Or.inr hzero
  · rintro (rfl | rfl)
    · exact ⟨hzeros.1, hzeros.1, Or.inl rfl⟩
    · exact ⟨hzeros.2, hzeros.1, Or.inr (Or.inr ⟨rfl, rfl⟩)⟩

/-- A number is put together from its sign and its magnitude. -/
theorem ofMagnitude_magnitudeBits (x : Float) :
    ofMagnitude (isNegative x) (magnitudeBits x) = x := by
  have hbits : (if isNegative x then magnitudeSpan + magnitudeBits x else magnitudeBits x) =
      x.toBits.toNat := by
    have hlt := x.toBits.toNat_lt
    unfold isNegative magnitudeBits magnitudeSpan
    by_cases hsign : 0x8000000000000000 ≤ x.toBits.toNat
    · rw [if_pos (decide_eq_true hsign)]
      omega
    · rw [if_neg (by rw [decide_eq_false hsign]; exact Bool.false_ne_true)]
      omega
  rw [ofMagnitude, hbits, UInt64.ofNat_toNat, Float.ofBits_toBits]

/-- Bits that are not above those of infinity are kept. -/
theorem toBits_ofBits {u : UInt64} (h : u.toNat % magnitudeSpan ≤ infinityBits) :
    (Float.ofBits u).toBits = u := by
  have hnan : @isNaNBits Format.binary64 u.toBitVec = false := by
    have hones : (-BitVec.ofNat Format.binary64.exponentBits 1).toNat = 2047 := rfl
    have hexponent := toNat_unpackExponent u.toBitVec
    have hmantissa := toNat_unpackMantissa u.toBitVec
    have hbits : u.toBitVec.toNat = u.toNat := rfl
    rw [isNaNBits, decide_eq_false_iff_not, not_and, not_not]
    intro he
    rw [← BitVec.toNat_inj, hexponent, hones, hbits] at he
    refine BitVec.eq_of_toNat_eq ?_
    rw [hmantissa, hbits, BitVec.toNat_ofNat, Nat.zero_mod]
    unfold magnitudeSpan infinityBits fractionSpan at h
    omega
  have hpack := @UnpackedFloat.pack_unpack Format.binary64 u.toBitVec (by decide)
  rw [hnan] at hpack
  exact UInt64.toBitVec_inj.1 hpack

/-- The bits of a number that is put together. -/
theorem toNat_toBits_ofMagnitude {bits : Nat} (h : bits ≤ infinityBits) (negative : Bool) :
    (ofMagnitude negative bits).toBits.toNat =
      if negative then magnitudeSpan + bits else bits := by
  have hlt : bits < magnitudeSpan := h.trans_lt (by decide)
  have hword : (UInt64.ofNat (if negative then magnitudeSpan + bits else bits)).toNat =
      if negative then magnitudeSpan + bits else bits := by
    refine UInt64.toNat_ofNat_of_lt' ?_
    unfold magnitudeSpan at *
    unfold UInt64.size
    split <;> omega
  have hmod : (if negative then magnitudeSpan + bits else bits) % magnitudeSpan = bits := by
    split
    · rw [Nat.add_mod_left, Nat.mod_eq_of_lt hlt]
    · exact Nat.mod_eq_of_lt hlt
  rw [ofMagnitude, toBits_ofBits (by rw [hword, hmod]; exact h), hword]

/-- The magnitude of a number put together is the one that went in. -/
theorem magnitudeBits_ofMagnitude {bits : Nat} (h : bits ≤ infinityBits) (negative : Bool) :
    magnitudeBits (ofMagnitude negative bits) = bits := by
  have hlt : bits < magnitudeSpan := h.trans_lt (by decide)
  rw [magnitudeBits, toNat_toBits_ofMagnitude h]
  split
  · rw [Nat.add_mod_left, Nat.mod_eq_of_lt hlt]
  · exact Nat.mod_eq_of_lt hlt

/-- The sign of a number put together is the one that went in. -/
theorem isNegative_ofMagnitude {bits : Nat} (h : bits ≤ infinityBits) (negative : Bool) :
    isNegative (ofMagnitude negative bits) = negative := by
  have hlt : bits < magnitudeSpan := h.trans_lt (by decide)
  rw [isNegative, toNat_toBits_ofMagnitude h]
  cases negative with
  | true => simp
  | false => simpa using hlt

/-! ### Negation -/

/-- A word put together from a sign, an exponent and a fraction, as a natural number. -/
theorem toNat_packComponents (s : Sign) (e : BitVec 11) (m : BitVec 52) :
    (packComponents Format.binary64 s e m).toNat =
      s.toBitVec.toNat * magnitudeSpan + (e.toNat * fractionSpan + m.toNat) := by
  have hfront : (s.toBitVec ++ e).toNat = s.toBitVec.toNat * 2 ^ 11 + e.toNat := by
    rw [BitVec.toNat_append, ← Nat.shiftLeft_add_eq_or_of_lt e.isLt, Nat.shiftLeft_eq]
  have hall : (packComponents Format.binary64 s e m).toNat =
      (s.toBitVec ++ e).toNat * 2 ^ 52 + m.toNat := by
    rw [packComponents, BitVec.toNat_append, ← Nat.shiftLeft_add_eq_or_of_lt m.isLt,
      Nat.shiftLeft_eq]
  rw [hall, hfront]
  unfold magnitudeSpan fractionSpan
  omega

/-- Negation changes nothing but the sign. -/
theorem exists_pack_neg (u : UnpackedFloat) (hu : u ≠ .notANumber) :
    ∃ s e m, UnpackedFloat.pack Format.binary64 u = packComponents Format.binary64 s e m ∧
      UnpackedFloat.pack Format.binary64 u.neg = packComponents Format.binary64 (-s) e m := by
  cases u with
  | notANumber => exact absurd rfl hu
  | infinity s => exact ⟨s, _, _, rfl, rfl⟩
  | zero s => exact ⟨s, _, _, rfl, rfl⟩
  | finite s m e hm =>
    unfold UnpackedFloat.neg UnpackedFloat.pack
    dsimp only
    split
    · exact ⟨s, _, _, rfl, rfl⟩
    · split
      · exact ⟨s, _, _, rfl, rfl⟩
      · exact ⟨s, _, _, rfl, rfl⟩

/-- The bits of a finite number and of its negative differ in the sign bit. -/
theorem exists_toBits_neg {x : Float} (hx : x.isFinite = true) :
    ∃ (s : Sign) (rest : Nat), rest < magnitudeSpan ∧
      x.toBits.toNat = s.toBitVec.toNat * magnitudeSpan + rest ∧
      (-x).toBits.toNat = (-s).toBitVec.toNat * magnitudeSpan + rest := by
  have hne : x.toModel.unpack ≠ .notANumber := by
    intro hnan
    have hfinite : x.toModel.unpack.isFinite = true := hx
    rw [hnan] at hfinite
    cases hfinite
  obtain ⟨s, e, m, hpack, hneg⟩ := exists_pack_neg x.toModel.unpack hne
  have hx : UnpackedFloat.pack Format.binary64 x.toModel.unpack = x.toBits.toBitVec :=
    pack_unpack_of_valid x.toModel.valid
  have hnegx : (-x).toBits.toBitVec = UnpackedFloat.pack Format.binary64 x.toModel.unpack.neg := rfl
  refine ⟨s, e.toNat * fractionSpan + m.toNat, ?_, ?_, ?_⟩
  · have he : e.toNat < 2 ^ 11 := e.isLt
    have hm : m.toNat < 2 ^ 52 := m.isLt
    unfold magnitudeSpan fractionSpan
    omega
  · rw [← UInt64.toNat_toBitVec, ← hx, hpack, toNat_packComponents]
  · rw [← UInt64.toNat_toBitVec, hnegx, hneg, toNat_packComponents]

theorem magnitudeBits_neg {x : Float} (hx : x.isFinite = true) :
    magnitudeBits (-x) = magnitudeBits x := by
  obtain ⟨s, rest, hrest, hbits, hneg⟩ := exists_toBits_neg hx
  rw [magnitudeBits, magnitudeBits, hbits, hneg, Nat.add_comm, Nat.add_mul_mod_self_right,
    Nat.add_comm, Nat.add_mul_mod_self_right]

theorem isNegative_neg {x : Float} (hx : x.isFinite = true) :
    isNegative (-x) = !isNegative x := by
  obtain ⟨s, rest, hrest, hbits, hneg⟩ := exists_toBits_neg hx
  have hnot : ¬ magnitudeSpan ≤ rest := Nat.not_le.2 hrest
  rw [isNegative, isNegative, hbits, hneg]
  cases s with
  | negative => simp [Sign.toBitVec, hnot]
  | positive => simp [Sign.toBitVec, hnot]

theorem isFinite_neg {x : Float} (hx : x.isFinite = true) : (-x).isFinite = true := by
  rw [isFinite_iff, magnitudeBits_neg hx, ← isFinite_iff]
  exact hx

/-- What is not finite is an infinity, or what stands for no number. -/
theorem eq_of_not_isFinite {x : Float} (hx : x.isFinite = false) :
    x = 1 / 0 ∨ x = -(1 / 0) ∨ x = 0 / 0 := by
  have hpack : UnpackedFloat.pack Format.binary64 x.toModel.unpack = x.toBits.toBitVec :=
    pack_unpack_of_valid x.toModel.valid
  have hword : ∀ y : Float,
      y.toBits.toBitVec = UnpackedFloat.pack Format.binary64 x.toModel.unpack → x = y := by
    intro y hy
    rw [hpack, UInt64.toBitVec_inj] at hy
    rw [← Float.ofBits_toBits x, ← hy, Float.ofBits_toBits]
  have hunpack : x.toModel.unpack.isFinite = false := hx
  cases hu : x.toModel.unpack with
  | notANumber => exact Or.inr (Or.inr (hword _ (by rw [hu]; decide +kernel)))
  | infinity s =>
    cases s with
    | positive => exact Or.inl (hword _ (by rw [hu]; decide +kernel))
    | negative => exact Or.inr (Or.inl (hword _ (by rw [hu]; decide +kernel)))
  | zero s =>
    rw [hu] at hunpack
    cases hunpack
  | finite s m e hm =>
    rw [hu] at hunpack
    cases hunpack

/-- Negating twice gives the number back, also where it is not finite. -/
theorem neg_neg_self (x : Float) : - -x = x := by
  cases hx : x.isFinite with
  | false => rcases eq_of_not_isFinite hx with rfl | rfl | rfl <;> decide +kernel
  | true =>
    have hneg := isFinite_neg hx
    rw [← ofMagnitude_magnitudeBits (- -x), isNegative_neg hneg, isNegative_neg hx,
      magnitudeBits_neg hneg, magnitudeBits_neg hx, Bool.not_not, ofMagnitude_magnitudeBits]

end Binary64
end Calculator
