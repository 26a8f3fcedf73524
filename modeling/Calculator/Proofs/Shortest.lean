import Calculator.Proofs.Bits
import Calculator.Proofs.DecimalValue
import Calculator.Proofs.Nearest

/-!
# The shortest decimal reads back

At seventeen digits the neighbour of a floating-point number on the decimal grid differs
from it by at most half a unit of the seventeenth digit, which is one part in `2 · 10¹⁶`.
So it reads back, the search for the shortest decimal always ends with a decimal of at
most seventeen digits, and that decimal reads back as the number.

The decimals that read back lie together.  So if one of them lies on a grid, a neighbour
of the number on that grid reads back as well, and the search misses no length: no decimal
of fewer digits reads back.

## Main results

* `integerDigits_bounds` — the place of the first digit of a fraction.
* `isSome_decimalOfLength?_maxShortestDigits` — **a decimal of seventeen digits reads
  back**.
* `readsBack_shortest`, `digitCount_shortest_le` — the shortest decimal reads back and
  has at most seventeen digits.
* `Decimal.digitCount_ofFloat_le` — written down, a finite number has at most seventeen digits.
* `Decimal.toFloat_ofFloat`, `Decimal.digitCount_shortest_le_of_toFloat_eq` — **the
  shortest decimal of a finite number denotes the number, and no shorter one does**.
* `exists_display_eq_text` — the decimal whose text is shown.
-/

namespace Calculator

open Binary64

variable {num den bits : Nat}

/-! ### The decimal grid around a fraction -/

/-- The place of the first digit of a fraction lies just before the point of its
`integerDigits`. -/
theorem integerDigits_bounds (hnum : 0 < num) (hden : 0 < den) :
    (10 : ℚ) ^ (integerDigits num den - 1) ≤ num / den ∧
      (num / den : ℚ) < 10 ^ integerDigits num den := by
  have hnum' : (0 : ℚ) < num := by exact_mod_cast hnum
  have hden' : (0 : ℚ) < den := by exact_mod_cast hden
  unfold integerDigits
  split
  · next hle =>
    have hquotient : 0 < num / den := Nat.div_pos hle hden
    have hlow := powerOfTen_digitCount_sub_one_le hquotient
    have hhigh := lt_powerOfTen_digitCount (num / den)
    have hcount := digitCount_pos (num / den)
    generalize digitCount (num / den) = k at *
    rw [Nat.le_div_iff_mul_le hden] at hlow
    rw [Nat.div_lt_iff_lt_mul hden] at hhigh
    rw [show (k : Int) - 1 = (k - 1 : Nat) by omega, zpow_natCast, zpow_natCast,
      ← cast_powerOfTen, ← cast_powerOfTen, le_div_iff₀ hden', div_lt_iff₀ hden']
    exact ⟨by exact_mod_cast hlow, by exact_mod_cast hhigh⟩
  · next hnot =>
    rw [not_le] at hnot
    have hquotient : 0 < (den - 1) / num := Nat.div_pos (by omega) hnum
    have hlow := powerOfTen_digitCount_sub_one_le hquotient
    have hhigh := lt_powerOfTen_digitCount ((den - 1) / num)
    have hcount := digitCount_pos ((den - 1) / num)
    generalize digitCount ((den - 1) / num) = k at *
    rw [Nat.le_div_iff_mul_le hnum] at hlow
    rw [Nat.div_lt_iff_lt_mul hnum] at hhigh
    rw [show 1 - (k : Int) - 1 = -(k : Int) by ring, show 1 - (k : Int) = -((k - 1 : Nat) : Int) by
      omega, zpow_neg, zpow_neg, zpow_natCast, zpow_natCast, ← cast_powerOfTen, ← cast_powerOfTen]
    have hpos : ∀ n, (0 : ℚ) < powerOfTen n := fun n => by exact_mod_cast powerOfTen_pos n
    rw [le_div_iff₀ hden', inv_mul_le_iff₀ (hpos k), div_lt_iff₀ hden',
      lt_inv_mul_iff₀ (hpos (k - 1))]
    have hhigh' : den ≤ powerOfTen k * num := by omega
    have hlow' : powerOfTen (k - 1) * num < den := by omega
    exact ⟨by exact_mod_cast hhigh', by exact_mod_cast hlow'⟩

/-- A fraction counted in units of the grid. -/
theorem scaled_div (num den : Nat) (e : Int) :
    ((num * powerOfTen (-e).toNat : Nat) / (den * powerOfTen e.toNat : Nat) : ℚ) =
      num / den / 10 ^ e := by
  rw [Nat.cast_mul, Nat.cast_mul, cast_powerOfTen, cast_powerOfTen, mul_div_mul_comm,
    div_eq_mul_inv _ ((10 : ℚ) ^ e), ← zpow_neg, ← zpow_natCast, ← zpow_natCast,
    ← zpow_sub₀ (by norm_num)]
  congr 2
  omega

theorem scaledDen_pos (hden : 0 < den) (e : Int) : 0 < den * powerOfTen e.toNat :=
  Nat.mul_pos hden (powerOfTen_pos _)

/-- The decimals tried on a grid that is fine enough for `digits` digits have no more than
that, the next power of ten apart. -/
theorem coefficient_le_of_mem_gridNeighbours {e : Int} {digits : Nat} {d : Decimal}
    (hden : 0 < den) (hlt : (num / den : ℚ) < 10 ^ (e + digits))
    (hd : d ∈ gridNeighbours num den e) : d.coefficient ≤ powerOfTen digits := by
  have hbelow : num * powerOfTen (-e).toNat / (den * powerOfTen e.toNat) < powerOfTen digits := by
    rw [Nat.div_lt_iff_lt_mul (scaledDen_pos hden e)]
    have hscaled : ((num * powerOfTen (-e).toNat : Nat) / (den * powerOfTen e.toNat : Nat) : ℚ) <
        powerOfTen digits := by
      rw [scaled_div, div_lt_iff₀ (zpow_pos (by norm_num) e), cast_powerOfTen, ← zpow_natCast,
        ← zpow_add₀ (by norm_num), add_comm]
      exact hlt
    rw [div_lt_iff₀ (by exact_mod_cast scaledDen_pos hden e)] at hscaled
    exact_mod_cast hscaled
  simp only [gridNeighbours, List.map_cons, List.map_nil, List.mem_cons, List.not_mem_nil,
    or_false] at hd
  rcases hd with rfl | rfl | rfl
  · rcases roundQuotient_eq_or (num * powerOfTen (-e).toNat) (den * powerOfTen e.toNat) .even with
      hround | hround
    · exact hround ▸ hbelow.le
    · exact hround ▸ hbelow
  · exact hbelow.le
  · exact hbelow

/-- The point of a grid nearest to a fraction. -/
def nearestOnGrid (num den : Nat) (e : Int) : Decimal :=
  ⟨false, roundQuotient (num * powerOfTen (-e).toNat) (den * powerOfTen e.toNat) .even, e⟩

theorem nearestOnGrid_mem (num den : Nat) (e : Int) :
    nearestOnGrid num den e ∈ gridNeighbours num den e := List.mem_cons_self

/-- The nearest point of a grid is at most half a unit of the grid away. -/
theorem abs_nearestOnGrid_sub_le (num : Nat) (hden : 0 < den) (e : Int) :
    |(nearestOnGrid num den e).magnitude - num / den| ≤ 10 ^ e / 2 := by
  have hpow : (0 : ℚ) < 10 ^ e := zpow_pos (by norm_num) e
  have hround := abs_roundQuotient_sub_le (num * powerOfTen (-e).toNat) (scaledDen_pos hden e) .even
  rw [scaled_div] at hround
  unfold nearestOnGrid Decimal.magnitude
  generalize ((roundQuotient _ _ _ : Nat) : ℚ) = c at *
  calc |c * 10 ^ e - num / den|
      = |c - num / den / 10 ^ e| * 10 ^ e := abs_mul_sub hpow _ _
    _ ≤ 1 / 2 * 10 ^ e := mul_le_mul_of_nonneg_right hround hpow.le
    _ = 10 ^ e / 2 := by ring

/-- The nearest point of a grid is not beyond a point that the fraction does not exceed. -/
theorem coefficient_nearestOnGrid_le {m : Nat} {e : Int} (hden : 0 < den)
    (h : (num / den : ℚ) ≤ m * 10 ^ e) : (nearestOnGrid num den e).coefficient ≤ m := by
  refine roundQuotient_le_of_le (scaledDen_pos hden e) .even ?_
  rwa [scaled_div, div_le_iff₀ (zpow_pos (by norm_num) e)]

theorem le_coefficient_nearestOnGrid {m : Nat} {e : Int} (hden : 0 < den)
    (h : m * 10 ^ e ≤ (num / den : ℚ)) : m ≤ (nearestOnGrid num den e).coefficient := by
  refine le_roundQuotient_of_le (scaledDen_pos hden e) .even ?_
  rwa [scaled_div, le_div_iff₀ (zpow_pos (by norm_num) e)]

/-! ### Decimals that read back -/

/-- The nearest floating-point number depends on the magnitude alone. -/
theorem readsBack_congr {d d' : Decimal} (h : d.magnitude = d'.magnitude) (bits : Nat) :
    readsBack bits d = readsBack bits d' := by
  rw [← d.numerator_div_denominator, ← d'.numerator_div_denominator] at h
  rw [readsBack, readsBack, nearest_congr d.denominator_pos d'.denominator_pos h]

@[simp] theorem multiple_zero : multiple 0 = 0 := by decide

theorem multiple_pos (hpos : 0 < bits) : 0 < multiple bits := by
  have hsignificand : 0 < significand bits := by
    unfold significand fractionSpan
    split <;> omega
  rw [multiple, Nat.shiftLeft_eq]
  exact Nat.mul_pos hsignificand (Nat.pow_pos (by decide))

theorem unitsPerOne_pos : 0 < unitsPerOne := shiftLeft_pos 1074 Nat.one_pos

theorem decimalOfLength?_eq (bits digits : Nat) :
    decimalOfLength? bits digits =
      (gridNeighbours (multiple bits) unitsPerOne
        (integerDigits (multiple bits) unitsPerOne - digits)).find? (readsBack bits) := rfl

/-- What the search finds at one length reads back and is no longer than that. -/
theorem decimalOfLength?_eq_some {digits : Nat} {d : Decimal} (hpos : 0 < bits)
    (h : decimalOfLength? bits digits = some d) :
    readsBack bits d = true ∧ d.coefficient ≤ powerOfTen digits := by
  rw [decimalOfLength?_eq] at h
  refine ⟨List.find?_some h, ?_⟩
  refine coefficient_le_of_mem_gridNeighbours unitsPerOne_pos ?_ (List.mem_of_find?_eq_some h)
  rw [sub_add_cancel]
  exact (integerDigits_bounds (multiple_pos hpos) unitsPerOne_pos).2

/-- The nearest point of a grid to a floating-point number is at most half a unit of the grid
away. -/
theorem abs_unitsOf_nearestOnGrid_sub_le (bits : Nat) (e : Int) :
    |unitsOf (nearestOnGrid (multiple bits) unitsPerOne e).numerator
        (nearestOnGrid (multiple bits) unitsPerOne e).denominator - multiple bits| ≤
      10 ^ e / 2 * unitsPerOne := by
  have hunits : (0 : ℚ) < unitsPerOne := by exact_mod_cast unitsPerOne_pos
  rw [unitsOf, Decimal.numerator_div_denominator, abs_mul_sub hunits]
  exact mul_le_mul_of_nonneg_right (abs_nearestOnGrid_sub_le _ unitsPerOne_pos e) hunits.le

/-- **A decimal of seventeen digits reads back**: the nearest one. -/
theorem isSome_decimalOfLength?_maxShortestDigits (hpos : 0 < bits)
    (hfinite : bits < infinityBits) : (decimalOfLength? bits maxShortestDigits).isSome := by
  have hunits : (0 : ℚ) < unitsPerOne := by exact_mod_cast unitsPerOne_pos
  have hfirst := (integerDigits_bounds (multiple_pos hpos) unitsPerOne_pos).1
  rw [decimalOfLength?_eq]
  set e := integerDigits (multiple bits) unitsPerOne - maxShortestDigits with he
  -- a unit of the grid is at most one part in 10¹⁶ of the number
  have hgrid : (10 : ℚ) ^ e * 10 ^ 16 ≤ multiple bits / unitsPerOne := by
    rw [← zpow_natCast (10 : ℚ) 16, ← zpow_add₀ (by norm_num)]
    convert hfirst using 2
    rw [he, maxShortestDigits]
    push_cast
    ring
  rw [List.find?_isSome]
  refine ⟨_, nearestOnGrid_mem (multiple bits) unitsPerOne e, ?_⟩
  rw [readsBack, beq_iff_eq]
  refine nearest_eq_of_abs_sub_le (Decimal.denominator_pos _) hfinite
    ((abs_unitsOf_nearestOnGrid_sub_le bits e).trans ?_)
  rw [le_div_iff₀ hunits] at hgrid
  linarith

/-! ### No length is missed -/

/-- A floating-point number is its own nearest one. -/
theorem nearest_multiple (hfinite : bits < infinityBits) :
    nearest (multiple bits) unitsPerOne = bits := by
  have hunits : (0 : ℚ) < unitsPerOne := by exact_mod_cast unitsPerOne_pos
  refine nearest_eq_of_abs_sub_le unitsPerOne_pos hfinite ?_
  rw [unitsOf, div_mul_cancel₀ _ hunits.ne', sub_self, abs_zero]
  exact div_nonneg (Nat.cast_nonneg _) (by norm_num)

/-- A decimal between the number and one that reads back reads back. -/
theorem readsBack_between {d d' : Decimal} (hfinite : bits < infinityBits)
    (h : readsBack bits d = true)
    (hbetween : d.magnitude ≤ d'.magnitude ∧ d'.magnitude ≤ multiple bits / unitsPerOne ∨
      multiple bits / unitsPerOne ≤ d'.magnitude ∧ d'.magnitude ≤ d.magnitude) :
    readsBack bits d' = true := by
  have hself := nearest_multiple hfinite
  rw [readsBack, beq_iff_eq] at h ⊢
  rw [← d.numerator_div_denominator, ← d'.numerator_div_denominator] at hbetween
  rcases hbetween with ⟨hlow, hhigh⟩ | ⟨hlow, hhigh⟩
  · refine le_antisymm ?_ ?_
    · exact (nearest_mono d'.denominator_pos unitsPerOne_pos hhigh).trans hself.le
    · exact h.ge.trans (nearest_mono d.denominator_pos d'.denominator_pos hlow)
  · refine le_antisymm ?_ ?_
    · exact (nearest_mono d'.denominator_pos d.denominator_pos hhigh).trans h.le
    · exact hself.ge.trans (nearest_mono unitsPerOne_pos d'.denominator_pos hlow)

/-- If any decimal of a grid reads back, so does one of those tried: the neighbour of the
number on the same side. -/
theorem exists_mem_gridNeighbours {m : Nat} {e : Int} (hfinite : bits < infinityBits)
    (h : readsBack bits ⟨false, m, e⟩ = true) :
    ∃ d ∈ gridNeighbours (multiple bits) unitsPerOne e, readsBack bits d = true := by
  have hpow : (0 : ℚ) < 10 ^ e := zpow_pos (by norm_num) e
  have hsides := (roundsBetween_roundQuotient (multiple bits * powerOfTen (-e).toNat)
    (scaledDen_pos unitsPerOne_pos e) .even).le_and_lt
  rw [scaled_div, le_div_iff₀ hpow, div_lt_iff₀ hpow] at hsides
  obtain ⟨hlow, hhigh⟩ := hsides
  generalize hbelow : multiple bits * powerOfTen (-e).toNat / (unitsPerOne * powerOfTen e.toNat) =
    below at *
  rcases Nat.lt_or_ge below m with hlt | hge
  · have hlt' : ((below + 1 : Nat) : ℚ) * 10 ^ e ≤ m * 10 ^ e :=
      mul_le_mul_of_nonneg_right (by exact_mod_cast hlt) hpow.le
    have hhigh' : (multiple bits / unitsPerOne : ℚ) ≤ (below + 1 : Nat) * 10 ^ e := by
      push_cast
      exact hhigh.le
    refine ⟨⟨false, below + 1, e⟩, ?_, readsBack_between hfinite h (Or.inr ⟨hhigh', hlt'⟩)⟩
    rw [← hbelow]
    simp [gridNeighbours]
  · have hge' : (m : ℚ) * 10 ^ e ≤ below * 10 ^ e :=
      mul_le_mul_of_nonneg_right (by exact_mod_cast hge) hpow.le
    refine ⟨⟨false, below, e⟩, ?_, readsBack_between hfinite h (Or.inl ⟨hge', hlow⟩)⟩
    rw [← hbelow]
    simp [gridNeighbours]

/-- **A decimal that reads back is found at its own length or a smaller one.** -/
theorem exists_isSome_decimalOfLength? {d : Decimal} {digits : Nat} (hpos : 0 < bits)
    (hfinite : bits < infinityBits) (h : readsBack bits d = true) (hdigits : 0 < digits)
    (hshort : d.coefficient < powerOfTen digits) :
    ∃ n, 0 < n ∧ n ≤ digits ∧ (decimalOfLength? bits n).isSome := by
  have hfirst := (integerDigits_bounds (multiple_pos hpos) unitsPerOne_pos).1
  set k := integerDigits (multiple bits) unitsPerOne with hk
  have hfound : ∀ {n m : Nat}, readsBack bits ⟨false, m, k - n⟩ = true →
      (decimalOfLength? bits n).isSome := by
    intro n m hm
    obtain ⟨d', hmem, hreads⟩ := exists_mem_gridNeighbours hfinite hm
    rw [decimalOfLength?_eq]
    exact List.find?_isSome.2 ⟨d', hmem, hreads⟩
  rcases lt_or_ge d.magnitude (10 ^ (k - 1)) with hbelow | hinside
  · -- the power of ten at the first place of the number lies between the two
    have hone : Decimal.magnitude ⟨false, 1, k - (1 : Nat)⟩ = 10 ^ (k - 1) := by
      simp [Decimal.magnitude]
    refine ⟨1, Nat.one_pos, hdigits, hfound (m := 1) (readsBack_between hfinite h (Or.inl ?_))⟩
    rw [hone]
    exact ⟨hbelow.le, hfirst⟩
  · -- the decimal reaches that place, so it lies on the grid of its length
    have hgrid : k - digits ≤ d.exponent := by
      by_contra hfine
      have hsmall : d.magnitude < 10 ^ (k - 1) := by
        calc d.magnitude < powerOfTen digits * 10 ^ d.exponent :=
              mul_lt_mul_of_pos_right (by exact_mod_cast hshort) (zpow_pos (by norm_num) _)
          _ = 10 ^ (digits + d.exponent) := by
              rw [cast_powerOfTen, ← zpow_natCast, ← zpow_add₀ (by norm_num)]
          _ ≤ 10 ^ (k - 1) := zpow_le_zpow_right₀ (by norm_num) (by omega)
      exact absurd hinside (not_le.2 hsmall)
    refine ⟨digits, hdigits, le_rfl, hfound (m := d.coefficient *
      powerOfTen (d.exponent - (k - digits)).toNat) ?_⟩
    rw [readsBack_congr (Decimal.magnitude_shift ..),
      show k - digits + ((d.exponent - (k - digits)).toNat : Int) = d.exponent by omega]
    exact h

/-! ### The shortest decimal -/

/-- The next power of ten has zeros at its end, so the reduced form of a decimal found at
one length has no more digits than that. -/
theorem Decimal.coefficient_reduced_lt {d : Decimal} {digits : Nat} (hdigits : 0 < digits)
    (h : d.coefficient ≤ powerOfTen digits) : d.reduced.coefficient < powerOfTen digits := by
  have hle : d.reduced.coefficient ≤ d.coefficient := Nat.div_le_self ..
  rcases Nat.lt_or_eq_of_le h with hlt | heq
  · omega
  · obtain ⟨n, rfl⟩ : ∃ n, digits = n + 1 := ⟨digits - 1, by omega⟩
    have hzeros : 0 < trailingZeros d.coefficient := by
      have hmod : d.coefficient % 10 = 0 := by
        rw [heq, powerOfTen_succ]
        exact Nat.mul_mod_left ..
      have hpositive : 0 < d.coefficient := heq ▸ powerOfTen_pos _
      rw [trailingZeros, if_pos ⟨hpositive, hmod⟩]
      exact Nat.succ_pos _
    have hten : 1 < powerOfTen (trailingZeros d.coefficient) :=
      Nat.one_lt_pow hzeros.ne' (by decide)
    exact (Nat.div_lt_self (heq ▸ powerOfTen_pos _) hten).trans_le h

/-- The search ends at the first length at which a decimal reads back. -/
theorem exists_first_length (hpos : 0 < bits) (hfinite : bits < infinityBits) :
    ∃ digits d, 0 < digits ∧ digits ≤ maxShortestDigits ∧
      decimalOfLength? bits digits = some d ∧ shortest bits = d.reduced ∧
      ∀ n, 0 < n → n < digits → decimalOfLength? bits n = none := by
  have hfound :
      ((List.range' 1 maxShortestDigits).findSome? (decimalOfLength? bits)).isSome := by
    rw [List.findSome?_isSome_iff]
    exact ⟨maxShortestDigits, by decide, isSome_decimalOfLength?_maxShortestDigits hpos hfinite⟩
  obtain ⟨d, hd⟩ := Option.isSome_iff_exists.1 hfound
  have hshortest : shortest bits = d.reduced := by
    rw [shortest, if_neg hpos.ne', hd]
    rfl
  obtain ⟨before, digits, after, hsplit, hdigits, hbefore⟩ := List.findSome?_eq_some_iff.1 hd
  obtain ⟨k, hk, hfront, hrest⟩ := List.range'_eq_append_iff.1 hsplit
  obtain ⟨hstart, hcount, -⟩ := List.range'_eq_cons_iff.1 hrest.symm
  refine ⟨digits, d, by omega, by omega, hdigits, hshortest, fun n hn hlt => hbefore n ?_⟩
  rw [hfront, List.mem_range'_1]
  exact ⟨hn, by omega⟩

/-- The shortest decimal reads back, and is no longer than the first length at which any
decimal does. -/
theorem exists_shortest_length (hpos : 0 < bits) (hfinite : bits < infinityBits) :
    ∃ digits, 0 < digits ∧ digits ≤ maxShortestDigits ∧
      readsBack bits (shortest bits) = true ∧ digitCount (shortest bits).coefficient ≤ digits ∧
      ∀ n, 0 < n → n < digits → decimalOfLength? bits n = none := by
  obtain ⟨digits, d, hlow, hhigh, hdigits, hshortest, hbefore⟩ := exists_first_length hpos hfinite
  obtain ⟨hreads, hlength⟩ := decimalOfLength?_eq_some hpos hdigits
  rw [hshortest]
  refine ⟨digits, hlow, hhigh, ?_, digitCount_le hlow (Decimal.coefficient_reduced_lt hlow hlength),
    hbefore⟩
  rw [readsBack_congr d.magnitude_reduced, hreads]

/-- The shortest decimal of a finite magnitude reads back. -/
theorem readsBack_shortest (hfinite : bits < infinityBits) :
    readsBack bits (shortest bits) = true := by
  rcases Nat.eq_zero_or_pos bits with rfl | hpos
  · exact beq_iff_eq.2 (nearest_zero _)
  · obtain ⟨digits, -, -, hreads, -, -⟩ := exists_shortest_length hpos hfinite
    exact hreads

theorem nearest_shortest (hfinite : bits < infinityBits) :
    nearest (shortest bits).numerator (shortest bits).denominator = bits :=
  beq_iff_eq.1 (readsBack_shortest hfinite)

/-- **Seventeen digits are enough** for the shortest decimal of a finite magnitude. -/
theorem digitCount_shortest_le (hfinite : bits < infinityBits) :
    digitCount (shortest bits).coefficient ≤ maxShortestDigits := by
  rcases Nat.eq_zero_or_pos bits with rfl | hpos
  · decide
  · obtain ⟨digits, -, hle, -, hlength, -⟩ := exists_shortest_length hpos hfinite
    exact hlength.trans hle

/-- **No decimal that reads back has fewer digits than the shortest one.** -/
theorem digitCount_shortest_le_of_readsBack {d : Decimal} (hfinite : bits < infinityBits)
    (h : readsBack bits d = true) :
    digitCount (shortest bits).coefficient ≤ digitCount d.coefficient := by
  rcases Nat.eq_zero_or_pos bits with rfl | hpos
  · exact digitCount_pos d.coefficient
  · obtain ⟨digits, -, -, -, hlength, hnone⟩ := exists_shortest_length hpos hfinite
    obtain ⟨n, hn, hle, hsome⟩ := exists_isSome_decimalOfLength? hpos hfinite h
      (digitCount_pos d.coefficient) (lt_powerOfTen_digitCount d.coefficient)
    have hfirst : digits ≤ n := by
      by_contra hlt
      rw [hnone n hn (by omega)] at hsome
      cases hsome
    omega

/-- If a point of a grid reads back, the shortest decimal has no more digits than the grid has
up to there. -/
theorem digitCount_shortest_le_of_grid {m digits : Nat} {e : Int} (hfinite : bits < infinityBits)
    (hdigits : 0 < digits) (hm : m ≤ powerOfTen digits) (h : readsBack bits ⟨false, m, e⟩ = true) :
    digitCount (shortest bits).coefficient ≤ digits := by
  rw [← readsBack_congr (Decimal.magnitude_reduced _)] at h
  exact (digitCount_shortest_le_of_readsBack hfinite h).trans
    (digitCount_le hdigits (Decimal.coefficient_reduced_lt hdigits hm))

/-- Written around the point, a whole number has no more digits than fit there. -/
theorem Decimal.digitCount_pointed_le {d : Decimal} {digits : Nat} (hdigits : wholeEnd < digits)
    (h : digitCount d.coefficient ≤ digits) : digitCount d.pointed.coefficient ≤ digits := by
  unfold pointed
  split
  · next hwhole =>
    obtain ⟨hexponent, hplace⟩ := hwhole
    have hcount := lt_powerOfTen_digitCount d.coefficient
    unfold leadingPlace at hplace
    refine digitCount_le (by omega) ?_
    calc d.coefficient * powerOfTen (d.exponent + 1).toNat
        < powerOfTen (digitCount d.coefficient) * powerOfTen (d.exponent + 1).toNat :=
          Nat.mul_lt_mul_of_pos_right hcount (powerOfTen_pos _)
      _ = powerOfTen (digitCount d.coefficient + (d.exponent + 1).toNat) :=
          (powerOfTen_add ..).symm
      _ ≤ powerOfTen digits := Nat.pow_le_pow_right (by decide) (by omega)
  · exact h

namespace Decimal

/-- The decimal of a finite number is written with at most seventeen digits. -/
theorem digitCount_ofFloat_le {x : Float} (hx : x.isFinite = true) :
    digitCount (ofFloat x).coefficient ≤ maxShortestDigits :=
  digitCount_pointed_le (by decide) (digitCount_shortest_le ((isFinite_iff x).1 hx))

/-- The decimal of a finite number has few enough digits to be rounded. -/
theorem coefficient_ofFloat_lt {x : Float} (hx : x.isFinite = true) :
    (ofFloat x).coefficient + 1 < powerOfTen maxDigits := by
  have hcount := lt_powerOfTen_digitCount (ofFloat x).coefficient
  calc (ofFloat x).coefficient + 1
      ≤ powerOfTen (digitCount (ofFloat x).coefficient) := hcount
    _ ≤ powerOfTen maxShortestDigits :=
        Nat.pow_le_pow_right (by decide) (digitCount_ofFloat_le hx)
    _ < powerOfTen maxDigits := by decide

/-- **The shortest decimal of a finite number denotes the number**: it is the nearest
floating-point number to it. -/
theorem toFloat_ofFloat {x : Float} (hx : x.isFinite = true) : (ofFloat x).toFloat = x := by
  have hreads := readsBack_shortest ((isFinite_iff x).1 hx)
  have hmagnitude : (ofFloat x).magnitude = (shortest (magnitudeBits x)).magnitude :=
    magnitude_pointed _
  have hsign : (ofFloat x).negative = isNegative x := negative_pointed _
  rw [← readsBack_congr hmagnitude, readsBack, beq_iff_eq] at hreads
  rw [toFloat, hsign, hreads, ofMagnitude_magnitudeBits]

/-- **No decimal that denotes a finite number has fewer digits than the shortest one.** -/
theorem digitCount_shortest_le_of_toFloat_eq {x : Float} (hx : x.isFinite = true)
    {d : Decimal} (h : d.toFloat = x) :
    digitCount (shortest (magnitudeBits x)).coefficient ≤ digitCount d.coefficient := by
  refine digitCount_shortest_le_of_readsBack ((isFinite_iff x).1 hx) (beq_iff_eq.2 ?_)
  rw [← h, toFloat, magnitudeBits_ofMagnitude (nearest_le_infinityBits ..)]

end Decimal

/-- A finite result is shown as the text of its shortest decimal, rounded, unless the place to
round to is above the largest exponent. -/
theorem exists_display_eq_text {x : Float} (hx : x.isFinite = true) {places : Int}
    (hplaces : -Decimal.maxExponent ≤ places) :
    ∃ d : Decimal, display places x = .ok d.text ∧
      d.value = roundedAt places (Decimal.ofFloat x).value ∧
      digitCount d.coefficient ≤ Decimal.maxDigits := by
  obtain ⟨d, hround, hvalue, hfit⟩ :=
    Decimal.exists_roundTo (Decimal.coefficient_ofFloat_lt hx) hplaces
  exact ⟨d, display_of_roundTo hx hround, hvalue, hfit⟩

end Calculator
