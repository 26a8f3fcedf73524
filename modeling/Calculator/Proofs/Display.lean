import Calculator.Proofs.Numeral
import Calculator.Proofs.Shortest

/-!
# Results are shown exactly rounded

The text of a finite result denotes one rational number: the shortest decimal of the
result, rounded to the places asked for, a half going to the greater neighbour.  Nothing
is lost on the way: the decimal has few enough digits to be rounded, the rounded decimal
few enough to be written in full.

## Main results

* `display_rounds` — **the text of a result denotes the exactly rounded number**.
-/

namespace Calculator

/-- **The text of a result denotes the exactly rounded number.**  Every finite result is
shown, as long as the last place kept is not above the largest exponent, and the text
denotes the shortest decimal of the result, rounded to the given number of places.  So
the shown number is within half a unit of the last place kept, a number half-way between
two neighbours goes to the greater one, and a decimal without digits beyond the last
place kept is shown as it is. -/
theorem display_rounds {x : Float} (hx : x.isFinite = true) {places : Int}
    (hplaces : -999999 ≤ places) :
    ∃ text shown, display places x = .ok text ∧ readNumber? text.toList = some shown ∧
      shown.value = ⌊(Decimal.ofFloat x).value * 10 ^ places + 1 / 2⌋ / 10 ^ places ∧
      |shown.value - (Decimal.ofFloat x).value| ≤ 1 / 2 / 10 ^ places ∧
      (∀ n : ℤ, (Decimal.ofFloat x).value * 10 ^ places = n + 1 / 2 →
        shown.value = (n + 1) / 10 ^ places) ∧
      (-places ≤ (Decimal.ofFloat x).exponent → shown.value = (Decimal.ofFloat x).value) := by
  obtain ⟨rounded, hround, hvalue, hfit⟩ :=
    Decimal.exists_roundTo (Decimal.coefficient_ofFloat_lt hx) hplaces
  obtain ⟨shown, hread, hshown⟩ := Decimal.exists_readNumber?_text hfit
  have hdisplay : display places x = .ok rounded.text := by
    rw [display, if_pos hx, hround]
    rfl
  rw [hvalue] at hshown
  refine ⟨rounded.text, shown, hdisplay, hread, hshown, ?_, ?_, ?_⟩
  · rw [hshown]
    exact abs_roundedAt_sub_le ..
  · intro n hhalf
    rw [hshown]
    exact roundedAt_of_half hhalf
  · intro hkept
    rw [hshown]
    exact Decimal.roundedAt_value hkept

/-- Minus two and a half, shown without places, is minus two: the half goes up. -/
theorem display_rounds_negativeHalf :
    (Float.ofBits 0xc004000000000000).isFinite = true ∧ (-999999 : Int) ≤ 0 ∧
      (display 0 (Float.ofBits 0xc004000000000000)).toOption = some "-2" ∧
      ∃ text shown, display 0 (Float.ofBits 0xc004000000000000) = .ok text ∧
        readNumber? text.toList = some shown ∧ shown.value = -2 := by
  have hfinite : (Float.ofBits 0xc004000000000000).isFinite = true := by decide +kernel
  have hplaces : (-999999 : Int) ≤ 0 := by decide
  have hdecimal : Decimal.ofFloat (Float.ofBits 0xc004000000000000) = ⟨true, 25, -1⟩ := by
    decide +kernel
  obtain ⟨text, shown, hdisplay, hread, -, -, hties, -⟩ := display_rounds hfinite hplaces
  refine ⟨hfinite, hplaces, by decide +kernel, text, shown, hdisplay, hread, ?_⟩
  rw [hties (-3) (by norm_num [hdecimal, Decimal.value, Decimal.magnitude])]
  norm_num

end Calculator
