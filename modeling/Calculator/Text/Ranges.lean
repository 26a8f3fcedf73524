/-!
# Classes of characters

A class of characters is written down as a list of ranges of code points, both
ends included.

## Main definitions

* `Ranges` — the written form of a class.
* `Ranges.contains` — whether a character is in the class.
-/

namespace Calculator

/-- A class of characters: pairs of a first and a last code point. -/
abbrev Ranges := List (Nat × Nat)

/-- Whether one of the ranges holds the character. -/
def Ranges.contains (ranges : Ranges) (c : Char) : Bool :=
  ranges.any fun range => decide (range.1 ≤ c.toNat) && decide (c.toNat ≤ range.2)

theorem Ranges.contains_iff {ranges : Ranges} {c : Char} :
    ranges.contains c = true ↔
      ∃ range ∈ ranges, range.1 ≤ c.toNat ∧ c.toNat ≤ range.2 := by
  simp [Ranges.contains, List.any_eq_true]

end Calculator
