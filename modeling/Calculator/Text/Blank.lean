import Calculator.Text.Ranges

/-!
# White space

White space is every character that separates without being seen: the spaces
and line ends of all scripts, and the four information separators.

## Main definitions

* `isBlank` — whether a character is white space.
* `allBlank` — whether a text holds nothing else.
-/

namespace Calculator

/-- The code points of white space. -/
def blankRanges : Ranges :=
  [(0x09, 0x0d), (0x1c, 0x20), (0x85, 0x85), (0xa0, 0xa0), (0x1680, 0x1680),
   (0x2000, 0x200a), (0x2028, 0x2029), (0x202f, 0x202f), (0x205f, 0x205f),
   (0x3000, 0x3000)]

/-- Whether a character is white space. -/
def isBlank (c : Char) : Bool := blankRanges.contains c

/-- Whether a text is white space alone; the empty text is. -/
def allBlank (cs : List Char) : Bool := cs.all isBlank

theorem allBlank_iff {cs : List Char} : allBlank cs = true ↔ ∀ c ∈ cs, isBlank c = true :=
  List.all_eq_true

end Calculator
