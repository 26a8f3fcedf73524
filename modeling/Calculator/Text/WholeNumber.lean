import Calculator.Text.Blank
import Calculator.Text.Digit

/-!
# Whole numbers as they are typed

A whole number may stand between white space and begin with a sign; its digits
may come from any script, and single underscores may separate them.

## Main definitions

* `digitGroups?` — the digits of a number without sign.
* `wholeNumber?` — the number that a text writes, if it writes one.
-/

namespace Calculator

/-- The most digits a whole number may have. -/
def maxWholeDigits : Nat := 4300

/-- Whether a character may surround a whole number: white space, without the
information separators. -/
def isMargin (c : Char) : Bool := isBlank c && !Ranges.contains [(0x1c, 0x1f)] c

/-- The values of the digits of a number.  An underscore is allowed between two
digits, and nowhere else. -/
def digitGroups? : List Char → Option (List Nat)
  | [] => none
  | [c] => (digitValue? c).map ([·])
  | c :: '_' :: rest => do
    let d ← digitValue? c
    let ds ← digitGroups? rest
    pure (d :: ds)
  | c :: rest => do
    let d ← digitValue? c
    let ds ← digitGroups? rest
    pure (d :: ds)

/-- The number that digits write by place value. -/
def ofDigitValues (ds : List Nat) : Nat := ds.foldl (fun n d => 10 * n + d) 0

/-- The number that unsigned digits write, if there are not too many of them. -/
def unsigned? (cs : List Char) : Option Nat :=
  match digitGroups? cs with
  | none => none
  | some ds => if ds.length ≤ maxWholeDigits then some (ofDigitValues ds) else none

/-- The number that an optional sign and digits write. -/
def signed? : List Char → Option Int
  | '-' :: rest => (unsigned? rest).map fun n => -(n : Int)
  | '+' :: rest => (unsigned? rest).map fun n => (n : Int)
  | rest => (unsigned? rest).map fun n => (n : Int)

/-- The characters without the margins on either side. -/
def trimMargins (cs : List Char) : List Char :=
  ((cs.dropWhile isMargin).reverse.dropWhile isMargin).reverse

/-- The whole number that a text writes, if it writes one. -/
def wholeNumber? (text : String) : Option Int := signed? (trimMargins text.toList)

end Calculator
