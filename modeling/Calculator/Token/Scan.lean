import Calculator.Decimal.Literal
import Calculator.Text.Blank
import Calculator.Text.Quoted
import Calculator.Text.Window
import Calculator.Token.Basic

/-!
# Reading tokens

An expression is read from left to right.  A run of digits and points is one
word, however long, and has to be a number literal; an operator or a bracket is
a word of its own; white space is passed over; and nothing else may occur.  The
first defect met ends the reading.

## Main definitions

* `Defect`, `ScanError` — what is wrong with an expression, and where.
* `scanFrom position cs` — the tokens of `cs`, which begins at `position`.
* `scan source` — the tokens of an expression.
* `scanReport` — a message with the place it is about.
-/

namespace Calculator

/-- What can be wrong with a piece of text. -/
inductive DefectKind
  /-- A character that no expression holds. -/
  | invalidCharacter (c : Char)
  /-- A run of digits and points that is no number literal. -/
  | malformedNumber (run : List Char)
  deriving DecidableEq, Repr

/-- What is wrong with an expression, and where. -/
structure Defect where
  /-- What is wrong. -/
  kind : DefectKind
  /-- The place of the character, or of the first character of the run. -/
  index : Nat
  deriving DecidableEq, Repr

/-- The message about a defect. -/
def DefectKind.message : DefectKind → String
  | .invalidCharacter c => "Invalid character in expression: " ++ quoted (String.singleton c)
  | .malformedNumber run => "Malformed number literal: " ++ quoted (String.ofList run)

/-- The tokens of `cs`, whose first character stands at `position`. -/
def scanFrom (position : Nat) (cs : List Char) : Except Defect (List Token) :=
  match cs with
  | [] => .ok []
  | c :: rest =>
    if isLiteralChar c then
      let run := c :: rest.takeWhile isLiteralChar
      match literal? run with
      | none => .error ⟨.malformedNumber run, position⟩
      | some value =>
        (scanFrom (position + run.length) (rest.dropWhile isLiteralChar)).map
          (⟨.number value.toFloat, String.ofList run, position⟩ :: ·)
    else
      match symbolKind? c with
      | some kind => (scanFrom (position + 1) rest).map (⟨kind, String.singleton c, position⟩ :: ·)
      | none =>
        if isBlank c then scanFrom (position + 1) rest
        else .error ⟨.invalidCharacter c, position⟩
termination_by cs.length
decreasing_by
  · exact Nat.lt_succ_of_le (List.dropWhile_sublist _).length_le
  · exact Nat.lt_succ_self _
  · exact Nat.lt_succ_self _

/-- A defect together with the expression it was found in. -/
structure ScanError where
  /-- The expression. -/
  source : String
  /-- Its first defect. -/
  defect : Defect
  deriving DecidableEq, Repr

/-- The tokens of an expression. -/
def scan (source : String) : Except ScanError (List Token) :=
  (scanFrom 0 source.toList).mapError (ScanError.mk source)

/-- A message about a place in an expression, above the place itself. -/
def scanReport (message source : String) (index : Int) : String :=
  "\n".intercalate
    (("[Tokenizer error] " ++ message) ::
      (Window.around index defaultContext source.toList).lines)

namespace ScanError

/-- The message about an error. -/
def message (e : ScanError) : String := e.defect.kind.message

/-- The message about an error, with its place in the expression. -/
def report (e : ScanError) : String := scanReport e.message e.source e.defect.index

end ScanError

@[simp] theorem scanFrom_nil (position : Nat) : scanFrom position [] = .ok [] := by
  rw [scanFrom]

/-- White space is passed over. -/
theorem scanFrom_cons_blank {c : Char} (hliteral : isLiteralChar c = false)
    (hsymbol : symbolKind? c = none) (hblank : isBlank c = true) (position : Nat)
    (rest : List Char) : scanFrom position (c :: rest) = scanFrom (position + 1) rest := by
  rw [scanFrom]
  simp [hliteral, hsymbol, hblank]

end Calculator
