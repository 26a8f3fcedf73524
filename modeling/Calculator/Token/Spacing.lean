import Calculator.Text.Blank
import Calculator.Token.Basic

/-!
# Tokens written out again

Tokens are written with one space between any two lexemes, and then the white
space on the inner side of brackets is taken out: `(1 + 2) * 3`.  This works on
the text and not on the tokens, so a bracket or white space inside a lexeme
counts as well.

## Main definitions

* `tightenAfter bracket cs` — `cs` without the white space that follows a
  `bracket`.
* `tighten cs` — `cs` without the white space on the inner side of brackets.
* `renderTokens tokens` — the text of tokens.
-/

namespace Calculator

/-- The text `cs` without the white space that follows a `bracket`, where `after`
says whether the text stands right behind one. -/
def tightenFrom (bracket : Char) : Bool → List Char → List Char
  | _, [] => []
  | after, c :: cs =>
    if after && isBlank c then tightenFrom bracket true cs
    else c :: tightenFrom bracket (c == bracket) cs

/-- The text `cs` without the white space that follows a `bracket`. -/
def tightenAfter (bracket : Char) (cs : List Char) : List Char := tightenFrom bracket false cs

/-- The text `cs` without the white space that precedes a `bracket`. -/
def tightenBefore (bracket : Char) (cs : List Char) : List Char :=
  (tightenAfter bracket cs.reverse).reverse

/-- The text `cs` without the white space on the inner side of its brackets. -/
def tighten (cs : List Char) : List Char := tightenBefore ')' (tightenAfter '(' cs)

/-- Lexemes with a space between any two. -/
def joined (tokens : List Token) : List Char :=
  [' '].intercalate (tokens.map (·.lexeme.toList))

/-- The text of tokens. -/
def renderTokens (tokens : List Token) : String := String.ofList (tighten (joined tokens))

@[simp] theorem tightenFrom_nil (bracket : Char) (after : Bool) :
    tightenFrom bracket after [] = [] := rfl

theorem tightenFrom_cons (bracket : Char) (after : Bool) (c : Char) (cs : List Char) :
    tightenFrom bracket after (c :: cs) =
      if after && isBlank c then tightenFrom bracket true cs
      else c :: tightenFrom bracket (c == bracket) cs := rfl

@[simp] theorem renderTokens_nil : renderTokens [] = "" := rfl

end Calculator
