/-!
# Tokens

An expression is read in two steps, and tokens stand between the two: the words
of the expression, each with its kind and the place where it was found.

What a token means is decided by its kind, and by its lexeme only where the kind
leaves a choice: the value of a number is part of its kind, while an operator is
known by its lexeme.

## Main definitions

* `Kind`, `Token` — tokens.
* `Token.label` — the form in which a token is listed.
-/

namespace Calculator

/-- The kinds of token. -/
inductive Kind
  /-- A number, with its value. -/
  | number (value : Float)
  /-- A sign or an operator; the lexeme tells which. -/
  | operator
  /-- A bracket that opens. -/
  | openBracket
  /-- A bracket that closes. -/
  | closeBracket
  deriving DecidableEq, Repr

/-- The name of a kind. -/
def Kind.name : Kind → String
  | .number _ => "NUMBER"
  | .operator => "OPERATOR"
  | .openBracket => "BRACKET_OPEN"
  | .closeBracket => "BRACKET_CLOSE"

/-- A word of an expression. -/
structure Token where
  /-- What the word is. -/
  kind : Kind
  /-- The text of the word. -/
  lexeme : String
  /-- The place of its first character in the expression. -/
  position : Nat
  deriving DecidableEq, Repr

/-- A token in listings: the name of its kind in angle brackets, and the lexeme. -/
def Token.label (t : Token) : String := "<" ++ t.kind.name ++ ">" ++ t.lexeme

/-- The kind of a token that is one character long. -/
def symbolKind? (c : Char) : Option Kind :=
  if c = '+' ∨ c = '-' ∨ c = '*' ∨ c = '/' then some .operator
  else if c = '(' then some .openBracket
  else if c = ')' then some .closeBracket
  else none

end Calculator
