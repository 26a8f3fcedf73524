import Calculator.Slice
import Calculator.Text.Quoted
import Calculator.Text.Window
import Calculator.Token.Spacing

/-!
# Errors among tokens

When tokens are no expression, one of them is the first that cannot go on, or
more of them are due at the end.  A report shows the tokens, and a caret where
the text of the tokens before that place ends.

## Main definitions

* `ParseErrorKind`, `ParseError` — what is wrong, and where.
* `parseReport` — a message with the place it is about.
-/

namespace Calculator

/-- What can be wrong at a place among tokens. -/
inductive ParseErrorKind
  /-- An operand is due, and the tokens have ended. -/
  | unexpectedEnd
  /-- An operand is due, and the token begins none. -/
  | unexpectedToken (lexeme : String)
  /-- A bracket is open, and the token neither goes on nor closes it. -/
  | missingBracket
  /-- The expression is complete, and there is a token behind it. -/
  | trailingInput (lexeme : String)
  deriving DecidableEq, Repr

/-- The message about an error. -/
def ParseErrorKind.message : ParseErrorKind → String
  | .unexpectedEnd => "Unexpected end of expression"
  | .unexpectedToken lexeme => "Unexpected token: " ++ quoted lexeme
  | .missingBracket => "Missing closing parenthesis"
  | .trailingInput lexeme => "Unexpected trailing input: " ++ quoted lexeme

/-- What is wrong with tokens, and where. -/
structure ParseError where
  /-- The tokens. -/
  tokens : List Token
  /-- What is wrong. -/
  kind : ParseErrorKind
  /-- The place of the first wrong token; their number if there is none. -/
  index : Nat
  deriving DecidableEq, Repr

/-- The column of the caret for the token at `index`: one past the text of the
tokens before it, or the first column if they have no text. -/
def caretColumn (tokens : List Token) (index : Int) : Nat :=
  let before := renderTokens (slice 0 index tokens)
  if before = "" then 0 else before.length + 1

/-- A message about a place among tokens, above the place itself. -/
def parseReport (message : String) (tokens : List Token) (index : Int) : String :=
  "\n".intercalate
    ["[Parser error] " ++ message, renderTokens tokens,
     String.ofList (Window.caretAt (caretColumn tokens index))]

namespace ParseError

/-- The message about an error. -/
def message (e : ParseError) : String := e.kind.message

/-- The message about an error, with its place among the tokens. -/
def report (e : ParseError) : String := parseReport e.message e.tokens e.index

end ParseError

end Calculator
