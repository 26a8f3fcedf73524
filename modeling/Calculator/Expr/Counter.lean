import Calculator.Expr.Level
import Calculator.Expr.ParseError

/-!
# Checking expressions by counting

Whether tokens are an expression can be told in one pass from left to right,
without a tree.  All that has to be remembered is whether an operand is due or
complete, and how many brackets are open.  The pass ends at the first token that
cannot go on.

## Main definitions

* `Expecting` — what the next token may be.
* `firstError expecting depth tokens` — the first error among tokens, with the
  tokens from it on.
-/

namespace Calculator

/-- What the next token may be. -/
inductive Expecting
  /-- An operand is due: a number, an open bracket or a sign may follow. -/
  | operand
  /-- An operand is complete: an operator or a closing bracket may follow. -/
  | operator
  deriving DecidableEq, Repr

/-- Whether a token stands between two operands. -/
def isLink (t : Token) : Bool :=
  (Level.product.operator? t).isSome || (Level.sum.operator? t).isSome

/-- What is wrong with tokens that come when an operand is complete and nothing can
go on with them. -/
def lateError (depth : Nat) : List Token → Option ParseErrorKind
  | [] => if depth = 0 then none else some .missingBracket
  | t :: _ => some (if depth = 0 then .trailingInput t.lexeme else .missingBracket)

/-- The first error among tokens, with the tokens from it on, where `depth`
brackets are open; `none` where there is no error. -/
def firstError : Expecting → Nat → List Token → Option (ParseErrorKind × List Token)
  | .operand, _, [] => some (.unexpectedEnd, [])
  | .operand, depth, t :: tokens =>
    match t.kind with
    | .number _ => firstError .operator depth tokens
    | .openBracket => firstError .operand (depth + 1) tokens
    | .operator =>
      if (Sign.ofLexeme? t.lexeme).isSome then firstError .operand depth tokens
      else some (.unexpectedToken t.lexeme, t :: tokens)
    | .closeBracket => some (.unexpectedToken t.lexeme, t :: tokens)
  | .operator, depth, [] => (lateError depth []).map (·, [])
  | .operator, depth, t :: tokens =>
    if isLink t then firstError .operand depth tokens
    else if t.kind = .closeBracket ∧ 0 < depth then firstError .operator (depth - 1) tokens
    else (lateError depth (t :: tokens)).map (·, t :: tokens)

end Calculator
