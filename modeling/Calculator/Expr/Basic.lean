/-!
# Expressions

An expression is a tree of operators over numbers.  Brackets and plus signs
leave no trace in it.  One operator, negation, has one operand, and four have
two; a tree may break this rule, or hold something that is no expression at all,
and then it has no value.

## Main definitions

* `Operator`, `Expr` — expressions.
* `Expr.WellFormed` — the trees that obey the rule.
-/

namespace Calculator

/-- The operators. -/
inductive Operator
  /-- Addition. -/
  | add
  /-- Subtraction. -/
  | sub
  /-- Multiplication. -/
  | mul
  /-- Division. -/
  | div
  /-- Negation, the only operator with one operand. -/
  | neg
  deriving DecidableEq, Repr

/-- The name of an operator. -/
def Operator.name : Operator → String
  | .add => "ADD"
  | .sub => "SUB"
  | .mul => "MUL"
  | .div => "DIV"
  | .neg => "NEG"

/-- An expression. -/
inductive Expr
  /-- A number. -/
  | number (value : Float)
  /-- An operator in front of its operand. -/
  | unary (op : Operator) (operand : Expr)
  /-- An operator between its operands. -/
  | binary (op : Operator) (left right : Expr)
  /-- A leaf that is no expression, known only by its text. -/
  | foreign (text : String)
  deriving DecidableEq, Repr

/-- The trees in which negation has one operand, every other operator two, and
all leaves are numbers. -/
def Expr.WellFormed : Expr → Prop
  | .number _ => True
  | .unary op operand => op = .neg ∧ operand.WellFormed
  | .binary op left right => op ≠ .neg ∧ left.WellFormed ∧ right.WellFormed
  | .foreign _ => False

end Calculator
