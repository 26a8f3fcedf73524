import Calculator.Expr.Basic
import Calculator.Token.Basic

/-!
# Operators among tokens

The same lexemes serve as signs and as operators.  Before an operand `+` and `-`
are signs; behind an operand they link the operands of a sum, as `*` and `/` link
those of a product.

## Main definitions

* `Level`, `Level.operator?` — the two kinds of chain, and what links their operands.
* `Sign`, `Sign.ofLexeme?` — the signs.
-/

namespace Calculator

/-- The two levels at which operators form chains. -/
inductive Level
  /-- Multiplication and division, between primaries. -/
  | product
  /-- Addition and subtraction, between products. -/
  | sum
  deriving DecidableEq, Repr

/-- How many levels lie below. -/
@[simp] def Level.rank : Level → Nat
  | .product => 0
  | .sum => 1

/-- The signs that may stand before a primary. -/
inductive Sign
  /-- The sign that changes nothing. -/
  | plus
  /-- The sign that negates. -/
  | minus
  deriving DecidableEq, Repr

/-- An expression behind a sign. -/
def Sign.apply : Sign → Expr → Expr
  | .plus, e => e
  | .minus, e => .unary .neg e

/-- The operator of a chain that a lexeme stands for. -/
def Level.ofLexeme? : Level → String → Option Operator
  | .product, lexeme =>
    if lexeme = "*" then some .mul else if lexeme = "/" then some .div else none
  | .sum, lexeme =>
    if lexeme = "+" then some .add else if lexeme = "-" then some .sub else none

/-- The sign that a lexeme stands for. -/
def Sign.ofLexeme? (lexeme : String) : Option Sign :=
  if lexeme = "-" then some .minus else if lexeme = "+" then some .plus else none

/-- The operator by which a token continues a chain. -/
def Level.operator? (level : Level) (t : Token) : Option Operator :=
  match t.kind with
  | .operator => level.ofLexeme? t.lexeme
  | _ => none

theorem Level.ofLexeme?_cases {level : Level} {lexeme : String} {op : Operator}
    (h : level.ofLexeme? lexeme = some op) :
    (level = .product ∧ lexeme = "*" ∧ op = .mul) ∨
    (level = .product ∧ lexeme = "/" ∧ op = .div) ∨
    (level = .sum ∧ lexeme = "+" ∧ op = .add) ∨
    (level = .sum ∧ lexeme = "-" ∧ op = .sub) := by
  cases level with
  | product =>
    by_cases htimes : lexeme = "*"
    · simp_all [ofLexeme?]
    · by_cases hslash : lexeme = "/" <;> simp_all [ofLexeme?]
  | sum =>
    by_cases hplus : lexeme = "+"
    · simp_all [ofLexeme?]
    · by_cases hminus : lexeme = "-" <;> simp_all [ofLexeme?]

theorem Sign.ofLexeme?_cases {lexeme : String} {s : Sign} (h : ofLexeme? lexeme = some s) :
    (s = .minus ∧ lexeme = "-") ∨ (s = .plus ∧ lexeme = "+") := by
  by_cases hminus : lexeme = "-"
  · simp_all [ofLexeme?]
  · by_cases hplus : lexeme = "+" <;> simp_all [ofLexeme?]

/-- What links the operands of a chain is an operator. -/
theorem Level.kind_of_operator? {level : Level} {t : Token} {op : Operator}
    (h : level.operator? t = some op) : t.kind = .operator := by
  unfold operator? at h
  cases ht : t.kind <;> simp [ht] at h ⊢

theorem Level.operator?_of_kind {t : Token} (ht : t.kind = .operator) (level : Level) :
    level.operator? t = level.ofLexeme? t.lexeme := by
  rw [operator?, ht]

theorem Level.operator?_eq_none {t : Token} (ht : t.kind ≠ .operator) (level : Level) :
    level.operator? t = none := by
  unfold operator?
  split
  · contradiction
  · rfl

end Calculator
