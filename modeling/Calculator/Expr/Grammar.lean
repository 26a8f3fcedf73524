import Calculator.Expr.Level

/-!
# The grammar of expressions

Which lists of tokens are expressions, and of which trees, said without a way to
find out:

```text
sum     := product (("+" | "-") product)*
product := primary (("*" | "/") primary)*
primary := NUMBER | "(" sum ")" | "-" primary | "+" primary
```

Numbers and brackets are told by their kind alone, signs and operators by their
kind and lexeme.

## Main definitions

* `Phrase` — the phrases of the grammar.
* `Derives phrase tokens e` — the tokens are a phrase with the tree `e`.
-/

namespace Calculator

/-- The phrases of the grammar. -/
inductive Phrase
  /-- A number, a sum in brackets, or a signed primary. -/
  | primary
  /-- A chain of operands. -/
  | chain (level : Level)
  deriving DecidableEq, Repr

/-- The phrases that a chain links. -/
def Level.operandPhrase : Level → Phrase
  | .product => .primary
  | .sum => .chain .product

@[simp] theorem Level.operandPhrase_product : Level.product.operandPhrase = .primary := rfl

@[simp] theorem Level.operandPhrase_sum : Level.sum.operandPhrase = .chain .product := rfl

/-- `Derives phrase tokens e` says that the tokens, all of them, are a phrase with
the tree `e`. -/
inductive Derives : Phrase → List Token → Expr → Prop
  /-- A number is a primary. -/
  | number {t : Token} {value : Float} (ht : t.kind = .number value) :
      Derives .primary [t] (.number value)
  /-- A sum in brackets is a primary; the brackets leave no trace. -/
  | bracket {l r : Token} {inner : List Token} {e : Expr} (hl : l.kind = .openBracket)
      (hr : r.kind = .closeBracket) (he : Derives (.chain .sum) inner e) :
      Derives .primary (l :: (inner ++ [r])) e
  /-- A primary with a sign in front is a primary. -/
  | signed {t : Token} {s : Sign} {operand : List Token} {e : Expr}
      (ht : t.kind = .operator) (hs : Sign.ofLexeme? t.lexeme = some s)
      (he : Derives .primary operand e) : Derives .primary (t :: operand) (s.apply e)
  /-- An operand alone is a chain. -/
  | single {level : Level} {operand : List Token} {e : Expr}
      (he : Derives level.operandPhrase operand e) : Derives (.chain level) operand e
  /-- A chain, an operator and an operand are a chain, grouped from the left. -/
  | link {level : Level} {left right : List Token} {t : Token} {op : Operator} {a b : Expr}
      (ha : Derives (.chain level) left a) (ht : level.operator? t = some op)
      (hb : Derives level.operandPhrase right b) :
      Derives (.chain level) (left ++ t :: right) (.binary op a b)

/-- No phrase is empty. -/
theorem Derives.ne_nil {phrase : Phrase} {tokens : List Token} {e : Expr}
    (h : Derives phrase tokens e) : tokens ≠ [] := by
  induction h with
  | number ht => simp
  | bracket hl hr he ih => simp
  | signed ht hs he ih => simp
  | single he ih => exact ih
  | link ha ht hb iha ihb => simp

end Calculator
