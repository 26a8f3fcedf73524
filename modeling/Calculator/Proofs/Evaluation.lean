import Calculator.Calculation
import Calculator.Proofs.Derivation

/-!
# Values of trees that were read

A tree that was read is well formed, and a well-formed tree has a value unless it
divides by zero.  The other faults an evaluation can meet stay out of sight.

## Main results

* `evaluateExpr_eq_value` — the evaluation by tasks follows the tree.
* `Expr.WellFormed.value_cases` — the values of well-formed trees.
* `valueOf_of_parse_eq_ok` — the value of an expression whose tokens have a tree.
-/

namespace Calculator

/-- The stack of tasks comes to what recursion on the tree comes to. -/
theorem evaluateExpr_eq_value (e : Expr) : evaluateExpr e = e.value := by
  rw [evaluateExpr, run_visit]
  cases e.value with
  | error fault => rfl
  | ok x => simp only [run]

/-- An operator that takes two operands has a value, unless it divides by zero. -/
theorem applyBinary_cases {op : Operator} (hop : op ≠ .neg) (x y : Float) :
    (∃ z, applyBinary op x y = .ok z) ∨ applyBinary op x y = .error .divisionByZero := by
  cases op with
  | add => exact Or.inl ⟨x + y, rfl⟩
  | sub => exact Or.inl ⟨x - y, rfl⟩
  | mul => exact Or.inl ⟨x * y, rfl⟩
  | div =>
    rw [applyBinary]
    cases y == 0 with
    | false => exact Or.inl ⟨x / y, rfl⟩
    | true => exact Or.inr rfl
  | neg => exact absurd rfl hop

/-- A well-formed tree has a value, unless it divides by zero. -/
theorem Expr.WellFormed.value_cases {e : Expr} (h : e.WellFormed) :
    (∃ x, e.value = .ok x) ∨ e.value = .error .divisionByZero := by
  -- the first operand that divides by zero ends the evaluation
  induction e with
  | number value => exact Or.inl ⟨value, rfl⟩
  | unary op operand ih =>
    obtain ⟨rfl, hoperand⟩ := h
    rw [Expr.value]
    rcases ih hoperand with ⟨x, hx⟩ | hx
    · exact Or.inl ⟨-x, by rw [hx]; rfl⟩
    · exact Or.inr (by rw [hx])
  | binary op left right ihl ihr =>
    obtain ⟨hop, hleft, hright⟩ := h
    rw [Expr.value]
    rcases ihl hleft with ⟨x, hx⟩ | hx
    · rcases ihr hright with ⟨y, hy⟩ | hy
      · rw [hx, hy]
        exact applyBinary_cases hop x y
      · exact Or.inr (by rw [hx, hy])
    · exact Or.inr (by rw [hx])
  | foreign text => exact h.elim

/-- No chain is linked by negation. -/
theorem Level.operator?_ne_neg {level : Level} {t : Token} {op : Operator}
    (h : level.operator? t = some op) : op ≠ .neg := by
  rw [operator?_of_kind (kind_of_operator? h)] at h
  rcases ofLexeme?_cases h with ⟨-, -, rfl⟩ | ⟨-, -, rfl⟩ | ⟨-, -, rfl⟩ | ⟨-, -, rfl⟩ <;> nofun

/-- The trees of the grammar are well formed. -/
theorem Derives.wellFormed {phrase : Phrase} {tokens : List Token} {e : Expr}
    (h : Derives phrase tokens e) : e.WellFormed := by
  induction h with
  | number ht => trivial
  | bracket hl hr he ih => exact ih
  | @signed t s operand e ht hs he ih =>
    cases s with
    | plus => exact ih
    | minus => exact ⟨rfl, ih⟩
  | single he ih => exact ih
  | link ha ht hb iha ihb => exact ⟨Level.operator?_ne_neg ht, iha, ihb⟩

/-- The value of an expression whose tokens have a tree. -/
theorem valueOf_of_parse_eq_ok {source : String} {tokens : List Token} {e : Expr}
    (hscan : scan source = .ok tokens) (hparse : parse tokens = .ok e) :
    (∃ x, valueOf source = .ok x) ∨ valueOf source = .error (.reported .divisionByZero) := by
  have hwf : e.WellFormed := (derives_of_parseWithin hparse).wellFormed
  rw [valueOf]
  cases allBlank source.toList with
  | true => exact Or.inl ⟨0, rfl⟩
  | false =>
    simp only [hscan, hparse, evaluateExpr_eq_value]
    rcases hwf.value_cases with ⟨x, hx⟩ | hx
    · exact Or.inl ⟨x, by rw [hx]; rfl⟩
    · exact Or.inr (by rw [hx]; rfl)

end Calculator
