import Calculator.Proofs.Derivation
import Mathlib.Data.List.Forall2

/-!
# Trees in order

A tree that was read is listed in order: the left operand, the operator, the right operand,
and a minus sign before its operand.  The list is that of the tokens, from which brackets and
plus signs are taken away.  So no operand and no operator is lost, used twice, or moved.

The same lexeme is a sign or an operator between operands.  Which of them is told by the
token before it, while reading tells it by the stage it has come to.  The two agree since the
last token of a phrase never makes an operand due.

## Main definitions

* `OperandDue before` — an operand is due behind these tokens.
* `placedBehind before tokens` — tokens, each with whether an operand is due at its place.
* `Item` — what a tree is made of.
* `StandsFor` — what a token is in a tree.
* `Expr.inOrder e` — the list of a tree.

## Main results

* `Derives.not_operandDue` — no operand is due behind a phrase.
* `Derives.forall₂_inOrder` — the list of what is derived.
* `parse_inOrder` — **reading loses nothing and uses nothing twice**.
-/

namespace Calculator

/-- An operand is due behind these tokens: there are none, or the last one opens a bracket or
is an operator. -/
def OperandDue (before : List Token) : Prop :=
  ∀ t ∈ before.getLast?, t.kind = .openBracket ∨ t.kind = .operator

instance (before : List Token) : Decidable (OperandDue before) :=
  inferInstanceAs (Decidable (∀ t ∈ before.getLast?, _))

/-- A token with whether an operand is due at its place. -/
structure PlacedToken where
  /-- The token. -/
  token : Token
  /-- Whether an operand is due. -/
  due : Bool
  deriving DecidableEq, Repr

/-- Tokens, each with whether an operand is due at its place, behind those before it and the
tokens `before`. -/
def placedBehind (before tokens : List Token) : List PlacedToken :=
  tokens.mapIdx fun i t => ⟨t, decide (OperandDue (before ++ tokens.take i))⟩

/-- A token that leaves no trace in a tree: a bracket, or a plus sign. -/
def PlacedToken.isSilent (p : PlacedToken) : Bool :=
  decide (p.token.kind = .openBracket) || decide (p.token.kind = .closeBracket) ||
    (decide (p.token.kind = .operator) && p.due && p.token.lexeme == "+")

/-- The tokens that leave a trace in a tree. -/
def tracesBehind (before tokens : List Token) : List PlacedToken :=
  (placedBehind before tokens).filter fun p => !p.isSilent

/-- The operators between operands, with their lexemes. -/
def linkOperators : List (String × Operator) :=
  [("+", .add), ("-", .sub), ("*", .mul), ("/", .div)]

/-- What a tree is made of. -/
inductive Item
  /-- A number. -/
  | number (value : Float)
  /-- An operator with one operand. -/
  | unary (op : Operator)
  /-- An operator with two operands. -/
  | binary (op : Operator)
  /-- A leaf that is no expression. -/
  | foreign (text : String)
  deriving DecidableEq, Repr

/-- What a token is in a tree. -/
inductive StandsFor : PlacedToken → Item → Prop
  /-- A number is a leaf with its value. -/
  | number {t : Token} {due : Bool} {value : Float} (ht : t.kind = .number value) :
      StandsFor ⟨t, due⟩ (.number value)
  /-- A minus where an operand is due is a negation. -/
  | negation {t : Token} (ht : t.kind = .operator) (hlexeme : t.lexeme = "-") :
      StandsFor ⟨t, true⟩ (.unary .neg)
  /-- An operator where no operand is due is an operation. -/
  | link {t : Token} {op : Operator} (ht : t.kind = .operator)
      (hop : (t.lexeme, op) ∈ linkOperators) : StandsFor ⟨t, false⟩ (.binary op)

/-- The list of a tree in order: operators between their operands, or before the only one. -/
def Expr.inOrder : Expr → List Item
  | .number value => [.number value]
  | .unary op operand => .unary op :: operand.inOrder
  | .binary op left right => left.inOrder ++ .binary op :: right.inOrder
  | .foreign text => [.foreign text]

variable {before left right tokens : List Token} {t : Token} {phrase : Phrase} {e : Expr}

/-! ### Where operands are due -/

@[simp] theorem operandDue_nil : OperandDue [] := by
  simp [OperandDue]

@[simp] theorem operandDue_concat (before : List Token) (t : Token) :
    OperandDue (before ++ [t]) ↔ t.kind = .openBracket ∨ t.kind = .operator := by
  simp [OperandDue]

/-- Behind a phrase no operand is due, since it ends in a number or a closing bracket. -/
theorem Derives.not_operandDue (h : Derives phrase tokens e) (before : List Token) :
    ¬ OperandDue (before ++ tokens) := by
  induction h generalizing before with
  | number ht => simp [ht]
  | @bracket l r inner e hl hr he ih =>
    rw [← List.cons_append, ← List.append_assoc, operandDue_concat]
    simp [hr]
  | @signed t s operand e ht hs he ih =>
    rw [List.append_cons]
    exact ih (before ++ [t])
  | single he ih => exact ih before
  | @link level left right t op a b ha ht hb iha ihb =>
    have hright := ihb (before ++ left ++ [t])
    simpa using hright

/-! ### Tokens that leave a trace -/

@[simp] theorem tracesBehind_nil (before : List Token) : tracesBehind before [] = [] := rfl

theorem placedBehind_cons (before : List Token) (t : Token) (tokens : List Token) :
    placedBehind before (t :: tokens) =
      ⟨t, decide (OperandDue before)⟩ :: placedBehind (before ++ [t]) tokens := by
  rw [placedBehind, placedBehind, List.mapIdx_cons, List.take_zero, List.append_nil]
  congr 2
  funext i a
  rw [List.take_succ_cons, List.append_cons]

theorem tracesBehind_cons (before : List Token) (t : Token) (tokens : List Token) :
    tracesBehind before (t :: tokens) =
      (if PlacedToken.isSilent ⟨t, decide (OperandDue before)⟩ then []
        else [⟨t, decide (OperandDue before)⟩]) ++ tracesBehind (before ++ [t]) tokens := by
  rw [tracesBehind, placedBehind_cons, List.filter_cons]
  cases PlacedToken.isSilent ⟨t, decide (OperandDue before)⟩ <;> rfl

theorem tracesBehind_append (before left right : List Token) :
    tracesBehind before (left ++ right) =
      tracesBehind before left ++ tracesBehind (before ++ left) right := by
  induction left generalizing before with
  | nil => simp
  | cons t left ih =>
    rw [List.cons_append, tracesBehind_cons, ih, tracesBehind_cons, List.append_assoc,
      List.append_assoc, List.singleton_append]

/-- Brackets leave no trace. -/
theorem tracesBehind_cons_bracket (ht : t.kind = .openBracket ∨ t.kind = .closeBracket)
    (before tokens : List Token) :
    tracesBehind before (t :: tokens) = tracesBehind (before ++ [t]) tokens := by
  rw [tracesBehind_cons]
  rcases ht with ht | ht <;> simp [PlacedToken.isSilent, ht]

theorem tracesBehind_cons_number {value : Float} (ht : t.kind = .number value)
    (before tokens : List Token) :
    tracesBehind before (t :: tokens) =
      ⟨t, decide (OperandDue before)⟩ :: tracesBehind (before ++ [t]) tokens := by
  rw [tracesBehind_cons]
  simp [PlacedToken.isSilent, ht]

/-- Of the signs, the minus leaves a trace. -/
theorem tracesBehind_cons_sign (ht : t.kind = .operator) (hdue : OperandDue before)
    (tokens : List Token) :
    tracesBehind before (t :: tokens) =
      (if t.lexeme = "+" then [] else [⟨t, true⟩]) ++ tracesBehind (before ++ [t]) tokens := by
  rw [tracesBehind_cons]
  by_cases hplus : t.lexeme = "+" <;> simp [PlacedToken.isSilent, ht, hdue, hplus]

/-- Operators between operands leave a trace. -/
theorem tracesBehind_cons_link (ht : t.kind = .operator) (hdue : ¬ OperandDue before)
    (tokens : List Token) :
    tracesBehind before (t :: tokens) = ⟨t, false⟩ :: tracesBehind (before ++ [t]) tokens := by
  rw [tracesBehind_cons]
  simp [PlacedToken.isSilent, ht, hdue]

/-! ### Trees in order -/

theorem Level.mem_linkOperators {level : Level} {op : Operator}
    (h : level.operator? t = some op) : (t.lexeme, op) ∈ linkOperators := by
  rw [operator?_of_kind (kind_of_operator? h)] at h
  rcases ofLexeme?_cases h with ⟨-, hl, rfl⟩ | ⟨-, hl, rfl⟩ | ⟨-, hl, rfl⟩ | ⟨-, hl, rfl⟩ <;>
    simp [linkOperators, hl]

/-- What is derived is listed as its tokens are, wherever an operand is due. -/
theorem Derives.forall₂_inOrder (h : Derives phrase tokens e) :
    ∀ before, OperandDue before →
      List.Forall₂ StandsFor (tracesBehind before tokens) e.inOrder := by
  induction h with
  | number ht =>
    intro before _
    rw [tracesBehind_cons_number ht]
    exact .cons (.number ht) .nil
  | @bracket l r inner e hl hr he ih =>
    intro before _
    have hinner := ih (before ++ [l]) ((operandDue_concat _ l).2 (Or.inl hl))
    rw [tracesBehind_cons_bracket (Or.inl hl), tracesBehind_append,
      tracesBehind_cons_bracket (Or.inr hr), tracesBehind_nil, List.append_nil]
    exact hinner
  | @signed t s operand e ht hs he ih =>
    intro before hdue
    have hoperand := ih (before ++ [t]) ((operandDue_concat _ t).2 (Or.inr ht))
    rw [tracesBehind_cons_sign ht hdue]
    rcases Sign.ofLexeme?_cases hs with ⟨rfl, hl⟩ | ⟨rfl, hl⟩
    · rw [if_neg (by simp [hl])]
      exact .cons (.negation ht hl) hoperand
    · rw [if_pos hl]
      exact hoperand
  | single he ih => exact ih
  | @link level left right t op a b ha ht hb iha ihb =>
    intro before hdue
    -- the operator is one since the chain to its left makes no operand due
    have hkind : t.kind = .operator := Level.kind_of_operator? ht
    have hright := ihb (before ++ left ++ [t]) ((operandDue_concat _ t).2 (Or.inr hkind))
    rw [tracesBehind_append, tracesBehind_cons_link hkind (ha.not_operandDue before)]
    exact List.rel_append (iha before hdue)
      (.cons (.link hkind (Level.mem_linkOperators ht)) hright)

/-- **Reading loses nothing and uses nothing twice.**  The list of a tree in order is that of
its tokens without brackets and plus signs: each number is one leaf, each operator between
operands one operation, and each minus sign one negation, all in the order in which they
stand.  A `+` or `-` is a sign where it comes first, or behind an open bracket or an
operator. -/
theorem parse_inOrder {tokens : List Token} {e : Expr} (h : parse tokens = .ok e) :
    List.Forall₂ StandsFor (tracesBehind [] tokens) e.inOrder :=
  (derives_of_parseWithin h).forall₂_inOrder [] operandDue_nil

/-- The tokens of `2 - -(+3)`. -/
def doubleMinusTokens : List Token :=
  [⟨.number 2, "2", 0⟩, ⟨.operator, "-", 2⟩, ⟨.operator, "-", 4⟩, ⟨.openBracket, "(", 5⟩,
   ⟨.operator, "+", 6⟩, ⟨.number 3, "3", 7⟩, ⟨.closeBracket, ")", 8⟩]

/-- Of two minus signs in a row, the first is an operation and the second a negation. -/
theorem parse_inOrder_doubleMinus :
    parse doubleMinusTokens = .ok (.binary .sub (.number 2) (.unary .neg (.number 3))) ∧
    (tracesBehind [] doubleMinusTokens).map (·.token.lexeme) = ["2", "-", "-", "3"] ∧
    List.Forall₂ StandsFor (tracesBehind [] doubleMinusTokens)
      [.number 2, .binary .sub, .unary .neg, .number 3] := by
  have hparse : parse doubleMinusTokens =
      .ok (.binary .sub (.number 2) (.unary .neg (.number 3))) := by cbv
  exact ⟨hparse, by decide +kernel, parse_inOrder hparse⟩

end Calculator
