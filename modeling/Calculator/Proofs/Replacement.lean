import Calculator.Proofs.Evaluation

/-!
# An expression in place of a number

Where a number stands among the tokens of an expression, another expression may stand
instead, in brackets.  The tree changes in one leaf, the one of that number, and the
value is that of the first expression if the second one comes to the number.

The grammar gives the argument its shape: it looks at no token outside the phrase it
derives, so a derivation goes through with the number exchanged, wherever the number
is.  Which leaf it makes is told by counting: the leaves of a tree are the numbers
among the tokens, in the same order.

## Main definitions

* `numbersAmong tokens`, `Expr.numbers` — the numbers among tokens, and in a tree.
* `Expr.replaceNumber e index new` — a tree with one of its numbers replaced.

## Main results

* `Derives.numbers_eq` — the numbers in a tree are those among its tokens.
* `Derives.replaceNumber` — a number can be replaced by any primary.
* `Expr.value_replaceNumber`, `Expr.WellFormed.value_replaceNumber_fault` — the value of
  a tree with a number replaced.
* `parse_bracketed` — an expression in brackets in place of a number.
-/

namespace Calculator

/-- The value of a number token. -/
def Token.number? (t : Token) : Option Float :=
  match t.kind with
  | .number value => some value
  | _ => none

/-- The values of the number tokens, in turn. -/
def numbersAmong (tokens : List Token) : List Float := tokens.filterMap Token.number?

/-- The numbers at the leaves of a tree, from left to right. -/
def Expr.numbers : Expr → List Float
  | .number value => [value]
  | .unary _ operand => operand.numbers
  | .binary _ left right => left.numbers ++ right.numbers
  | .foreign _ => []

/-- The tree with `new` in place of the number that has `index` numbers to its left. -/
def Expr.replaceNumber : Expr → Nat → Expr → Expr
  | .number value, index, new => if index = 0 then new else .number value
  | .unary op operand, index, new => .unary op (operand.replaceNumber index new)
  | .binary op left right, index, new =>
    if index < left.numbers.length then .binary op (left.replaceNumber index new) right
    else .binary op left (right.replaceNumber (index - left.numbers.length) new)
  | .foreign text, _, _ => .foreign text

@[simp] theorem numbersAmong_nil : numbersAmong [] = [] := rfl

@[simp] theorem numbersAmong_append (left right : List Token) :
    numbersAmong (left ++ right) = numbersAmong left ++ numbersAmong right :=
  List.filterMap_append

theorem numbersAmong_cons_number {t : Token} {value : Float} (ht : t.kind = .number value)
    (tokens : List Token) : numbersAmong (t :: tokens) = value :: numbersAmong tokens :=
  List.filterMap_cons_some (by rw [Token.number?, ht])

theorem numbersAmong_cons_other {t : Token} (ht : ∀ value, t.kind ≠ .number value)
    (tokens : List Token) : numbersAmong (t :: tokens) = numbersAmong tokens := by
  refine List.filterMap_cons_none ?_
  unfold Token.number?
  split
  · next value hvalue => exact absurd hvalue (ht value)
  · rfl

@[simp] theorem Expr.replaceNumber_number (value : Float) (new : Expr) :
    (Expr.number value).replaceNumber 0 new = new := rfl

@[simp] theorem Expr.replaceNumber_unary (op : Operator) (operand : Expr) (index : Nat)
    (new : Expr) : (Expr.unary op operand).replaceNumber index new =
      .unary op (operand.replaceNumber index new) := rfl

theorem Expr.replaceNumber_left (op : Operator) {left : Expr} (right : Expr) {index : Nat}
    (h : index < left.numbers.length) (new : Expr) :
    (Expr.binary op left right).replaceNumber index new =
      .binary op (left.replaceNumber index new) right := if_pos h

theorem Expr.replaceNumber_right (op : Operator) (left right : Expr) (index : Nat)
    (new : Expr) :
    (Expr.binary op left right).replaceNumber (left.numbers.length + index) new =
      .binary op left (right.replaceNumber index new) := by
  rw [replaceNumber, if_neg (Nat.not_lt.2 (Nat.le_add_right _ _)), Nat.add_sub_cancel_left]

/-- A sign has no number of its own. -/
theorem Sign.replaceNumber_apply (s : Sign) (e : Expr) (index : Nat) (new : Expr) :
    (s.apply e).replaceNumber index new = s.apply (e.replaceNumber index new) := by
  cases s <;> rfl

theorem Sign.numbers_apply (s : Sign) (e : Expr) : (s.apply e).numbers = e.numbers := by
  cases s <;> rfl

/-! ### Numbers among tokens -/

/-- The numbers in a tree are those among its tokens, in the same order. -/
theorem Derives.numbers_eq {phrase : Phrase} {tokens : List Token} {e : Expr}
    (h : Derives phrase tokens e) : e.numbers = numbersAmong tokens := by
  induction h with
  | number ht => rw [numbersAmong_cons_number ht]; rfl
  | @bracket l r inner e hl hr he ih =>
    rw [numbersAmong_cons_other (by simp [hl]), numbersAmong_append,
      numbersAmong_cons_other (by simp [hr]), numbersAmong_nil, List.append_nil, ih]
  | @signed t s operand e ht hs he ih =>
    rw [Sign.numbers_apply, numbersAmong_cons_other (by simp [ht]), ih]
  | single he ih => exact ih
  | @link level left right t op a b ha ht hb iha ihb =>
    have hkind : t.kind = .operator := Level.kind_of_operator? ht
    rw [Expr.numbers, iha, ihb, numbersAmong_append, numbersAmong_cons_other (by simp [hkind])]

/-! ### A primary in place of a number -/

/-- A token that is no number lies on one side of a number: where the two lists of
tokens agree, one of their parts goes on to the number. -/
theorem append_cons_eq_append_cons {left right before after : List Token} {t n : Token}
    (hne : t ≠ n) (h : left ++ t :: right = before ++ n :: after) :
    (∃ rest, left = before ++ n :: rest ∧ after = rest ++ t :: right) ∨
      (∃ rest, before = left ++ t :: rest ∧ right = rest ++ n :: after) := by
  rcases List.append_eq_append_iff.1 h with ⟨rest, hbefore, htail⟩ | ⟨rest, hleft, htail⟩
  · cases rest with
    | nil => exact absurd (List.cons.inj htail).1 hne
    | cons b rest =>
      obtain ⟨rfl, hright⟩ := List.cons.inj htail
      exact Or.inr ⟨rest, hbefore, hright⟩
  · cases rest with
    | nil => exact absurd (List.cons.inj htail).1.symm hne
    | cons b rest =>
      obtain ⟨rfl, hafter⟩ := List.cons.inj htail
      exact Or.inl ⟨rest, hleft, hafter⟩

theorem ne_of_kind_ne {t n : Token} {kind : Kind} (ht : t.kind ≠ kind) (hn : n.kind = kind) :
    t ≠ n := by
  rintro rfl
  exact ht hn

/-- **A number can be replaced by any primary.**  What is derived changes in the leaf of
that number, and nowhere else. -/
theorem Derives.replaceNumber {phrase : Phrase} {tokens : List Token} {e : Expr}
    (h : Derives phrase tokens e) {n : Token} {value : Float} (hn : n.kind = .number value)
    {front : List Token} {new : Expr} (hnew : Derives .primary front new) :
    ∀ {before after : List Token}, tokens = before ++ n :: after →
      Derives phrase (before ++ (front ++ after))
        (e.replaceNumber (numbersAmong before).length new) := by
  induction h with
  | @number t value' ht =>
    intro before after htokens
    -- the number is the only token
    obtain ⟨rfl, rfl, rfl⟩ : before = [] ∧ n = t ∧ after = [] := by
      simpa [List.singleton_eq_append_iff] using htokens
    simpa using hnew
  | @bracket l r inner e hl hr he ih =>
    intro before after htokens
    -- the number lies between the brackets
    have hopen : l ≠ n := ne_of_kind_ne (by simp [hl]) hn
    have hclose : r ≠ n := ne_of_kind_ne (by simp [hr]) hn
    cases before with
    | nil => exact absurd (List.cons.inj htokens).1 hopen
    | cons b before =>
      obtain ⟨rfl, hinner⟩ := List.cons.inj htokens
      rcases append_cons_eq_append_cons hclose hinner with ⟨rest, hsplit, rfl⟩ | ⟨rest, -, hnil⟩
      · rw [numbersAmong_cons_other (by simp [hl])]
        simpa using Derives.bracket hl hr (ih hsplit)
      · simp at hnil
  | @signed t s operand e ht hs he ih =>
    intro before after htokens
    have hsign : t ≠ n := ne_of_kind_ne (by simp [ht]) hn
    cases before with
    | nil => exact absurd (List.cons.inj htokens).1 hsign
    | cons b before =>
      obtain ⟨rfl, hoperand⟩ := List.cons.inj htokens
      rw [numbersAmong_cons_other (by simp [ht]), Sign.replaceNumber_apply]
      exact .signed ht hs (ih hoperand)
  | single he ih =>
    intro before after htokens
    exact .single (ih htokens)
  | @link level left right t op a b ha ht hb iha ihb =>
    intro before after htokens
    have hkind : t.kind = .operator := Level.kind_of_operator? ht
    have hop : t ≠ n := ne_of_kind_ne (by simp [hkind]) hn
    rcases append_cons_eq_append_cons hop htokens with ⟨rest, hleft, rfl⟩ | ⟨rest, rfl, hright⟩
    · -- the leaf is one of those of the chain to the left
      have hplace : (numbersAmong before).length < a.numbers.length := by
        rw [ha.numbers_eq, hleft, numbersAmong_append, numbersAmong_cons_number hn,
          List.length_append, List.length_cons]
        omega
      rw [Expr.replaceNumber_left op b hplace]
      simpa using Derives.link (iha hleft) ht hb
    · -- the leaf comes behind all of them
      have hplace : (numbersAmong (left ++ t :: rest)).length =
          a.numbers.length + (numbersAmong rest).length := by
        rw [ha.numbers_eq, numbersAmong_append, numbersAmong_cons_other (by simp [hkind]),
          List.length_append]
      rw [hplace, Expr.replaceNumber_right]
      simpa using Derives.link ha ht (ihb hright)

/-! ### Values -/

/-- Replaced by a tree of the same value, a number makes no difference. -/
theorem Expr.value_replaceNumber {new : Expr} {value : Float} (hnew : new.value = .ok value)
    (e : Expr) {index : Nat} (h : e.numbers[index]? = some value) :
    (e.replaceNumber index new).value = e.value := by
  induction e generalizing index with
  | number value' =>
    obtain ⟨rfl, rfl⟩ : index = 0 ∧ value' = value := by
      simpa [numbers, List.getElem?_singleton] using h
    exact hnew
  | unary op operand ih =>
    rw [replaceNumber_unary, Expr.value, ih h, Expr.value]
  | binary op left right ihl ihr =>
    rw [numbers] at h
    rcases Nat.lt_or_ge index left.numbers.length with hlt | hge
    · rw [List.getElem?_append_left hlt] at h
      rw [replaceNumber_left op right hlt, Expr.value, ihl h, Expr.value]
    · obtain ⟨index, rfl⟩ := Nat.exists_eq_add_of_le hge
      rw [List.getElem?_append_right hge, Nat.add_sub_cancel_left] at h
      rw [replaceNumber_right, Expr.value, ihr h, Expr.value]
  | foreign text => cases h

/-- Replaced by a tree that divides by zero, a number makes the whole do so: whatever is
evaluated before can fail in no other way. -/
theorem Expr.WellFormed.value_replaceNumber_fault {new : Expr}
    (hnew : new.value = .error .divisionByZero) {e : Expr} (he : e.WellFormed) {index : Nat}
    (h : index < e.numbers.length) :
    (e.replaceNumber index new).value = .error .divisionByZero := by
  induction e generalizing index with
  | number value =>
    obtain rfl : index = 0 := by simpa [numbers] using h
    exact hnew
  | unary op operand ih => rw [replaceNumber_unary, Expr.value, ih he.2 h]
  | binary op left right ihl ihr =>
    obtain ⟨-, hleft, hright⟩ := he
    rcases Nat.lt_or_ge index left.numbers.length with hlt | hge
    · rw [replaceNumber_left op right hlt, Expr.value, ihl hleft hlt]
    · obtain ⟨index, rfl⟩ := Nat.exists_eq_add_of_le hge
      rw [numbers, List.length_append] at h
      rw [replaceNumber_right, Expr.value, ihr hright (by omega)]
      rcases hleft.value_cases with ⟨x, hx⟩ | hx <;> rw [hx]
  | foreign text => exact he.elim

/-- **An expression in brackets can stand for a number.**  The tree of the whole is the
one with the number, but for the leaf that the number made, in whose place stands the
tree of the expression.  If the expression comes to the number, the value of the whole
is the same, or both divide by zero; and if the expression divides by zero, so does the
whole. -/
theorem parse_bracketed {before after inner : List Token} {n l r : Token} {value : Float}
    {tree whole : Expr} (hn : n.kind = .number value) (hl : l.kind = .openBracket)
    (hr : r.kind = .closeBracket) (hinner : parse inner = .ok tree)
    (hwhole : parse (before ++ n :: after) = .ok whole)
    (hdepth : parse (before ++ l :: (inner ++ r :: after)) ≠ .error .tooDeep) :
    whole.numbers = numbersAmong before ++ value :: numbersAmong after ∧
    parse (before ++ l :: (inner ++ r :: after)) =
      .ok (whole.replaceNumber (numbersAmong before).length tree) ∧
    (evaluateExpr tree = .ok value →
      evaluateExpr (whole.replaceNumber (numbersAmong before).length tree) = evaluateExpr whole ∧
        ((∃ x, evaluateExpr whole = .ok x) ∨ evaluateExpr whole = .error .divisionByZero)) ∧
    (evaluateExpr tree = .error .divisionByZero →
      evaluateExpr (whole.replaceNumber (numbersAmong before).length tree) =
        .error .divisionByZero) := by
  have hderives := derives_of_parseWithin hwhole
  have hbracket : Derives .primary (l :: (inner ++ [r])) tree :=
    .bracket hl hr (derives_of_parseWithin hinner)
  have hnumbers : whole.numbers = numbersAmong before ++ value :: numbersAmong after := by
    rw [hderives.numbers_eq, numbersAmong_append, numbersAmong_cons_number hn]
  simp only [evaluateExpr_eq_value]
  refine ⟨hnumbers, ?_, fun htree => ⟨?_, hderives.wellFormed.value_cases⟩, fun htree => ?_⟩
  · have hsame : parse (before ++ l :: (inner ++ r :: after)) = parseWithin none _ :=
      parseWithin_withoutLimit hdepth
    rw [hsame, parseWithin_none_eq_ok_iff]
    simpa using hderives.replaceNumber hn hbracket rfl
  · exact Expr.value_replaceNumber htree whole (by simp [hnumbers])
  · exact hderives.wellFormed.value_replaceNumber_fault htree (by simp [hnumbers])

/-- The tokens of `8 -`. -/
def minuendTokens : List Token := [⟨.number 8, "8", 0⟩, ⟨.operator, "-", 2⟩]

/-- The tokens of `3 + 4`. -/
def sumTokens : List Token :=
  [⟨.number 3, "3", 5⟩, ⟨.operator, "+", 7⟩, ⟨.number 4, "4", 9⟩]

theorem parse_bracketed_difference :
    parse sumTokens = .ok (.binary .add (.number 3) (.number 4)) ∧
    evaluateExpr (.binary .add (.number 3) (.number 4)) = .ok 7 ∧
    parse (minuendTokens ++ [⟨.number 7, "7", 4⟩]) =
      .ok (.binary .sub (.number 8) (.number 7)) ∧
    parse (minuendTokens ++ ⟨.openBracket, "(", 4⟩ :: (sumTokens ++ [⟨.closeBracket, ")", 10⟩])) =
      .ok (.binary .sub (.number 8) (.binary .add (.number 3) (.number 4))) ∧
    evaluateExpr (.binary .sub (.number 8) (.binary .add (.number 3) (.number 4))) =
      evaluateExpr (.binary .sub (.number 8) (.number 7)) := by
  have hinner : parse sumTokens = .ok (.binary .add (.number 3) (.number 4)) := by cbv
  have hwhole : parse (minuendTokens ++ [⟨.number 7, "7", 4⟩]) =
      .ok (.binary .sub (.number 8) (.number 7)) := by cbv
  have hparse : parse (minuendTokens ++
      ⟨.openBracket, "(", 4⟩ :: (sumTokens ++ [⟨.closeBracket, ")", 10⟩])) =
      .ok (.binary .sub (.number 8) (.binary .add (.number 3) (.number 4))) := by cbv
  have hseven : evaluateExpr (.binary .add (.number 3) (.number 4)) = .ok 7 := by
    have hsum : (3 + 4 : Float) = 7 := by decide +kernel
    rw [evaluateExpr_eq_value, ← hsum]
    rfl
  obtain ⟨-, -, hvalue, -⟩ := @parse_bracketed minuendTokens [] sumTokens
    ⟨.number 7, "7", 4⟩ ⟨.openBracket, "(", 4⟩ ⟨.closeBracket, ")", 10⟩ 7 _ _
    rfl rfl rfl hinner hwhole (by simp [hparse])
  exact ⟨hinner, hseven, hwhole, hparse, (hvalue hseven).1⟩

end Calculator
