import Calculator.Proofs.Numeral
import Calculator.Proofs.Unplaced
import Calculator.Proofs.WholeNumber

/-!
# Calculating with whole numbers

An expression of whole numbers, brackets, signs, sums, differences and products has an exact
value, which the grammar gives it without any floating-point number.  As long as the exact
value of no part of it is beyond `2⁵³`, the calculation follows that value at every step,
and what is shown in the end is the exact value.

## Main definitions

* `Sign.exact`, `Operator.exact?` — signs and operators on whole numbers.
* `Amounts P phrase tokens n` — the tokens are a phrase with the exact value `n`, and `P`
  holds of the exact value of each of its parts.
* `Token.IsPlain` — the tokens that whole numbers are calculated with.

## Main results

* `Derives.exists_amounts` — what is plain has an exact value.
* `Amounts.exists_isWhole` — every step of a calculation is exact.
* `calculate_whole` — **what is calculated and shown is the exact value**.
-/

namespace Calculator

open Binary64

/-- A sign in front of a whole number. -/
def Sign.exact : Sign → ℤ → ℤ
  | .plus, n => n
  | .minus, n => -n

/-- An operator between whole numbers, if it makes a whole number of any two. -/
def Operator.exact? : Operator → ℤ → ℤ → Option ℤ
  | .add, m, n => some (m + n)
  | .sub, m, n => some (m - n)
  | .mul, m, n => some (m * n)
  | .div, _, _ => none
  | .neg, _, _ => none

/-- `Amounts P phrase tokens n` says that the tokens, all of them, are a phrase of whole
numbers with the exact value `n`, and that `P` holds of the exact values of the phrase and
of all phrases in it. -/
inductive Amounts (P : ℤ → Prop) : Phrase → List Token → ℤ → Prop
  /-- A number is written with digits alone. -/
  | number {t : Token} {value : Float} {n : ℕ} (ht : t.kind = .number value)
      (hdigits : ∀ c ∈ t.lexeme.toList, c.isDigit = true)
      (hn : Nat.ofDigitChars 10 t.lexeme.toList 0 = n) (hP : P n) : Amounts P .primary [t] n
  /-- Brackets do not change a value. -/
  | bracket {l r : Token} {inner : List Token} {n : ℤ} (hl : l.kind = .openBracket)
      (hr : r.kind = .closeBracket) (he : Amounts P (.chain .sum) inner n) :
      Amounts P .primary (l :: (inner ++ [r])) n
  /-- A sign in front of a primary. -/
  | signed {t : Token} {s : Sign} {operand : List Token} {n : ℤ} (ht : t.kind = .operator)
      (hs : Sign.ofLexeme? t.lexeme = some s) (he : Amounts P .primary operand n)
      (hP : P (s.exact n)) : Amounts P .primary (t :: operand) (s.exact n)
  /-- An operand alone. -/
  | single {level : Level} {operand : List Token} {n : ℤ}
      (he : Amounts P level.operandPhrase operand n) : Amounts P (.chain level) operand n
  /-- A chain, an operator and an operand. -/
  | link {level : Level} {left right : List Token} {t : Token} {op : Operator} {m n k : ℤ}
      (ha : Amounts P (.chain level) left m) (ht : level.operator? t = some op)
      (hb : Amounts P level.operandPhrase right n) (hop : op.exact? m n = some k) (hP : P k) :
      Amounts P (.chain level) (left ++ t :: right) k

variable {phrase : Phrase} {tokens : List Token} {source : String} {n : ℤ}

/-- What holds of the value of each part holds of the value of the whole. -/
theorem Amounts.holds {P : ℤ → Prop} (h : Amounts P phrase tokens n) : P n := by
  induction h with
  | number ht hdigits hn hP => exact hP
  | bracket hl hr he ih => exact ih
  | signed ht hs he hP ih => exact hP
  | single he ih => exact ih
  | link ha ht hb hop hP iha ihb => exact hP

/-- A token that whole numbers are calculated with: if it is a number then it is written with
digits alone, and it does not divide. -/
def Token.IsPlain (t : Token) : Prop :=
  (∀ value, t.kind = .number value → ∀ c ∈ t.lexeme.toList, c.isDigit = true) ∧ t.lexeme ≠ "/"

/-- An expression of plain tokens has an exact value. -/
theorem Derives.exists_amounts {e : Expr} (h : Derives phrase tokens e)
    (hplain : ∀ t ∈ tokens, t.IsPlain) : ∃ n, Amounts (fun _ => True) phrase tokens n := by
  induction h with
  | number ht =>
    exact ⟨_, .number ht ((hplain _ List.mem_cons_self).1 _ ht) rfl trivial⟩
  | bracket hl hr he ih =>
    obtain ⟨n, hn⟩ := ih fun t ht => hplain t (by simp [ht])
    exact ⟨n, .bracket hl hr hn⟩
  | signed ht hs he ih =>
    obtain ⟨n, hn⟩ := ih fun t ht => hplain t (by simp [ht])
    exact ⟨_, .signed ht hs hn trivial⟩
  | single he ih =>
    obtain ⟨n, hn⟩ := ih hplain
    exact ⟨n, .single hn⟩
  | @link level left right t op a b ha ht hb iha ihb =>
    obtain ⟨m, hm⟩ := iha fun t ht => hplain t (by simp [ht])
    obtain ⟨n, hn⟩ := ihb fun t ht => hplain t (by simp [ht])
    have hlexeme := ht
    rw [Level.operator?_of_kind (Level.kind_of_operator? ht)] at hlexeme
    obtain ⟨k, hk⟩ : ∃ k, op.exact? m n = some k := by
      rcases Level.ofLexeme?_cases hlexeme with ⟨-, -, rfl⟩ | ⟨-, hslash, -⟩ | ⟨-, -, rfl⟩ |
        ⟨-, -, rfl⟩
      · exact ⟨_, rfl⟩
      · exact absurd hslash (hplain t (by simp)).2
      · exact ⟨_, rfl⟩
      · exact ⟨_, rfl⟩
    exact ⟨k, .link hm ht hn hk trivial⟩

/-! ### The steps of a calculation -/

/-- A number that is written with digits alone has the value of its digits. -/
theorem isWhole_of_lexed {t : Token} {value : Float} (ht : t.kind = .number value)
    (hlexed : t.Lexed) (hdigits : ∀ c ∈ t.lexeme.toList, c.isDigit = true) {n : ℕ}
    (hn : Nat.ofDigitChars 10 t.lexeme.toList 0 = n) (hP : |(n : ℤ)| ≤ 2 ^ 53) :
    IsWhole value n := by
  cases hlexed with
  | @number run decimal position hne hrun hvalue =>
    cases ht
    rw [String.toList_ofList] at hdigits hn
    rw [literal?_digits hdigits, hn] at hvalue
    obtain rfl := Option.some.inj hvalue
    exact isWhole_toFloat (by rw [Decimal.value, magnitude_whole]; rfl) hP
  | symbol hc =>
    cases ht
    rcases symbolKind?_cases hc with ⟨-, hk⟩ | ⟨-, hk⟩ | ⟨-, hk⟩ <;> cases hk

/-- A sign in front of a whole number. -/
theorem isWhole_sign {e : Expr} {x : Float} (hvalue : e.value = .ok x) (hx : IsWhole x n)
    (s : Sign) : ∃ y, (s.apply e).value = .ok y ∧ IsWhole y (s.exact n) := by
  cases s with
  | plus => exact ⟨x, hvalue, hx⟩
  | minus => exact ⟨-x, by rw [Sign.apply, Expr.value, hvalue]; rfl, hx.neg⟩

/-- An operator between whole numbers. -/
theorem isWhole_operator {op : Operator} {x y : Float} {m k : ℤ} (hx : IsWhole x m)
    (hy : IsWhole y n) (hop : op.exact? m n = some k) (hk : |k| ≤ 2 ^ 53) :
    ∃ z, applyBinary op x y = .ok z ∧ IsWhole z k := by
  cases op with
  | add =>
    obtain rfl := Option.some.inj hop
    exact ⟨x + y, rfl, hx.add hy hk⟩
  | sub =>
    obtain rfl := Option.some.inj hop
    exact ⟨x - y, rfl, hx.sub hy hk⟩
  | mul =>
    obtain rfl := Option.some.inj hop
    exact ⟨x * y, rfl, hx.mul hy hk⟩
  | div => cases hop
  | neg => cases hop

/-- **Every step is exact**: an expression whose parts stay within `2⁵³` has a tree, and the
value of the tree is the exact value. -/
theorem Amounts.exists_isWhole (h : Amounts (fun m => |m| ≤ 2 ^ 53) phrase tokens n)
    (hlexed : ∀ t ∈ tokens, t.Lexed) :
    ∃ e x, Derives phrase tokens e ∧ e.value = .ok x ∧ IsWhole x n := by
  induction h with
  | @number t value n ht hdigits hn hP =>
    exact ⟨_, value, .number ht, rfl,
      isWhole_of_lexed ht (hlexed t List.mem_cons_self) hdigits hn hP⟩
  | bracket hl hr he ih =>
    obtain ⟨e, x, hderives, hx⟩ := ih fun t ht => hlexed t (by simp [ht])
    exact ⟨e, x, .bracket hl hr hderives, hx⟩
  | @signed t s operand n ht hs he hP ih =>
    obtain ⟨e, x, hderives, hvalue, hx⟩ := ih fun t ht => hlexed t (by simp [ht])
    obtain ⟨y, hy⟩ := isWhole_sign hvalue hx s
    exact ⟨s.apply e, y, .signed ht hs hderives, hy⟩
  | single he ih =>
    obtain ⟨e, x, hderives, hx⟩ := ih hlexed
    exact ⟨e, x, .single hderives, hx⟩
  | @link level left right t op m n k ha ht hb hop hP iha ihb =>
    obtain ⟨a, x, haderives, hxvalue, hx⟩ := iha fun t ht => hlexed t (by simp [ht])
    obtain ⟨b, y, hbderives, hyvalue, hy⟩ := ihb fun t ht => hlexed t (by simp [ht])
    obtain ⟨z, hzvalue, hz⟩ := isWhole_operator hx hy hop hP
    refine ⟨.binary op a b, z, .link haderives ht hbderives, ?_, hz⟩
    rw [Expr.value, hxvalue, hyvalue]
    exact hzvalue

/-! ### The whole calculation -/

/-- **Calculating with whole numbers is exact up to `2⁵³`.**  An expression of whole numbers,
brackets, signs, sums, differences and products has an exact value.  If the exact value of
no part of it is beyond `2⁵³` then it is calculated exactly; and with whatever number of
places after the point, what is shown is the exact value in digits. -/
theorem calculate_whole (hscan : scan source = .ok tokens)
    (hdepth : parse tokens ≠ .error .tooDeep) :
    (∀ e, parse tokens = .ok e → (∀ t ∈ tokens, t.IsPlain) →
      ∃ n, Amounts (fun _ => True) (.chain .sum) tokens n) ∧
    ∀ n, Amounts (fun m => |m| ≤ 2 ^ 53) (.chain .sum) tokens n →
      ∃ x, (calculate source).value = .ok x ∧ x.isFinite = true ∧ rational x = n ∧
        ∀ places : Int, 0 ≤ places → display places x = .ok (toString n) := by
  refine ⟨fun e hparse => (derives_of_parseWithin hparse).exists_amounts, fun n h => ?_⟩
  obtain ⟨e, x, hderives, hvalue, hx⟩ := h.exists_isWhole (scan_lexed hscan)
  have hparse : parse tokens = .ok e := by
    have hsame : parse tokens = parseWithin none tokens := parseWithin_withoutLimit hdepth
    rw [hsame, parseWithin_none_eq_ok_iff]
    exact hderives
  have hcalculate : (calculate source).value = .ok x := by
    rw [value_calculate, valueOf_of_scan hscan, if_neg hderives.ne_nil, valueOfTokens, hparse]
    simp only [evaluateExpr_eq_value, hvalue]
    rfl
  exact ⟨x, hcalculate, hx.finite, hx.rational_eq, fun places => hx.display h.holds⟩

/-- The tokens of `-3*0`. -/
def negativeZeroTokens : List Token :=
  [⟨.operator, "-", 0⟩, ⟨.number (literalValue ['3']).toFloat, "3", 1⟩, ⟨.operator, "*", 2⟩,
    ⟨.number (literalValue ['0']).toFloat, "0", 3⟩]

/-- The product bears a minus sign, and the text does not. -/
theorem calculate_whole_negativeZero :
    scan "-3*0" = .ok negativeZeroTokens ∧ parse negativeZeroTokens ≠ .error .tooDeep ∧
    Amounts (fun m => |m| ≤ 2 ^ 53) (.chain .sum) negativeZeroTokens 0 ∧
    ∃ x, (calculate "-3*0").value = .ok x ∧ rational x = 0 ∧ display 10 x = .ok "0" := by
  have hscan : scan "-3*0" = .ok negativeZeroTokens := by
    have hminus : symbolKind? '-' = some .operator := by decide
    have htimes : symbolKind? '*' = some .operator := by decide
    have hthree : Token.Lexed ⟨.number (literalValue ['3']).toFloat, "3", 1⟩ :=
      @Token.Lexed.number ['3'] _ _ (List.cons_ne_nil _ _) (List.forall_mem_singleton.2 rfl)
        (literal?_eq_some (by decide))
    have hzero : Token.Lexed ⟨.number (literalValue ['0']).toFloat, "0", 3⟩ :=
      @Token.Lexed.number ['0'] _ _ (List.cons_ne_nil _ _) (List.forall_mem_singleton.2 rfl)
        (literal?_eq_some (by decide))
    rw [scan, mapError_eq_ok]
    show scanFrom 0 ('-' :: ("3".toList ++ '*' :: ("0".toList ++ []))) = _
    rw [scanFrom_cons_symbol hminus, hthree.scanFrom_append _ ?_, scanFrom_cons_symbol htimes,
      hzero.scanFrom_append _ ?_, scanFrom_nil]
    · rfl
    · rintro _ _ c ⟨⟩
    · rintro _ _ c ⟨⟩
      decide
  have hparse : ∀ a b : Float, ∃ e, parse [⟨.operator, "-", 0⟩, ⟨.number a, "3", 1⟩,
      ⟨.operator, "*", 2⟩, ⟨.number b, "0", 3⟩] = .ok e := by
    intro a b
    refine ⟨.binary .mul (.unary .neg (.number a)) (.number b), ?_⟩
    cbv
  have hdepth : parse negativeZeroTokens ≠ .error .tooDeep := by
    obtain ⟨e, he⟩ := hparse (literalValue ['3']).toFloat (literalValue ['0']).toFloat
    rw [negativeZeroTokens, he]
    simp
  have hamounts : Amounts (fun m => |m| ≤ 2 ^ 53) (.chain .sum) negativeZeroTokens 0 := by
    have hthree : Amounts (fun m => |m| ≤ 2 ^ 53) .primary
        [⟨.number (literalValue ['3']).toFloat, "3", 1⟩] (3 : ℕ) :=
      .number rfl (by simp) (by simp [Nat.ofDigitChars]) (by norm_num)
    have hzero : Amounts (fun m => |m| ≤ 2 ^ 53) .primary
        [⟨.number (literalValue ['0']).toFloat, "0", 3⟩] (0 : ℕ) :=
      .number rfl (by simp) (by simp [Nat.ofDigitChars]) (by norm_num)
    have hminusThree : Amounts (fun m => |m| ≤ 2 ^ 53) (.chain .product)
        [⟨.operator, "-", 0⟩, ⟨.number (literalValue ['3']).toFloat, "3", 1⟩] (-3) :=
      .single (.signed (s := .minus) rfl (by decide) hthree (by norm_num [Sign.exact]))
    have htimes : Level.product.operator? ⟨.operator, "*", 2⟩ = some .mul := by decide
    exact .single (.link hminusThree htimes hzero rfl (by norm_num))
  obtain ⟨x, hx, -, hrational, hdisplay⟩ := (calculate_whole hscan hdepth).2 0 hamounts
  refine ⟨hscan, hdepth, hamounts, x, hx, by simpa using hrational, ?_⟩
  exact hdisplay 10 (by decide)

end Calculator
