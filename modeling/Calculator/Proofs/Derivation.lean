import Calculator.Proofs.Reading

/-!
# Reading and the grammar

Reading finds the tree that the grammar gives to a list of tokens, and finds one
whenever the grammar gives one.  Both directions go by induction, on the rules of
reading and on the derivation.

Chains are the difficulty.  The grammar adds the last operand to a chain, reading
takes the first one off it; so a chain is not said to be read up to its end, but
to be read as far as a given expression, wherever reading goes from there.

## Main results

* `Reads.yields` — what is read is derived.
* `Derives.reads` — what is derived is read.
* `Derives.unique` — tokens have at most one tree.
* `parseWithin_none_eq_ok_iff` — without a limit the two agree.
* `parse_eq_ok_iff_derives` — they agree within the limit.
-/

namespace Calculator

/-! ### What is read is derived -/

/-- What the tokens `front` make of a stage, in terms of the grammar: a phrase, or
the rest of a chain, whatever tokens the chain begins with. -/
def Stage.Yields : Stage → List Token → Expr → Prop
  | .due phrase, front, e => Derives phrase front e
  | .after level left, front, e =>
    ∀ before, Derives (.chain level) before left → Derives (.chain level) (before ++ front) e

/-- The tokens that are read make the expression that is read. -/
theorem Reads.yields {limit : Option Nat} {cost : Nat} {stage : Stage} {tokens : List Token}
    {o : Except Halt (Expr × List Token)} (h : Reads limit cost stage tokens o) :
    ∀ e behind, o = .ok (e, behind) → ∃ front, tokens = front ++ behind ∧ stage.Yields front e := by
  induction h with
  | ended => nofun
  | @number _ t _ _ ht =>
    rintro e behind ⟨⟩
    exact ⟨[t], rfl, .number ht⟩
  | closing ht => nofun
  | stray ht hs => nofun
  | bracketDeep ht hd => nofun
  | bracketHalt ht hd hi ih => nofun
  | bracketOpen ht hd hi hc ih => nofun
  | @bracket _ t r _ _ _ ht hd hi hr ih =>
    rintro e behind ⟨⟩
    obtain ⟨inner, rfl, hy⟩ := ih _ _ rfl
    exact ⟨t :: (inner ++ [r]), by simp, .bracket ht hr hy⟩
  | signDeep ht hs hd => nofun
  | signHalt ht hs hd hi ih => nofun
  | @signed _ t _ _ _ _ ht hs hd hi ih =>
    rintro e behind ⟨⟩
    obtain ⟨front, rfl, hy⟩ := ih _ _ rfl
    exact ⟨t :: front, rfl, .signed ht hs hy⟩
  | chainHalt hi ih => nofun
  | chain hi hf ihi ihf =>
    rintro e behind rfl
    obtain ⟨first, rfl, hfirst⟩ := ihi _ _ rfl
    obtain ⟨more, rfl, hmore⟩ := ihf _ _ rfl
    exact ⟨first ++ more, by simp, hmore first (.single hfirst)⟩
  | stop hs =>
    rintro e behind ⟨⟩
    exact ⟨[], rfl, fun before hb => by simpa using hb⟩
  | linkHalt ht hi ih => nofun
  | @link _ _ _ _ t _ _ _ _ ht hi hf ihi ihf =>
    rintro e behind rfl
    obtain ⟨right, rfl, hright⟩ := ihi _ _ rfl
    obtain ⟨more, rfl, hmore⟩ := ihf _ _ rfl
    -- the tokens before grow by the operator and its operand, and the rest goes on from there
    refine ⟨t :: (right ++ more), by simp, fun before hb => ?_⟩
    simpa using hmore (before ++ t :: right) (.link hb ht hright)

/-! ### What is derived is read -/

/-- No token at the front of `rest` goes on with the phrase. -/
def Phrase.EndsAt : Phrase → List Token → Prop
  | .primary, _ => True
  | .chain .product, rest => Level.product.StopsAt rest
  | .chain .sum, rest => Level.product.StopsAt rest ∧ Level.sum.StopsAt rest

/-- How reading goes on behind a phrase with the tree `e`, where `rest` is left. -/
def Phrase.GoesOn (cost : Nat) (e : Expr) (rest : List Token)
    (o : Except Halt (Expr × List Token)) : Phrase → Prop
  | .primary => o = .ok (e, rest)
  | .chain level => level.operandPhrase.EndsAt rest ∧ Reads none cost (.after level e) rest o

/-- Where nothing goes on with it, a phrase is all that is read. -/
theorem Phrase.EndsAt.goesOn {phrase : Phrase} {rest : List Token} (h : phrase.EndsAt rest)
    (cost : Nat) (e : Expr) : phrase.GoesOn cost e rest (.ok (e, rest)) := by
  match phrase with
  | .primary => rfl
  | .chain .product => exact ⟨trivial, .stop h⟩
  | .chain .sum => exact ⟨h.1, .stop h.2⟩

@[simp] theorem Phrase.endsAt_nil (phrase : Phrase) : phrase.EndsAt [] := by
  match phrase with
  | .primary => trivial
  | .chain .product => simp [EndsAt]
  | .chain .sum => simp [EndsAt]

/-- A token that is no operator ends every phrase. -/
theorem Phrase.endsAt_cons {t : Token} (ht : t.kind ≠ .operator) (phrase : Phrase)
    (rest : List Token) : phrase.EndsAt (t :: rest) := by
  have hop := Level.operator?_eq_none ht
  match phrase with
  | .primary => trivial
  | .chain .product => simp [EndsAt, hop]
  | .chain .sum => simp [EndsAt, hop]

/-- An operator of a sum is none of a product. -/
theorem Level.product_operator?_eq_none {t : Token} {op : Operator}
    (h : Level.sum.operator? t = some op) : Level.product.operator? t = none := by
  have ht := kind_of_operator? h
  rw [operator?_of_kind ht] at h ⊢
  rcases ofLexeme?_cases h with ⟨hlevel, -⟩ | ⟨hlevel, -⟩ | ⟨-, hl, -⟩ | ⟨-, hl, -⟩
  · cases hlevel
  · cases hlevel
  · simp [ofLexeme?, hl]
  · simp [ofLexeme?, hl]

/-- An operator ends the operand before it. -/
theorem Level.operandPhrase_endsAt {level : Level} {t : Token} {op : Operator}
    (h : level.operator? t = some op) (rest : List Token) :
    level.operandPhrase.EndsAt (t :: rest) := by
  match level with
  | .product => trivial
  | .sum => simpa [Phrase.EndsAt] using product_operator?_eq_none h

/-- The tokens of a phrase are read, and reading goes on behind them. -/
theorem Derives.reads {phrase : Phrase} {front : List Token} {e : Expr}
    (h : Derives phrase front e) :
    ∀ (cost : Nat) (rest : List Token) (o : Except Halt (Expr × List Token)),
      phrase.GoesOn cost e rest o → Reads none cost (.due phrase) (front ++ rest) o := by
  induction h with
  | number ht =>
    rintro cost rest o rfl
    exact .number ht
  | @bracket _ r inner e hl hr he ih =>
    rintro cost rest o rfl
    -- the closing bracket ends the sum inside
    have hends : (Phrase.chain .sum).EndsAt (r :: rest) :=
      Phrase.endsAt_cons (by simp [hr]) _ _
    have hinner := ih (cost + bracketCost) (r :: rest) _ (hends.goesOn _ e)
    simpa using Reads.bracket hl rfl hinner hr
  | signed ht hs he ih =>
    rintro cost rest o rfl
    exact .signed ht hs rfl (ih (cost + signCost) rest _ rfl)
  | @single level operand e he ih =>
    rintro cost rest o ⟨hends, hf⟩
    exact .chain (ih cost rest _ (hends.goesOn cost e)) hf
  | @link level left right t op a b ha ht hb iha ihb =>
    rintro cost rest o ⟨hends, hf⟩
    -- the chain to the left is read first, and then meets the operator
    have hright := ihb cost rest _ (hends.goesOn cost b)
    have hgo : (Phrase.chain level).GoesOn cost a (t :: (right ++ rest)) o :=
      ⟨Level.operandPhrase_endsAt ht _, .link ht hright hf⟩
    simpa using iha cost (t :: (right ++ rest)) o hgo

/-! ### Both together -/

/-- Tokens have at most one tree. -/
theorem Derives.unique {phrase : Phrase} {tokens : List Token} {a b : Expr}
    (ha : Derives phrase tokens a) (hb : Derives phrase tokens b) : a = b := by
  have hra := ha.reads 0 [] _ ((Phrase.endsAt_nil phrase).goesOn 0 a)
  have hrb := hb.reads 0 [] _ ((Phrase.endsAt_nil phrase).goesOn 0 b)
  simpa using hra.unique hrb

/-- Whatever the limit, what all tokens make is derived from them. -/
theorem derives_of_parseWithin {limit : Option Nat} {tokens : List Token} {e : Expr}
    (h : parseWithin limit tokens = .ok e) : Derives (.chain .sum) tokens e := by
  obtain ⟨front, htokens, hy⟩ := (parseWithin_eq_ok_iff.1 h).yields e [] rfl
  rw [htokens, List.append_nil]
  exact hy

/-- Without a limit, all tokens make the tree that the grammar gives them. -/
theorem parseWithin_none_eq_ok_iff {tokens : List Token} {e : Expr} :
    parseWithin none tokens = .ok e ↔ Derives (.chain .sum) tokens e := by
  constructor
  · exact derives_of_parseWithin
  · intro h
    rw [parseWithin_eq_ok_iff]
    simpa using h.reads 0 [] _ ((Phrase.endsAt_nil _).goesOn 0 e)

/-- **Reading agrees with the grammar.**  Where the nesting is not too deep, all
tokens make an expression exactly when the grammar gives them one, which is the
only one; and all other tokens are an error. -/
theorem parse_eq_ok_iff_derives {tokens : List Token}
    (hdepth : parse tokens ≠ .error .tooDeep) :
    (∀ e, parse tokens = .ok e ↔ Derives (.chain .sum) tokens e) ∧
    (∀ a b, Derives (.chain .sum) tokens a → Derives (.chain .sum) tokens b → a = b) ∧
    ((¬ ∃ e, Derives (.chain .sum) tokens e) ↔
      ∃ error, parse tokens = .error (.error error)) := by
  have hiff : ∀ e, parse tokens = .ok e ↔ Derives (.chain .sum) tokens e := by
    intro e
    have hsame : parse tokens = parseWithin none tokens := parseWithin_withoutLimit hdepth
    rw [hsame, parseWithin_none_eq_ok_iff]
  refine ⟨hiff, fun a b => Derives.unique, ?_⟩
  -- what is left is that an outcome within the limit is a tree or an error
  simp only [← hiff]
  match parse tokens, hdepth with
  | .error .tooDeep, hdepth => exact absurd rfl hdepth
  | .error (.error error), _ => simp
  | .ok tree, _ => simp

/-- The tokens of `-(1 + 2) * 3`. -/
def negatedSumTokens : List Token :=
  [⟨.operator, "-", 0⟩, ⟨.openBracket, "(", 1⟩, ⟨.number 1, "1", 2⟩, ⟨.operator, "+", 4⟩,
   ⟨.number 2, "2", 6⟩, ⟨.closeBracket, ")", 7⟩, ⟨.operator, "*", 9⟩, ⟨.number 3, "3", 11⟩]

/-- The sign binds closer than the operator behind the bracket. -/
theorem derives_negatedSumTokens :
    parse negatedSumTokens ≠ .error .tooDeep ∧
    Derives (.chain .sum) negatedSumTokens
      (.binary .mul (.unary .neg (.binary .add (.number 1) (.number 2))) (.number 3)) := by
  have hparse : parse negatedSumTokens =
      .ok (.binary .mul (.unary .neg (.binary .add (.number 1) (.number 2))) (.number 3)) := by
    cbv
  have hdepth : parse negatedSumTokens ≠ .error .tooDeep := by simp [hparse]
  exact ⟨hdepth, ((parse_eq_ok_iff_derives hdepth).1 _).1 hparse⟩

end Calculator
