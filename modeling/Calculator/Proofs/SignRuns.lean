import Calculator.Proofs.Bits
import Calculator.Proofs.Evaluation
import Calculator.Proofs.InOrder
import Calculator.Proofs.NestingBounds
import Calculator.Proofs.Tally

/-!
# Runs of signs

Where an operand is due, any number of signs may stand, and all they do is negate: an even
number of minus signs does nothing, an odd number what one does.  So a run of signs can stand
for any other with as many minus signs, up to an even number, whatever stands before it and
behind it, and also where what stands there is wrong.

Values and errors are followed apart.  A derivation goes through with the run exchanged, since
no phrase ends inside a run; and the count of errors passes a run without a change, so it meets
the same error behind it, further on by as much as the run is longer.

## Main definitions

* `minusCount signs` — how many of the signs are minus signs.
* `withSigns signs e` — a tree behind a run of signs.

## Main results

* `value_withSigns_congr` — runs of the same parity make the same value.
* `Derives.exists_exchanged` — a run exchanged in a derivation.
* `firstError_passes_or_stops` — the count of errors up to where an operand is due.
* `parse_signRun` — **a run of signs matters by the parity of its minus signs alone**.
-/

namespace Calculator

/-- How many of the tokens are minus signs. -/
def minusCount (signs : List Token) : Nat := signs.countP fun t => t.lexeme == "-"

/-- The tree of an operand behind a run of signs. -/
def withSigns : List Token → Expr → Expr
  | [], e => e
  | t :: signs, e => if t.lexeme = "-" then .unary .neg (withSigns signs e) else withSigns signs e

variable {before after signs signs' tokens left right : List Token} {t : Token} {e : Expr}
  {phrase : Phrase}

/-- Signs are the operators with the lexemes `+` and `-`. -/
theorem Token.isSign_iff : t.IsSign ↔ t.kind = .operator ∧ (t.lexeme = "+" ∨ t.lexeme = "-") := by
  rw [IsSign, ← Option.isSome_iff_exists, isSome_ofLexeme?_iff]
  simp

theorem Token.IsSign.ofLexeme? (h : t.IsSign) :
    Sign.ofLexeme? t.lexeme = some (if t.lexeme = "-" then .minus else .plus) := by
  rcases (isSign_iff.1 h).2 with hl | hl <;> simp [Sign.ofLexeme?, hl]

/-- Signs in front of an operand are signs in front of the rest of them. -/
theorem withSigns_cons (t : Token) (signs : List Token) (e : Expr) :
    withSigns (t :: signs) e =
      (if t.lexeme = "-" then Sign.minus else .plus).apply (withSigns signs e) := by
  rw [withSigns]
  split <;> rfl

/-! ### Values -/

/-- A run of signs negates, if the number of its minus signs is odd. -/
theorem value_withSigns (signs : List Token) (e : Expr) :
    (withSigns signs e).value =
      e.value.map fun x => if minusCount signs % 2 = 0 then x else -x := by
  induction signs with
  | nil =>
    cases hvalue : e.value <;> simp [withSigns, minusCount, hvalue, Except.map]
  | cons t signs ih =>
    by_cases hminus : t.lexeme = "-"
    · have hcount : minusCount (t :: signs) = minusCount signs + 1 := by
        simp [minusCount, hminus]
      rw [withSigns, if_pos hminus, Expr.value, ih, hcount]
      cases e.value with
      | error fault => rfl
      | ok x =>
        rcases Nat.mod_two_eq_zero_or_one (minusCount signs) with heven | hodd
        · have hnext : ¬ (minusCount signs + 1) % 2 = 0 := by omega
          simp only [Except.map, heven, if_true, if_neg hnext, applyUnary]
        · have hnow : ¬ minusCount signs % 2 = 0 := by omega
          have hnext : (minusCount signs + 1) % 2 = 0 := by omega
          simp only [Except.map, if_neg hnow, hnext, if_true, applyUnary, Binary64.neg_neg_self]
    · have hcount : minusCount (t :: signs) = minusCount signs := by
        simp [minusCount, hminus]
      rw [withSigns, if_neg hminus, ih, hcount]

/-- Runs with as many minus signs, up to an even number, make the same value. -/
theorem value_withSigns_congr (hparity : minusCount signs % 2 = minusCount signs' % 2) (e : Expr) :
    (withSigns signs' e).value = (withSigns signs e).value := by
  rw [value_withSigns, value_withSigns, hparity]

theorem Sign.value_apply_congr {a b : Expr} (s : Sign) (h : a.value = b.value) :
    (s.apply a).value = (s.apply b).value := by
  cases s with
  | plus => exact h
  | minus => rw [apply, apply, Expr.value, Expr.value, h]

theorem Expr.value_binary_congr {a a' b b' : Expr} (op : Operator) (ha : a'.value = a.value)
    (hb : b'.value = b.value) : (Expr.binary op a' b').value = (Expr.binary op a b).value := by
  rw [Expr.value, Expr.value, ha, hb]

/-! ### Runs in derivations -/

/-- A primary that begins with a sign is that sign and a primary. -/
theorem Derives.of_cons_sign (h : Derives .primary (t :: tokens) e) (ht : t.IsSign) :
    ∃ operand, Derives .primary tokens operand ∧
      e = (if t.lexeme = "-" then Sign.minus else .plus).apply operand := by
  generalize hall : t :: tokens = all at h
  cases h with
  | number hnumber =>
    obtain ⟨rfl, -⟩ := List.cons.inj hall
    rw [ht.1] at hnumber
    cases hnumber
  | bracket hl =>
    obtain ⟨rfl, -⟩ := List.cons.inj hall
    rw [ht.1] at hl
    cases hl
  | @signed t' s operand e' _ hs he =>
    obtain ⟨rfl, rfl⟩ := List.cons.inj hall
    rw [ht.ofLexeme?, Option.some.injEq] at hs
    exact ⟨e', he, by rw [hs]⟩

/-- A primary that begins with a run of signs is the run and a primary. -/
theorem derives_signs_iff (hsigns : ∀ t ∈ signs, t.IsSign) :
    Derives .primary (signs ++ after) e ↔
      ∃ operand, Derives .primary after operand ∧ e = withSigns signs operand := by
  induction signs generalizing e with
  | nil => simp [withSigns]
  | cons t signs ih =>
    obtain ⟨ht, hsigns⟩ := List.forall_mem_cons.1 hsigns
    constructor
    · intro h
      obtain ⟨inner, hinner, rfl⟩ := h.of_cons_sign ht
      obtain ⟨operand, hoperand, rfl⟩ := (ih hsigns).1 hinner
      exact ⟨operand, hoperand, (withSigns_cons t signs operand).symm⟩
    · rintro ⟨operand, hoperand, rfl⟩
      rw [withSigns_cons]
      exact .signed ht.1 ht.ofLexeme? ((ih hsigns).2 ⟨operand, hoperand, rfl⟩)

/-- Behind a run of signs an operand is due, if it was due before. -/
theorem OperandDue.append_signs (h : OperandDue before) (hsigns : ∀ t ∈ signs, t.IsSign) :
    OperandDue (before ++ signs) := by
  intro t ht
  rw [List.getLast?_append] at ht
  rcases Option.or_eq_some_iff.1 ht with hlast | ⟨-, hlast⟩
  · exact Or.inr (hsigns t (List.mem_of_getLast? hlast)).1
  · exact h t hlast

/-- Where a phrase and a token behind it are met by a run of signs, the run lies in the phrase
or behind the token. -/
theorem append_cons_eq_append_signs (hleft : ¬ OperandDue left) (hdue : OperandDue before)
    (hsigns : ∀ t ∈ signs, t.IsSign) (h : left ++ t :: right = before ++ (signs ++ after)) :
    (∃ rest, left = before ++ (signs ++ rest) ∧ after = rest ++ t :: right) ∨
      (∃ rest, before = left ++ t :: rest ∧ right = rest ++ (signs ++ after)) := by
  rcases List.append_eq_append_iff.1 h with ⟨rest, rfl, htail⟩ | ⟨middle, rfl, hmiddle⟩
  · cases rest with
    | nil =>
      rw [List.append_nil] at hdue
      exact absurd hdue hleft
    | cons a rest =>
      obtain ⟨rfl, hright⟩ := List.cons.inj htail
      exact Or.inr ⟨rest, rfl, hright⟩
  · rcases List.append_eq_append_iff.1 hmiddle with ⟨rest, rfl, hafter⟩ | ⟨rest, rfl, -⟩
    · exact Or.inl ⟨rest, rfl, hafter⟩
    · -- the phrase cannot end in the run
      have hmem : ∀ a ∈ middle, a.IsSign := fun a ha => hsigns a (List.mem_append_left rest ha)
      exact absurd (hdue.append_signs hmem) hleft

/-- Whether an operand is due is told by the last of the tokens, if there are any. -/
theorem OperandDue.of_append (h : OperandDue (left ++ right)) : OperandDue right := by
  intro t ht
  apply h t
  rw [List.getLast?_append, Option.mem_def.1 ht, Option.some_or]
  rfl

theorem OperandDue.of_cons (h : OperandDue (t :: before)) : OperandDue before := by
  rw [← List.singleton_append] at h
  exact h.of_append

/-- Where an operand is due, a run of signs can be exchanged for one of the same parity.  What
is derived changes, but not in its value. -/
theorem Derives.exists_exchanged (h : Derives phrase tokens e) (hsigns : ∀ t ∈ signs, t.IsSign)
    (hsigns' : ∀ t ∈ signs', t.IsSign) (hparity : minusCount signs % 2 = minusCount signs' % 2) :
    ∀ {before after : List Token}, tokens = before ++ (signs ++ after) → OperandDue before →
      ∃ e', Derives phrase (before ++ (signs' ++ after)) e' ∧ e'.value = e.value := by
  -- a primary that begins with the run is the run and an operand
  have hfront : ∀ {after : List Token} {e : Expr}, Derives .primary (signs ++ after) e →
      ∃ e', Derives .primary (signs' ++ after) e' ∧ e'.value = e.value := by
    intro after e h
    obtain ⟨operand, hoperand, rfl⟩ := (derives_signs_iff hsigns).1 h
    exact ⟨withSigns signs' operand, (derives_signs_iff hsigns').2 ⟨operand, hoperand, rfl⟩,
      value_withSigns_congr hparity operand⟩
  induction h with
  | @number t value ht =>
    intro before after htokens hdue
    cases before with
    | nil => exact hfront (htokens ▸ .number ht)
    | cons b before =>
      -- a number does not make an operand due
      obtain ⟨rfl, hnil⟩ := List.cons.inj htokens
      obtain ⟨rfl, -⟩ := List.append_eq_nil_iff.1 hnil.symm
      have hkind := hdue t rfl
      rw [ht] at hkind
      rcases hkind with hkind | hkind <;> cases hkind
  | @bracket l r inner e hl hr he ih =>
    intro before after htokens hdue
    cases before with
    | nil => exact hfront (htokens ▸ .bracket hl hr he)
    | cons b before =>
      obtain ⟨rfl, hrest⟩ := List.cons.inj htokens
      have hinner : ¬ OperandDue inner := he.not_operandDue []
      rcases append_cons_eq_append_signs hinner hdue.of_cons hsigns hrest with
        ⟨rest, hsplit, rfl⟩ | ⟨rest, rfl, hnil⟩
      · obtain ⟨e', he', hvalue⟩ := ih hsplit hdue.of_cons
        refine ⟨e', ?_, hvalue⟩
        simpa using Derives.bracket hl hr he'
      · -- a closing bracket does not make an operand due
        obtain ⟨rfl, -⟩ := List.append_eq_nil_iff.1 hnil.symm
        rw [← List.cons_append, operandDue_concat, hr] at hdue
        rcases hdue with hkind | hkind <;> cases hkind
  | @signed t s operand e ht hs he ih =>
    intro before after htokens hdue
    cases before with
    | nil => exact hfront (htokens ▸ .signed ht hs he)
    | cons b before =>
      obtain ⟨rfl, hoperand⟩ := List.cons.inj htokens
      obtain ⟨e', he', hvalue⟩ := ih hoperand hdue.of_cons
      exact ⟨s.apply e', .signed ht hs he', s.value_apply_congr hvalue⟩
  | single he ih =>
    intro before after htokens hdue
    obtain ⟨e', he', hvalue⟩ := ih htokens hdue
    exact ⟨e', .single he', hvalue⟩
  | @link level left right t op a b ha ht hb iha ihb =>
    intro before after htokens hdue
    have hleft : ¬ OperandDue left := ha.not_operandDue []
    rcases append_cons_eq_append_signs hleft hdue hsigns htokens with
      ⟨rest, hsplit, rfl⟩ | ⟨rest, rfl, hsplit⟩
    · obtain ⟨a', ha', hvalue⟩ := iha hsplit hdue
      refine ⟨.binary op a' b, ?_, Expr.value_binary_congr op hvalue rfl⟩
      simpa using Derives.link ha' ht hb
    · obtain ⟨b', hb', hvalue⟩ := ihb hsplit hdue.of_append.of_cons
      refine ⟨.binary op a b', ?_, Expr.value_binary_congr op rfl hvalue⟩
      simpa using Derives.link ha ht hb'

/-! ### Runs and errors -/

/-- The count of errors passes a run of signs. -/
theorem firstError_signs (hsigns : ∀ t ∈ signs, t.IsSign) (depth : Nat) (tokens : List Token) :
    firstError .operand depth (signs ++ tokens) = firstError .operand depth tokens := by
  induction signs with
  | nil => rfl
  | cons t signs ih =>
    obtain ⟨ht, hsigns⟩ := List.forall_mem_cons.1 hsigns
    rw [List.cons_append, firstError_sign ht.1 ht.ofLexeme?, ih hsigns]

/-- Behind an open bracket or an operator, an operand is due. -/
theorem Tally.expecting_of_step {s s' : Tally} (h : s.step t = .ok s')
    (ht : t.kind = .openBracket ∨ t.kind = .operator) : s'.expecting = .operand := by
  obtain ⟨expecting, depth⟩ := s
  rcases ht with ht | ht
  · cases expecting with
    | operand =>
      simp only [step, ht, Except.ok.injEq] at h
      rw [← h]
    | operator => simp [step, ht] at h
  · cases expecting with
    | operand =>
      by_cases hlexeme : t.lexeme ∈ ["+", "-"]
      · simp only [step, ht, if_pos hlexeme, Except.ok.injEq] at h
        rw [← h]
      · simp only [step, ht, if_neg hlexeme, reduceCtorEq] at h
    | operator =>
      by_cases hlexeme : t.lexeme ∈ ["+", "-", "*", "/"]
      · simp only [step, ht, if_pos hlexeme, Except.ok.injEq] at h
        rw [← h]
      · simp only [step, ht, if_neg hlexeme, reduceCtorEq] at h

/-- Up to where an operand is due, the count of errors ends at a token, whatever follows, or
goes on from there. -/
theorem firstError_passes_or_stops (s : Tally) (hstart : before = [] → s.expecting = .operand)
    (hdue : OperandDue before) :
    (∃ depth, ∀ tail, firstError s.expecting s.depth (before ++ tail) =
      firstError .operand depth tail) ∨
    (∃ kind front rest, before = front ++ rest ∧ rest ≠ [] ∧ ∀ tail,
      firstError s.expecting s.depth (before ++ tail) = some (kind, rest ++ tail)) := by
  induction before generalizing s with
  | nil =>
    rw [hstart rfl]
    exact Or.inl ⟨s.depth, fun tail => rfl⟩
  | cons t before ih =>
    cases hstep : s.step t with
    | error message =>
      obtain ⟨kind, -, hstop⟩ := Tally.firstError_of_step_eq_error hstep
      exact Or.inr ⟨kind, [], t :: before, rfl, List.cons_ne_nil t before,
        fun tail => hstop (before ++ tail)⟩
    | ok s' =>
      have hnext : before = [] → s'.expecting = .operand := by
        rintro rfl
        exact Tally.expecting_of_step hstep (hdue t rfl)
      have hpass := Tally.firstError_of_step hstep
      rcases ih s' hnext hdue.of_cons with ⟨depth, hgo⟩ | ⟨kind, front, rest, rfl, hne, hstop⟩
      · exact Or.inl ⟨depth, fun tail => (hpass (before ++ tail)).trans (hgo tail)⟩
      · exact Or.inr ⟨kind, t :: front, rest, rfl, hne,
          fun tail => (hpass ((front ++ rest) ++ tail)).trans (hstop tail)⟩

/-! ### Reading and evaluating -/

/-- What a run of signs and the same tokens around another run come to: trees of one value, or
errors with one message, at one place before the run, or as far behind the one as behind the
other. -/
inductive SameBut (before signs signs' : List Token) :
    Except ParseFailure Expr → Except ParseFailure Expr → Prop
  /-- Both have a tree, and the trees have the same value, or both divide by zero. -/
  | value {e e' : Expr} (hvalue : evaluateExpr e' = evaluateExpr e)
      (hends : (∃ x, evaluateExpr e = .ok x) ∨ evaluateExpr e = .error .divisionByZero) :
      SameBut before signs signs' (.ok e) (.ok e')
  /-- Both are wrong before the run. -/
  | errorBefore {error error' : ParseError} (hmessage : error'.message = error.message)
      (hplace : error.index < before.length) (hindex : error'.index = error.index) :
      SameBut before signs signs' (.error (.error error)) (.error (.error error'))
  /-- Both are wrong behind the run. -/
  | errorBehind {error error' : ParseError} (hmessage : error'.message = error.message)
      (hplace : before.length + signs.length ≤ error.index)
      (hindex : (error'.index : Int) - error.index = signs'.length - signs.length) :
      SameBut before signs signs' (.error (.error error)) (.error (.error error'))

/-- The first error of the count is the one that reading without a limit finds. -/
theorem parseWithin_of_firstError {kind : ParseErrorKind} {rest : List Token}
    (h : firstError .operand 0 tokens = some (kind, rest)) :
    parseWithin none tokens = .error (.at tokens kind rest) := by
  have hreports := parseWithin_none_reports tokens
  rw [h] at hreports
  exact hreports

/-- Runs of one parity, without a limit. -/
theorem sameBut_parseWithin (hdue : OperandDue before) (hsigns : ∀ t ∈ signs, t.IsSign)
    (hsigns' : ∀ t ∈ signs', t.IsSign) (hparity : minusCount signs % 2 = minusCount signs' % 2)
    (after : List Token) :
    SameBut before signs signs' (parseWithin none (before ++ (signs ++ after)))
      (parseWithin none (before ++ (signs' ++ after))) := by
  rcases firstError_passes_or_stops Tally.start (fun _ => rfl) hdue with
    ⟨depth, hgo⟩ | ⟨kind, front, rest, rfl, hne, hstop⟩
  · have hfound : ∀ run : List Token, (∀ t ∈ run, t.IsSign) →
        firstError .operand 0 (before ++ (run ++ after)) = firstError .operand depth after :=
      fun run hrun => (hgo (run ++ after)).trans (firstError_signs hrun depth after)
    cases hafter : firstError .operand depth after with
    | none =>
      obtain ⟨e, he⟩ := firstError_eq_none_iff.1 ((hfound signs hsigns).trans hafter)
      obtain ⟨e', he'⟩ := firstError_eq_none_iff.1 ((hfound signs' hsigns').trans hafter)
      -- the tree of the other run is the one that exchanging the runs makes
      obtain ⟨other, hother, hvalue⟩ := he.exists_exchanged hsigns hsigns' hparity rfl hdue
      obtain rfl := hother.unique he'
      rw [parseWithin_none_eq_ok_iff.2 he, parseWithin_none_eq_ok_iff.2 he']
      refine .value ?_ ?_
      · rw [evaluateExpr_eq_value, evaluateExpr_eq_value, hvalue]
      · rw [evaluateExpr_eq_value]
        exact he.wellFormed.value_cases
    | some found =>
      obtain ⟨kind, rest⟩ := found
      obtain ⟨front, rfl, -⟩ := firstError_split after _ _ kind rest hafter
      rw [parseWithin_of_firstError ((hfound signs hsigns).trans hafter),
        parseWithin_of_firstError ((hfound signs' hsigns').trans hafter)]
      refine .errorBehind rfl ?_ ?_ <;>
      · simp only [List.length_append]
        omega
  · have hpos := List.length_pos_iff.2 hne
    rw [parseWithin_of_firstError (hstop (signs ++ after)),
      parseWithin_of_firstError (hstop (signs' ++ after))]
    refine .errorBefore rfl ?_ ?_ <;>
    · simp only [List.length_append]
      omega

/-- **A run of signs matters by the parity of its minus signs alone.**  Where an operand is
due, two runs of signs with as many minus signs, up to an even number, come to the same: the
same value, or a division by zero, or an error with the same message.  The error stands at the
same place before the run, or behind it, further on by as much as the run is longer. -/
theorem parse_signRun {before signs signs' after : List Token} (hdue : OperandDue before)
    (hsigns : ∀ t ∈ signs, t.IsSign) (hsigns' : ∀ t ∈ signs', t.IsSign)
    (hparity : minusCount signs % 2 = minusCount signs' % 2)
    (hdepth : parse (before ++ (signs ++ after)) ≠ .error .tooDeep)
    (hdepth' : parse (before ++ (signs' ++ after)) ≠ .error .tooDeep) :
    SameBut before signs signs' (parse (before ++ (signs ++ after)))
      (parse (before ++ (signs' ++ after))) := by
  have hsame : parse (before ++ (signs ++ after)) = parseWithin none _ :=
    parseWithin_withoutLimit hdepth
  have hsame' : parse (before ++ (signs' ++ after)) = parseWithin none _ :=
    parseWithin_withoutLimit hdepth'
  rw [hsame, hsame']
  exact sameBut_parseWithin hdue hsigns hsigns' hparity after

/-- The tokens of `2 *`. -/
def factorTokens : List Token := [⟨.number 2, "2", 0⟩, ⟨.operator, "*", 2⟩]

/-- The tokens of `-+--`. -/
def threeMinusTokens : List Token :=
  [⟨.operator, "-", 4⟩, ⟨.operator, "+", 5⟩, ⟨.operator, "-", 6⟩, ⟨.operator, "-", 7⟩]

/-- Three minus signs do what one does, also behind an operator that binds closer. -/
theorem parse_signRun_threeMinus :
    OperandDue factorTokens ∧ (∀ t ∈ threeMinusTokens, t.IsSign) ∧
    (∀ t ∈ [(⟨.operator, "-", 4⟩ : Token)], t.IsSign) ∧
    minusCount threeMinusTokens % 2 = minusCount [⟨.operator, "-", 4⟩] % 2 ∧
    parse (factorTokens ++ (threeMinusTokens ++ [⟨.number 3, "3", 8⟩])) = .ok (.binary .mul
      (.number 2) (.unary .neg (.unary .neg (.unary .neg (.number 3))))) ∧
    parse (factorTokens ++ ([⟨.operator, "-", 4⟩] ++ [⟨.number 3, "3", 8⟩])) =
      .ok (.binary .mul (.number 2) (.unary .neg (.number 3))) ∧
    evaluateExpr (.binary .mul (.number 2) (.unary .neg (.number 3))) =
      evaluateExpr (.binary .mul (.number 2) (.unary .neg (.unary .neg (.unary .neg
        (.number 3))))) := by
  have hdue : OperandDue factorTokens := by decide
  have hsigns : ∀ t ∈ threeMinusTokens, t.IsSign := by simp [threeMinusTokens, Token.isSign_iff]
  have hsigns' : ∀ t ∈ [(⟨.operator, "-", 4⟩ : Token)], t.IsSign := by simp [Token.isSign_iff]
  have hparity : minusCount threeMinusTokens % 2 = minusCount [⟨.operator, "-", 4⟩] % 2 := by decide
  have hparse : parse (factorTokens ++ (threeMinusTokens ++ [⟨.number 3, "3", 8⟩])) =
      .ok (.binary .mul (.number 2) (.unary .neg (.unary .neg (.unary .neg (.number 3))))) := by cbv
  have hparse' : parse (factorTokens ++ ([⟨.operator, "-", 4⟩] ++ [⟨.number 3, "3", 8⟩])) =
      .ok (.binary .mul (.number 2) (.unary .neg (.number 3))) := by cbv
  have hdepth : parse (factorTokens ++ (threeMinusTokens ++ [⟨.number 3, "3", 8⟩])) ≠
      .error .tooDeep := by
    intro hdeep
    rw [hparse] at hdeep
    cases hdeep
  have hdepth' : parse (factorTokens ++ ([⟨.operator, "-", 4⟩] ++ [⟨.number 3, "3", 8⟩])) ≠
      .error .tooDeep := by
    intro hdeep
    rw [hparse'] at hdeep
    cases hdeep
  have hsame := parse_signRun hdue hsigns hsigns' hparity hdepth hdepth'
  rw [hparse, hparse'] at hsame
  cases hsame with
  | value hvalue => exact ⟨hdue, hsigns, hsigns', hparity, hparse, hparse', hvalue⟩

end Calculator
