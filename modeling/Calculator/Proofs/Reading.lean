import Calculator.Expr.Grammar
import Calculator.Expr.Parse

/-!
# The rules of reading

The functions that read expressions call one another, and their results carry a
proof that something was read.  What they do is said here once more, by rules:
one rule for each way in which a stage of reading can end.  Facts about reading
are shown by induction on the rules.

## Main definitions

* `Stage` — what is to be read.
* `Reads limit cost stage tokens outcome` — the rules.

## Main results

* `Reads.unique`, `reads_functions` — the rules describe the functions.
* `Reads.parseWithin_eq` — the reading of all tokens, by the rules.
* `Reads.withoutLimit`, `parseWithin_withoutLimit` — a limit that is not reached
  makes no difference.
-/

namespace Calculator

/-- What is to be read. -/
inductive Stage
  /-- A phrase. -/
  | due (phrase : Phrase)
  /-- What may follow the expression `left` in a chain. -/
  | after (level : Level) (left : Expr)
  deriving DecidableEq, Repr

/-- No operator of the level stands at the front of the tokens. -/
def Level.StopsAt (level : Level) (tokens : List Token) : Prop :=
  ∀ t ∈ tokens.head?, level.operator? t = none

/-- `Reads limit cost stage tokens outcome` says that reading the stage at a given
cost ends with the outcome: a reason to stop, or an expression and the tokens
behind it. -/
inductive Reads (limit : Option Nat) :
    Nat → Stage → List Token → Except Halt (Expr × List Token) → Prop
  -- an operand is due, and the tokens have ended
  | ended {cost : Nat} :
      Reads limit cost (.due .primary) [] (.error (.wrong .unexpectedEnd []))
  -- a number is a primary
  | number {cost : Nat} {t : Token} {rest : List Token} {value : Float}
      (ht : t.kind = .number value) :
      Reads limit cost (.due .primary) (t :: rest) (.ok (.number value, rest))
  -- a closing bracket begins no primary
  | closing {cost : Nat} {t : Token} {rest : List Token} (ht : t.kind = .closeBracket) :
      Reads limit cost (.due .primary) (t :: rest)
        (.error (.wrong (.unexpectedToken t.lexeme) (t :: rest)))
  -- an operator that is no sign begins no primary
  | stray {cost : Nat} {t : Token} {rest : List Token} (ht : t.kind = .operator)
      (hs : Sign.ofLexeme? t.lexeme = none) :
      Reads limit cost (.due .primary) (t :: rest)
        (.error (.wrong (.unexpectedToken t.lexeme) (t :: rest)))
  -- a bracket goes too deep
  | bracketDeep {cost : Nat} {t : Token} {rest : List Token} (ht : t.kind = .openBracket)
      (hd : reaches limit (cost + bracketCost) = true) :
      Reads limit cost (.due .primary) (t :: rest) (.error .tooDeep)
  -- reading stops inside a bracket
  | bracketHalt {cost : Nat} {t : Token} {rest : List Token} {halt : Halt}
      (ht : t.kind = .openBracket) (hd : reaches limit (cost + bracketCost) = false)
      (hi : Reads limit (cost + bracketCost) (.due (.chain .sum)) rest (.error halt)) :
      Reads limit cost (.due .primary) (t :: rest) (.error halt)
  -- a bracket is not closed
  | bracketOpen {cost : Nat} {t : Token} {rest behind : List Token} {e : Expr}
      (ht : t.kind = .openBracket) (hd : reaches limit (cost + bracketCost) = false)
      (hi : Reads limit (cost + bracketCost) (.due (.chain .sum)) rest (.ok (e, behind)))
      (hc : ∀ r ∈ behind.head?, r.kind ≠ .closeBracket) :
      Reads limit cost (.due .primary) (t :: rest) (.error (.wrong .missingBracket behind))
  -- a sum in brackets is a primary
  | bracket {cost : Nat} {t r : Token} {rest behind : List Token} {e : Expr}
      (ht : t.kind = .openBracket) (hd : reaches limit (cost + bracketCost) = false)
      (hi : Reads limit (cost + bracketCost) (.due (.chain .sum)) rest
        (.ok (e, r :: behind)))
      (hr : r.kind = .closeBracket) :
      Reads limit cost (.due .primary) (t :: rest) (.ok (e, behind))
  -- a sign goes too deep
  | signDeep {cost : Nat} {t : Token} {rest : List Token} {s : Sign}
      (ht : t.kind = .operator) (hs : Sign.ofLexeme? t.lexeme = some s)
      (hd : reaches limit (cost + signCost) = true) :
      Reads limit cost (.due .primary) (t :: rest) (.error .tooDeep)
  -- reading stops behind a sign
  | signHalt {cost : Nat} {t : Token} {rest : List Token} {s : Sign} {halt : Halt}
      (ht : t.kind = .operator) (hs : Sign.ofLexeme? t.lexeme = some s)
      (hd : reaches limit (cost + signCost) = false)
      (hi : Reads limit (cost + signCost) (.due .primary) rest (.error halt)) :
      Reads limit cost (.due .primary) (t :: rest) (.error halt)
  -- a primary with a sign in front is a primary
  | signed {cost : Nat} {t : Token} {rest behind : List Token} {s : Sign} {e : Expr}
      (ht : t.kind = .operator) (hs : Sign.ofLexeme? t.lexeme = some s)
      (hd : reaches limit (cost + signCost) = false)
      (hi : Reads limit (cost + signCost) (.due .primary) rest (.ok (e, behind))) :
      Reads limit cost (.due .primary) (t :: rest) (.ok (s.apply e, behind))
  -- reading stops in the first operand of a chain
  | chainHalt {cost : Nat} {level : Level} {tokens : List Token} {halt : Halt}
      (hi : Reads limit cost (.due level.operandPhrase) tokens (.error halt)) :
      Reads limit cost (.due (.chain level)) tokens (.error halt)
  -- a chain begins with an operand
  | chain {cost : Nat} {level : Level} {tokens behind : List Token} {left : Expr}
      {outcome : Except Halt (Expr × List Token)}
      (hi : Reads limit cost (.due level.operandPhrase) tokens (.ok (left, behind)))
      (hf : Reads limit cost (.after level left) behind outcome) :
      Reads limit cost (.due (.chain level)) tokens outcome
  -- a chain ends where no operator goes on with it
  | stop {cost : Nat} {level : Level} {left : Expr} {tokens : List Token}
      (hs : level.StopsAt tokens) :
      Reads limit cost (.after level left) tokens (.ok (left, tokens))
  -- reading stops in a later operand of a chain
  | linkHalt {cost : Nat} {level : Level} {left : Expr} {t : Token} {rest : List Token}
      {op : Operator} {halt : Halt} (ht : level.operator? t = some op)
      (hi : Reads limit cost (.due level.operandPhrase) rest (.error halt)) :
      Reads limit cost (.after level left) (t :: rest) (.error halt)
  -- a chain goes on with an operator and an operand, grouped from the left
  | link {cost : Nat} {level : Level} {left right : Expr} {t : Token}
      {rest behind : List Token} {op : Operator} {outcome : Except Halt (Expr × List Token)}
      (ht : level.operator? t = some op)
      (hi : Reads limit cost (.due level.operandPhrase) rest (.ok (right, behind)))
      (hf : Reads limit cost (.after level (.binary op left right)) behind outcome) :
      Reads limit cost (.after level left) (t :: rest) outcome

/-- A reading without its proof. -/
def Parsed.pair {n : Nat} (p : Parsed n) : Expr × List Token := (p.tree, p.rest)

@[simp] theorem Level.stopsAt_nil (level : Level) : level.StopsAt [] := by
  simp [Level.StopsAt]

@[simp] theorem Level.stopsAt_cons (level : Level) (t : Token) (tokens : List Token) :
    level.StopsAt (t :: tokens) ↔ level.operator? t = none := by
  simp [Level.StopsAt]

/-! ### The rules describe the functions -/

/-- A stage can end in one way only. -/
theorem Reads.unique {limit : Option Nat} {cost : Nat} {stage : Stage} {tokens : List Token}
    {o o' : Except Halt (Expr × List Token)} (h : Reads limit cost stage tokens o)
    (h' : Reads limit cost stage tokens o') : o = o' := by
  -- the token in front admits one rule at most, but for what the parts come to
  induction h generalizing o' with
  | ended => cases h'; rfl
  | number ht => cases h' <;> simp_all
  | closing ht => cases h' <;> simp_all
  | stray ht hs => cases h' <;> simp_all
  | bracketDeep ht hd => cases h' <;> simp_all
  | bracketHalt ht hd hi ih =>
    cases h' with
    | bracketHalt _ _ hi' => exact ih hi'
    | bracketOpen _ _ hi' _ => simpa using ih hi'
    | bracket _ _ hi' _ => simpa using ih hi'
    | _ => simp_all
  | bracketOpen ht hd hi hc ih =>
    cases h' with
    | bracketHalt _ _ hi' => simpa using ih hi'
    | bracketOpen _ _ hi' _ =>
      obtain ⟨_, rfl⟩ : _ ∧ _ := by simpa using ih hi'
      rfl
    | bracket _ _ hi' hr =>
      obtain ⟨_, rfl⟩ : _ ∧ _ := by simpa using ih hi'
      exact absurd hr (hc _ rfl)
    | _ => simp_all
  | bracket ht hd hi hr ih =>
    cases h' with
    | bracketHalt _ _ hi' => simpa using ih hi'
    | bracketOpen _ _ hi' hc =>
      obtain ⟨_, rfl⟩ : _ ∧ _ := by simpa using ih hi'
      exact absurd hr (hc _ rfl)
    | bracket _ _ hi' _ =>
      obtain ⟨rfl, _, rfl⟩ : _ ∧ _ ∧ _ := by simpa using ih hi'
      rfl
    | _ => simp_all
  | signDeep ht hs hd => cases h' <;> simp_all
  | signHalt ht hs hd hi ih =>
    cases h' with
    | signHalt _ _ _ hi' => exact ih hi'
    | signed _ _ _ hi' => simpa using ih hi'
    | _ => simp_all
  | signed ht hs hd hi ih =>
    cases h' with
    | signHalt _ _ _ hi' => simpa using ih hi'
    | signed _ hs' _ hi' =>
      obtain ⟨rfl, rfl⟩ : _ ∧ _ := by simpa using ih hi'
      obtain rfl : _ = _ := by simpa [hs] using hs'
      rfl
    | _ => simp_all
  | chainHalt hi ih =>
    cases h' with
    | chainHalt hi' => exact ih hi'
    | chain hi' _ => simpa using ih hi'
  | chain hi hf ihi ihf =>
    cases h' with
    | chainHalt hi' => simpa using ihi hi'
    | chain hi' hf' =>
      obtain ⟨rfl, rfl⟩ : _ ∧ _ := by simpa using ihi hi'
      exact ihf hf'
  | stop hs => cases h' <;> simp_all
  | linkHalt ht hi ih =>
    cases h' with
    | stop hs => simp_all
    | linkHalt _ hi' => exact ih hi'
    | link _ hi' _ => simpa using ih hi'
  | link ht hi hf ihi ihf =>
    cases h' with
    | stop hs => simp_all
    | linkHalt _ hi' => simpa using ihi hi'
    | link ht' hi' hf' =>
      obtain ⟨rfl, rfl⟩ : _ ∧ _ := by simpa using ihi hi'
      obtain rfl : _ = _ := by simpa [ht] using ht'
      exact ihf hf'

/-- A sum behind an open bracket makes a primary, or an error, of the tokens from
the bracket on. -/
theorem reads_close {limit : Option Nat} {cost : Nat} {t : Token} {rest : List Token}
    (ht : t.kind = .openBracket) (hd : reaches limit (cost + bracketCost) = false)
    {n : Nat} (p : Parsed n)
    (hi : Reads limit (cost + bracketCost) (.due (.chain .sum)) rest (.ok p.pair)) :
    Reads limit cost (.due .primary) (t :: rest) (p.close.map Parsed.pair) := by
  obtain ⟨tree, behind, shorter⟩ := p
  cases behind with
  | nil => exact .bracketOpen ht hd hi (by simp)
  | cons r behind =>
    simp only [Parsed.close]
    split
    · next hr => exact .bracket ht hd hi hr
    · next hr => exact .bracketOpen ht hd hi (by simpa using hr)

/-- The functions read by the rules. -/
theorem reads_functions (limit : Option Nat) :
    (∀ cost tokens, Reads limit cost (.due .primary) tokens
      ((primary limit cost tokens).map Parsed.pair)) ∧
    (∀ cost level tokens, Reads limit cost (.due (.chain level)) tokens
      ((chain limit cost level tokens).map Parsed.pair)) ∧
    (∀ cost level bound left tokens shorter, Reads limit cost (.after level left) tokens
      ((chainFrom limit cost level bound left tokens shorter).map Parsed.pair)) ∧
    (∀ cost level tokens, Reads limit cost (.due level.operandPhrase) tokens
      ((operand limit cost level tokens).map Parsed.pair)) := by
  -- each branch is a rule; the close of a bracket is two, and a chain stops in two branches
  refine primary.mutual_induct limit _ _ _ _ ?ended ?number ?bracketDeep ?bracketHalt
    ?bracketClose ?stray ?signDeep ?signHalt ?signed ?closing ?chainHalt ?chain ?stopAtEnd
    ?stopAtToken ?linkHalt ?link ?operandOfProduct ?operandOfSum
  case ended =>
    intro cost
    rw [primary]
    exact .ended
  case number =>
    intro cost t rest value ht
    rw [primary, ht]
    exact .number ht
  case bracketDeep =>
    intro cost t rest ht hd
    rw [primary, ht]
    simp only [hd, if_true]
    exact .bracketDeep ht hd
  case bracketHalt =>
    intro cost t rest ht hd halt hc ih
    rw [primary, ht]
    simp only [hd, hc] at ih ⊢
    exact .bracketHalt ht (by simpa using hd) ih
  case bracketClose =>
    intro cost t rest ht hd inner hc ih
    rw [primary, ht]
    simp only [hd, hc] at ih ⊢
    exact reads_close ht (by simpa using hd) (inner.weaken _) ih
  case stray =>
    intro cost t rest ht hs
    rw [primary, ht]
    simp only [hs]
    exact .stray ht hs
  case signDeep =>
    intro cost t rest ht s hs hd
    rw [primary, ht]
    simp only [hs, hd, if_true]
    exact .signDeep ht hs hd
  case signHalt =>
    intro cost t rest ht s hs hd halt hp ih
    rw [primary, ht]
    simp only [hs, hd, hp] at ih ⊢
    exact .signHalt ht hs (by simpa using hd) ih
  case signed =>
    intro cost t rest ht s hs hd inner hp ih
    rw [primary, ht]
    simp only [hs, hd, hp] at ih ⊢
    exact .signed ht hs (by simpa using hd) ih
  case closing =>
    intro cost t rest ht
    rw [primary, ht]
    exact .closing ht
  case chainHalt =>
    intro cost level tokens halt ho ih
    rw [chain, ho]
    rw [ho] at ih
    exact .chainHalt ih
  case chain =>
    intro cost level tokens tree rest shorter ho ih ihf
    rw [chain, ho]
    rw [ho] at ih
    exact .chain ih ihf
  case stopAtEnd =>
    intro cost level bound left shorter _
    rw [chainFrom]
    exact .stop (by simp)
  case stopAtToken =>
    intro cost level bound left t rest shorter ht _
    rw [chainFrom]
    simp only [ht]
    exact .stop (by simpa using ht)
  case linkHalt =>
    intro cost level bound left t rest shorter op ht halt ho _ ih
    rw [chainFrom]
    simp only [ht, ho] at ih ⊢
    exact .linkHalt ht ih
  case link =>
    intro cost level bound left t rest shorter op ht tree behind shorter' ho _ ih ihf
    rw [chainFrom]
    simp only [ht, ho] at ih ⊢
    exact .link ht ih ihf
  case operandOfProduct =>
    intro cost tokens ih
    rwa [operand]
  case operandOfSum =>
    intro cost tokens ih
    rwa [operand]

/-! ### Reading all tokens -/

/-- What becomes of all tokens when the reading of a sum among them ends with the
outcome. -/
def finish (tokens : List Token) :
    Except Halt (Expr × List Token) → Except ParseFailure Expr
  | .error .tooDeep => .error .tooDeep
  | .error (.wrong kind rest) => .error (.at tokens kind rest)
  | .ok (tree, []) => .ok tree
  | .ok (_, t :: rest) => .error (.at tokens (.trailingInput t.lexeme) (t :: rest))

theorem finish_eq_ok_iff {tokens : List Token} {o : Except Halt (Expr × List Token)}
    {e : Expr} : finish tokens o = .ok e ↔ o = .ok (e, []) := by
  match o with
  | .error .tooDeep => simp [finish]
  | .error (.wrong kind rest) => simp [finish]
  | .ok (tree, []) => simp [finish]
  | .ok (tree, t :: rest) => simp [finish]

theorem finish_eq_tooDeep_iff {tokens : List Token} {o : Except Halt (Expr × List Token)} :
    finish tokens o = .error .tooDeep ↔ o = .error .tooDeep := by
  match o with
  | .error .tooDeep => simp [finish]
  | .error (.wrong kind rest) => simp [finish, ParseFailure.at]
  | .ok (tree, []) => simp [finish]
  | .ok (tree, t :: rest) => simp [finish, ParseFailure.at]

theorem exists_reads (limit : Option Nat) (tokens : List Token) :
    ∃ o, Reads limit 0 (.due (.chain .sum)) tokens o ∧
      parseWithin limit tokens = finish tokens o := by
  refine ⟨_, (reads_functions limit).2.1 0 .sum tokens, ?_⟩
  rw [parseWithin]
  match chain limit 0 .sum tokens with
  | .error .tooDeep => rfl
  | .error (.wrong kind rest) => rfl
  | .ok ⟨tree, [], shorter⟩ => rfl
  | .ok ⟨tree, t :: rest, shorter⟩ => rfl

theorem Reads.parseWithin_eq {limit : Option Nat} {tokens : List Token}
    {o : Except Halt (Expr × List Token)}
    (h : Reads limit 0 (.due (.chain .sum)) tokens o) :
    parseWithin limit tokens = finish tokens o := by
  obtain ⟨o', h', heq⟩ := exists_reads limit tokens
  rw [heq, h.unique h']

/-- All tokens make an expression when a sum is read and nothing is left. -/
theorem parseWithin_eq_ok_iff {limit : Option Nat} {tokens : List Token} {e : Expr} :
    parseWithin limit tokens = .ok e ↔
      Reads limit 0 (.due (.chain .sum)) tokens (.ok (e, [])) := by
  constructor
  · intro h
    obtain ⟨o, hr, heq⟩ := exists_reads limit tokens
    rw [heq, finish_eq_ok_iff] at h
    exact h ▸ hr
  · intro h
    rw [h.parseWithin_eq, finish]

/-- An error keeps all the tokens. -/
theorem tokens_of_parseWithin {limit : Option Nat} {tokens : List Token} {error : ParseError}
    (h : parseWithin limit tokens = .error (.error error)) : error.tokens = tokens := by
  rw [parseWithin] at h
  split at h <;> cases h <;> rfl

/-! ### Limits that are not reached -/

@[simp] theorem reaches_none (cost : Nat) : reaches none cost = false := rfl

/-- Without a limit nothing is too deep. -/
theorem Reads.ne_tooDeep {cost : Nat} {stage : Stage} {tokens : List Token}
    {o : Except Halt (Expr × List Token)} (h : Reads none cost stage tokens o) :
    o ≠ .error .tooDeep := by
  induction h <;> simp_all

/-- A limit that is not reached makes no difference to reading, and neither does
the cost at which it begins. -/
theorem Reads.withoutLimit {limit : Option Nat} {cost : Nat} {stage : Stage}
    {tokens : List Token} {o : Except Halt (Expr × List Token)}
    (h : Reads limit cost stage tokens o) (ho : o ≠ .error .tooDeep) (cost' : Nat) :
    Reads none cost' stage tokens o := by
  -- only the rules for what is too deep need the limit, and they are ruled out
  induction h generalizing cost' with
  | ended => exact .ended
  | number ht => exact .number ht
  | closing ht => exact .closing ht
  | stray ht hs => exact .stray ht hs
  | bracketDeep ht hd => exact absurd rfl ho
  | bracketHalt ht hd hi ih => exact .bracketHalt ht rfl (ih ho _)
  | bracketOpen ht hd hi hc ih => exact .bracketOpen ht rfl (ih (by simp) _) hc
  | bracket ht hd hi hr ih => exact .bracket ht rfl (ih (by simp) _) hr
  | signDeep ht hs hd => exact absurd rfl ho
  | signHalt ht hs hd hi ih => exact .signHalt ht hs rfl (ih ho _)
  | signed ht hs hd hi ih => exact .signed ht hs rfl (ih (by simp) _)
  | chainHalt hi ih => exact .chainHalt (ih ho _)
  | chain hi hf ihi ihf => exact .chain (ihi (by simp) _) (ihf ho _)
  | stop hs => exact .stop hs
  | linkHalt ht hi ih => exact .linkHalt ht (ih ho _)
  | link ht hi hf ihi ihf => exact .link ht (ihi (by simp) _) (ihf ho _)

/-- A limit that is not reached makes no difference to what all tokens make. -/
theorem parseWithin_withoutLimit {limit : Option Nat} {tokens : List Token}
    (h : parseWithin limit tokens ≠ .error .tooDeep) :
    parseWithin limit tokens = parseWithin none tokens := by
  obtain ⟨o, hr, heq⟩ := exists_reads limit tokens
  rw [heq, ne_eq, finish_eq_tooDeep_iff] at h
  rw [heq, (hr.withoutLimit h 0).parseWithin_eq]

end Calculator
