import Calculator.Expr.Counter
import Calculator.Proofs.Derivation

/-!
# Errors by counting

Reading descends into brackets, signs and chains, and stops somewhere inside; the
count of `firstError` goes over the tokens once.  Both stop at the same token and
for the same reason.  What makes them agree is that a phrase, once read, leaves the
count as it was, and that a chain leaves no operator behind that could go on with
it.

## Main results

* `Reads.endsAt` — where a phrase has been read, nothing goes on with it.
* `Reads.firstError_eq` — reading and counting, stage by stage.
* `parseWithin_none_reports` — reading and counting, for all tokens.
-/

namespace Calculator

/-! ### Where a phrase has been read -/

/-- What is left behind a stage cannot go on with it.  A chain is only asked for if
its last operand had come to an end. -/
def Stage.EndsAt (tokens : List Token) : Stage → List Token → Prop
  | .due phrase, behind => phrase.EndsAt behind
  | .after level _, behind =>
    level.operandPhrase.EndsAt tokens → (Phrase.chain level).EndsAt behind

theorem Phrase.endsAt_chain_iff {level : Level} {tokens : List Token} :
    (Phrase.chain level).EndsAt tokens ↔
      level.operandPhrase.EndsAt tokens ∧ level.StopsAt tokens := by
  cases level with
  | product => exact (true_and _).to_iff.symm
  | sum => exact Iff.rfl

/-- Where a stage has been read, nothing goes on with it. -/
theorem Reads.endsAt {limit : Option Nat} {cost : Nat} {stage : Stage} {tokens : List Token}
    {o : Except Halt (Expr × List Token)} (h : Reads limit cost stage tokens o) :
    ∀ e behind, o = .ok (e, behind) → stage.EndsAt tokens behind := by
  induction h with
  | number ht => exact fun _ _ _ => trivial
  | bracket ht hd hi hr ih => exact fun _ _ _ => trivial
  | signed ht hs hd hi ih => exact fun _ _ _ => trivial
  | chain hi hf ihi ihf =>
    -- the first operand is what the rest of the chain asks to have ended
    intro e behind ho
    exact ihf e behind ho (ihi _ _ rfl)
  | stop hs =>
    rintro e behind ⟨⟩ hoperand
    exact Phrase.endsAt_chain_iff.2 ⟨hoperand, hs⟩
  | link ht hi hf ihi ihf =>
    intro e behind ho _
    exact ihf e behind ho (ihi _ _ rfl)
  | _ => nofun

/-! ### Counting, token by token -/

/-- What the next token may be at a stage. -/
def Stage.expecting : Stage → Expecting
  | .due _ => .operand
  | .after _ _ => .operator

theorem isLink_of_operator? {level : Level} {t : Token} {op : Operator}
    (h : level.operator? t = some op) : isLink t = true := by
  cases level <;> simp [isLink, h]

/-- No operator of either level stands where a sum ends. -/
theorem isLink_eq_false {t : Token} {tokens : List Token}
    (h : (Phrase.chain .sum).EndsAt (t :: tokens)) : isLink t = false := by
  obtain ⟨hproduct, hsum⟩ := h
  rw [Level.stopsAt_cons] at hproduct hsum
  simp [isLink, hproduct, hsum]

theorem firstError_number {t : Token} {value : Float} (ht : t.kind = .number value)
    (depth : Nat) (tokens : List Token) :
    firstError .operand depth (t :: tokens) = firstError .operator depth tokens := by
  simp [firstError, ht]

theorem firstError_open {t : Token} (ht : t.kind = .openBracket) (depth : Nat)
    (tokens : List Token) :
    firstError .operand depth (t :: tokens) = firstError .operand (depth + 1) tokens := by
  simp [firstError, ht]

theorem firstError_sign {t : Token} {s : Sign} (ht : t.kind = .operator)
    (hs : Sign.ofLexeme? t.lexeme = some s) (depth : Nat) (tokens : List Token) :
    firstError .operand depth (t :: tokens) = firstError .operand depth tokens := by
  simp [firstError, ht, hs]

theorem firstError_link {t : Token} (ht : isLink t = true) (depth : Nat)
    (tokens : List Token) :
    firstError .operator depth (t :: tokens) = firstError .operand depth tokens := by
  simp [firstError, ht]

theorem firstError_close {t : Token} (ht : t.kind = .closeBracket) (depth : Nat)
    (tokens : List Token) :
    firstError .operator (depth + 1) (t :: tokens) = firstError .operator depth tokens := by
  have hlink : isLink t = false := by
    simp [isLink, Level.operator?_eq_none (t := t) (by simp [ht])]
  simp [firstError, ht, hlink]

/-- Inside a bracket, a token that neither goes on nor closes it is the first error;
and so is the end. -/
theorem firstError_missing {behind : List Token} (hends : (Phrase.chain .sum).EndsAt behind)
    (hc : ∀ r ∈ behind.head?, r.kind ≠ .closeBracket) (depth : Nat) :
    firstError .operator (depth + 1) behind = some (.missingBracket, behind) := by
  cases behind with
  | nil => simp [firstError, lateError]
  | cons r behind => simp [firstError, lateError, isLink_eq_false hends, hc r rfl]

/-- Outside all brackets, any token that does not go on is the first error. -/
theorem firstError_trailing {t : Token} {behind : List Token}
    (hends : (Phrase.chain .sum).EndsAt (t :: behind)) :
    firstError .operator 0 (t :: behind) = some (.trailingInput t.lexeme, t :: behind) := by
  simp [firstError, lateError, isLink_eq_false hends]

/-! ### Reading and counting -/

/-- What the count finds among tokens that begin at a stage: the error that reading
stops at, or whatever it finds behind the stage. -/
def CountAgrees (depth : Nat) (found : Option (ParseErrorKind × List Token)) :
    Except Halt (Expr × List Token) → Prop
  | .error .tooDeep => True
  | .error (.wrong kind rest) => found = some (kind, rest)
  | .ok (_, behind) => found = firstError .operator depth behind

/-- Reading and counting stop at the same error, stage by stage. -/
theorem Reads.firstError_eq {limit : Option Nat} {cost : Nat} {stage : Stage}
    {tokens : List Token} {o : Except Halt (Expr × List Token)}
    (h : Reads limit cost stage tokens o) :
    ∀ depth, CountAgrees depth (firstError stage.expecting depth tokens) o := by
  induction h with
  | ended => exact fun _ => rfl
  | number ht => exact fun depth => firstError_number ht depth _
  | closing ht =>
    intro depth
    simp [CountAgrees, Stage.expecting, firstError, ht]
  | stray ht hs =>
    intro depth
    simp [CountAgrees, Stage.expecting, firstError, ht, hs]
  | bracketDeep ht hd => exact fun _ => trivial
  | bracketHalt ht hd hi ih =>
    intro depth
    -- inside the bracket one more is open, but an error there is an error here
    have hinner := ih (depth + 1)
    rw [Stage.expecting, firstError_open ht]
    rename_i halt
    cases halt with
    | wrong kind rest => exact hinner
    | tooDeep => trivial
  | @bracketOpen cost t rest behind e ht hd hi hc ih =>
    intro depth
    have hends : (Phrase.chain .sum).EndsAt behind := hi.endsAt e behind rfl
    calc firstError .operand depth (t :: rest)
        = firstError .operand (depth + 1) rest := firstError_open ht depth rest
      _ = firstError .operator (depth + 1) behind := ih (depth + 1)
      _ = some (.missingBracket, behind) := firstError_missing hends hc depth
  | @bracket cost t r rest behind e ht hd hi hr ih =>
    intro depth
    calc firstError .operand depth (t :: rest)
        = firstError .operand (depth + 1) rest := firstError_open ht depth rest
      _ = firstError .operator (depth + 1) (r :: behind) := ih (depth + 1)
      _ = firstError .operator depth behind := firstError_close hr depth behind
  | signDeep ht hs hd => exact fun _ => trivial
  | @signHalt cost t rest s halt ht hs hd hi ih =>
    intro depth
    rw [Stage.expecting, firstError_sign ht hs]
    exact ih depth
  | @signed cost t rest behind s e ht hs hd hi ih =>
    intro depth
    rw [Stage.expecting, firstError_sign ht hs]
    exact ih depth
  | chainHalt hi ih => exact ih
  | @chain cost level tokens behind left outcome hi hf ihi ihf =>
    intro depth
    -- the operand leaves the count as it was, so the chain goes on with it
    have hfirst : firstError .operand depth tokens = firstError .operator depth behind :=
      ihi depth
    rw [Stage.expecting, hfirst]
    exact ihf depth
  | stop hs => exact fun _ => rfl
  | @linkHalt cost level left t rest op halt ht hi ih =>
    intro depth
    rw [Stage.expecting, firstError_link (isLink_of_operator? ht)]
    exact ih depth
  | @link cost level left right t rest behind op outcome ht hi hf ihi ihf =>
    intro depth
    have hright : firstError .operand depth rest = firstError .operator depth behind :=
      ihi depth
    rw [Stage.expecting, firstError_link (isLink_of_operator? ht), hright]
    exact ihf depth

/-- What is made of all tokens, going by the first error among them. -/
def Reports (tokens : List Token) (result : Except ParseFailure Expr) :
    Option (ParseErrorKind × List Token) → Prop
  | none => ∃ e, result = .ok e
  | some (kind, rest) => result = .error (.at tokens kind rest)

/-- Without a limit, all tokens make an expression, or the error that the count
finds. -/
theorem parseWithin_none_reports (tokens : List Token) :
    Reports tokens (parseWithin none tokens) (firstError .operand 0 tokens) := by
  obtain ⟨o, hr, heq⟩ := exists_reads none tokens
  rw [heq]
  match o with
  | .error .tooDeep => exact absurd rfl hr.ne_tooDeep
  | .error (.wrong kind rest) =>
    have hfound : firstError .operand 0 tokens = some (kind, rest) := hr.firstError_eq 0
    rw [hfound]
    rfl
  | .ok (e, []) =>
    have hfound : firstError .operand 0 tokens = none := hr.firstError_eq 0
    rw [hfound]
    exact ⟨e, rfl⟩
  | .ok (e, t :: behind) =>
    have hfound : firstError .operand 0 tokens = firstError .operator 0 (t :: behind) :=
      hr.firstError_eq 0
    rw [hfound, firstError_trailing (hr.endsAt e _ rfl)]
    rfl

end Calculator
