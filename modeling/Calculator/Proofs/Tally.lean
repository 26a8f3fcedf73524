import Calculator.Proofs.ViablePrefix

/-!
# One pass with a flag and a count

Reading descends into brackets, signs and chains, and an error is raised wherever it has
come to.  All of its errors, with their messages and places, are those of a pass from left
to right that has no stack: a flag tells whether an operand is due or complete, and a count
how many brackets are open.

The pass is said here by its steps, in terms of lexemes and messages.  One step is a step
of `firstError`, and so the whole pass finds what reading finds.

## Main definitions

* `Tally`, `Tally.step`, `Tally.close` — the flag and the count, one token, and the end.
* `Tally.run` — the pass.

## Main results

* `Tally.firstError_of_step`, `Tally.firstError_of_step_eq_error` — one step.
* `Tally.run_eq` — the whole pass.
* `parse_agrees_run` — **reading accepts what the pass accepts, and otherwise has its message
  and its place**.
-/

namespace Calculator

/-- What is remembered of the tokens that have been passed. -/
structure Tally where
  /-- Whether an operand is due or complete. -/
  expecting : Expecting
  /-- How many brackets are open. -/
  depth : Nat
  deriving DecidableEq, Repr

/-- Where a pass stops, and why. -/
structure Objection where
  /-- The message. -/
  message : String
  /-- The index of the token that is objected to; the number of tokens at their end. -/
  index : Nat
  deriving DecidableEq, Repr

namespace Tally

/-- Nothing has been passed: an operand is due, and no bracket is open. -/
def start : Tally := ⟨.operand, 0⟩

/-- The message about a token where an operand is due. -/
def dueMessage (t : Token) : String := "Unexpected token: " ++ quoted t.lexeme

/-- The message about a token where an operand is complete. -/
def completeMessage (depth : Nat) (t : Token) : String :=
  if 0 < depth then "Missing closing parenthesis"
  else "Unexpected trailing input: " ++ quoted t.lexeme

/-- One token. -/
def step (s : Tally) (t : Token) : Except String Tally :=
  match s.expecting, t.kind with
  | .operand, .number _ => .ok ⟨.operator, s.depth⟩
  | .operand, .openBracket => .ok ⟨.operand, s.depth + 1⟩
  | .operand, .operator =>
    if t.lexeme ∈ ["+", "-"] then .ok ⟨.operand, s.depth⟩ else .error (dueMessage t)
  | .operand, .closeBracket => .error (dueMessage t)
  | .operator, .operator =>
    if t.lexeme ∈ ["+", "-", "*", "/"] then .ok ⟨.operand, s.depth⟩
    else .error (completeMessage s.depth t)
  | .operator, .closeBracket =>
    if 0 < s.depth then .ok ⟨.operator, s.depth - 1⟩ else .error (completeMessage s.depth t)
  | .operator, _ => .error (completeMessage s.depth t)

/-- The end of the tokens. -/
def close (s : Tally) : Except String Unit :=
  match s.expecting with
  | .operand => .error "Unexpected end of expression"
  | .operator => if 0 < s.depth then .error "Missing closing parenthesis" else .ok ()

/-- The pass over tokens, the first of which has the given index. -/
def run (s : Tally) (index : Nat) : List Token → Except Objection Unit
  | [] => s.close.mapError (⟨·, index⟩)
  | t :: tokens =>
    match s.step t with
    | .error message => .error ⟨message, index⟩
    | .ok s' => s'.run (index + 1) tokens

end Tally

/-! ### Signs and links by their lexemes -/

theorem isSome_ofLexeme?_iff (lexeme : String) :
    (Sign.ofLexeme? lexeme).isSome = true ↔ lexeme ∈ ["+", "-"] := by
  by_cases hminus : lexeme = "-"
  · simp [Sign.ofLexeme?, hminus]
  · by_cases hplus : lexeme = "+" <;> simp [Sign.ofLexeme?, hminus, hplus]

theorem isLink_iff {t : Token} (ht : t.kind = .operator) :
    isLink t = true ↔ t.lexeme ∈ ["+", "-", "*", "/"] := by
  rw [isLink, Level.operator?_of_kind ht, Level.operator?_of_kind ht, Level.ofLexeme?,
    Level.ofLexeme?]
  grind

theorem isLink_of_kind_ne {t : Token} (ht : t.kind ≠ .operator) : isLink t = false := by
  rw [isLink, Level.operator?_eq_none ht, Level.operator?_eq_none ht]
  rfl

namespace Tally

variable {s s' : Tally} {t : Token} {message : String}

/-! ### One step -/

/-- The count of errors goes on where the pass goes on. -/
theorem firstError_of_step (h : s.step t = .ok s') (tokens : List Token) :
    firstError s.expecting s.depth (t :: tokens) = firstError s'.expecting s'.depth tokens := by
  obtain ⟨expecting, depth⟩ := s
  cases expecting with
  | operand =>
    cases ht : t.kind with
    | number value =>
      simp only [step, ht, Except.ok.injEq] at h
      rw [firstError_number ht, ← h]
    | openBracket =>
      simp only [step, ht, Except.ok.injEq] at h
      rw [firstError_open ht, ← h]
    | closeBracket => simp [step, ht] at h
    | operator =>
      by_cases hlexeme : t.lexeme ∈ ["+", "-"]
      · obtain ⟨sign, hsign⟩ := Option.isSome_iff_exists.1 ((isSome_ofLexeme?_iff _).2 hlexeme)
        simp only [step, ht, if_pos hlexeme, Except.ok.injEq] at h
        rw [firstError_sign ht hsign, ← h]
      · simp only [step, ht, if_neg hlexeme, reduceCtorEq] at h
  | operator =>
    cases ht : t.kind with
    | number value => simp [step, ht] at h
    | openBracket => simp [step, ht] at h
    | closeBracket =>
      cases depth with
      | zero => simp [step, ht] at h
      | succ depth =>
        simp only [step, ht, Nat.succ_pos, if_true, Except.ok.injEq] at h
        rw [firstError_close ht, ← h]
        rfl
    | operator =>
      by_cases hlexeme : t.lexeme ∈ ["+", "-", "*", "/"]
      · simp only [step, ht, if_pos hlexeme, Except.ok.injEq] at h
        rw [firstError_link ((isLink_iff ht).2 hlexeme), ← h]
      · simp only [step, ht, if_neg hlexeme, reduceCtorEq] at h

/-- The message where nothing can go on with a complete operand. -/
theorem message_late (depth : Nat) (t : Token) :
    (if depth = 0 then ParseErrorKind.trailingInput t.lexeme else .missingBracket).message =
      completeMessage depth t := by
  cases depth <;> rfl

/-- The count of errors ends where the pass ends, with the same message. -/
theorem firstError_of_step_eq_error (h : s.step t = .error message) :
    ∃ kind : ParseErrorKind, kind.message = message ∧
      ∀ tokens, firstError s.expecting s.depth (t :: tokens) = some (kind, t :: tokens) := by
  obtain ⟨expecting, depth⟩ := s
  cases expecting with
  | operand =>
    refine ⟨.unexpectedToken t.lexeme, ?_⟩
    cases ht : t.kind with
    | number value => simp [step, ht] at h
    | openBracket => simp [step, ht] at h
    | closeBracket =>
      simp only [step, ht, Except.error.injEq] at h
      exact ⟨h, by simp [firstError, ht]⟩
    | operator =>
      by_cases hlexeme : t.lexeme ∈ ["+", "-"]
      · simp only [step, ht, if_pos hlexeme, reduceCtorEq] at h
      · have hsign : ¬ (Sign.ofLexeme? t.lexeme).isSome = true := by
          rwa [isSome_ofLexeme?_iff]
        simp only [step, ht, if_neg hlexeme, Except.error.injEq] at h
        exact ⟨h, by simp [firstError, ht, hsign]⟩
  | operator =>
    -- whatever the token, it is no link and closes no bracket
    have hstuck : completeMessage depth t = message ∧ isLink t = false ∧
        ¬ (t.kind = .closeBracket ∧ 0 < depth) := by
      cases ht : t.kind with
      | number value =>
        simp only [step, ht, Except.error.injEq] at h
        exact ⟨h, isLink_of_kind_ne (by simp [ht]), by simp⟩
      | openBracket =>
        simp only [step, ht, Except.error.injEq] at h
        exact ⟨h, isLink_of_kind_ne (by simp [ht]), by simp⟩
      | closeBracket =>
        by_cases hdepth : 0 < depth
        · simp [step, ht, hdepth] at h
        · simp only [step, ht, if_neg hdepth, Except.error.injEq] at h
          exact ⟨h, isLink_of_kind_ne (by simp [ht]), by simp [hdepth]⟩
      | operator =>
        by_cases hlexeme : t.lexeme ∈ ["+", "-", "*", "/"]
        · simp only [step, ht, if_pos hlexeme, reduceCtorEq] at h
        · simp only [step, ht, if_neg hlexeme, Except.error.injEq] at h
          rw [← isLink_iff ht, Bool.not_eq_true] at hlexeme
          exact ⟨h, hlexeme, by simp⟩
    obtain ⟨hmessage, hlink, hclose⟩ := hstuck
    exact ⟨_, (message_late depth t).trans hmessage, by simp [firstError, lateError, hlink, hclose]⟩

/-- The end of the tokens. -/
theorem close_eq (s : Tally) (index : Nat) :
    s.close.mapError (Objection.mk · index) =
      match firstError s.expecting s.depth [] with
      | none => .ok ()
      | some (kind, _) => .error ⟨kind.message, index⟩ := by
  obtain ⟨expecting, depth⟩ := s
  cases expecting with
  | operand => rfl
  | operator => cases depth <;> rfl

/-! ### The whole pass -/

/-- The pass finds the first error of the count, and where it lies. -/
theorem run_eq (s : Tally) (index : Nat) (tokens : List Token) :
    s.run index tokens =
      match firstError s.expecting s.depth tokens with
      | none => .ok ()
      | some (kind, rest) => .error ⟨kind.message, index + (tokens.length - rest.length)⟩ := by
  induction tokens generalizing s index with
  | nil =>
    rw [run, close_eq]
    cases hfound : firstError s.expecting s.depth [] with
    | none => rfl
    | some found =>
      simp
  | cons t tokens ih =>
    cases hstep : s.step t with
    | error message =>
      obtain ⟨kind, rfl, hfound⟩ := firstError_of_step_eq_error hstep
      simp [run, hstep, hfound]
    | ok s' =>
      rw [firstError_of_step hstep]
      simp only [run, hstep, ih]
      cases hfound : firstError s'.expecting s'.depth tokens with
      | none => rfl
      | some found =>
        -- the error lies among the tokens that follow
        obtain ⟨kind, rest⟩ := found
        obtain ⟨front, rfl, -⟩ := firstError_split tokens _ _ kind rest hfound
        simp only [List.length_cons, List.length_append, Except.error.injEq, Objection.mk.injEq,
          true_and]
        omega

end Tally

/-- **Reading finds what one pass with a flag and a count finds.**  Tokens that are not
nested too deeply make an expression exactly when the pass accepts them; otherwise reading
fails with the message and at the token of the pass. -/
theorem parse_agrees_run {tokens : List Token} (hdepth : parse tokens ≠ .error .tooDeep) :
    ((∃ e, parse tokens = .ok e) ↔ Tally.start.run 0 tokens = .ok ()) ∧
    (∀ message index, (∃ error, parse tokens = .error (.error error) ∧
        error.message = message ∧ error.index = index) ↔
      Tally.start.run 0 tokens = .error ⟨message, index⟩) := by
  have hsame : parse tokens = parseWithin none tokens := parseWithin_withoutLimit hdepth
  have hreports := parseWithin_none_reports tokens
  have hrun := Tally.start.run_eq 0 tokens
  rw [← hsame] at hreports
  change Tally.start.run 0 tokens = match firstError .operand 0 tokens with
    | none => .ok ()
    | some (kind, rest) => .error ⟨kind.message, 0 + (tokens.length - rest.length)⟩ at hrun
  cases hfound : firstError .operand 0 tokens with
  | none =>
    rw [hfound] at hreports hrun
    obtain ⟨e, he⟩ := hreports
    simp [hrun, he]
  | some found =>
    obtain ⟨kind, rest⟩ := found
    rw [hfound] at hreports hrun
    have herror : parse tokens = .error (.at tokens kind rest) := hreports
    simp only [Nat.zero_add] at hrun
    simp [hrun, herror, ParseFailure.at, ParseError.message]

/-- The tokens of `-(2))`. -/
def surplusBracketTokens : List Token :=
  [⟨.operator, "-", 0⟩, ⟨.openBracket, "(", 1⟩, ⟨.number 2, "2", 2⟩, ⟨.closeBracket, ")", 3⟩,
    ⟨.closeBracket, ")", 4⟩]

theorem parse_agrees_run_surplusBracketTokens :
    parse surplusBracketTokens ≠ .error .tooDeep ∧
    Tally.start.run 0 surplusBracketTokens = .error ⟨"Unexpected trailing input: ')'", 4⟩ ∧
    ∃ error, parse surplusBracketTokens = .error (.error error) ∧
      error.message = "Unexpected trailing input: ')'" ∧ error.index = 4 := by
  have hdepth : parse surplusBracketTokens ≠ .error .tooDeep := by
    have herror : parse surplusBracketTokens =
        .error (.error ⟨surplusBracketTokens, .trailingInput ")", 4⟩) := by cbv
    simp [herror]
  have hquoted : quoted ")" = "')'" := by decide +kernel
  have hrun : Tally.start.run 0 surplusBracketTokens =
      .error ⟨"Unexpected trailing input: ')'", 4⟩ := by
    change Except.error (Objection.mk ("Unexpected trailing input: " ++ quoted ")") 4) = _
    rw [hquoted]
    rfl
  exact ⟨hdepth, hrun, ((parse_agrees_run hdepth).2 _ _).2 hrun⟩

end Calculator
