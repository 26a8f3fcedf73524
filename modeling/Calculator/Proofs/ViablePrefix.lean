import Calculator.Proofs.FirstError

/-!
# Errors are found at the earliest place

Where reading stops, the tokens before could still have become an expression, and
with the token at that place nothing can come of them any more.  Both are seen on
the count: from any of its states the tokens can be completed, by a number if an
operand is due and a bracket for each one that is open; and an error at a token is
found whatever follows the token.

## Main definitions

* `completion expecting depth` — tokens that complete what has been read.

## Main results

* `firstError_completion` — they do.
* `firstError_split` — the tokens before the first error, and the token at it.
* `parse_error_earliest` — errors are found at the earliest place.
-/

namespace Calculator

/-- Brackets that close `depth` open ones. -/
def closers (depth : Nat) : List Token := List.replicate depth ⟨.closeBracket, ")", 0⟩

/-- Tokens that complete what has been read. -/
def completion : Expecting → Nat → List Token
  | .operand, depth => ⟨.number 0, "0", 0⟩ :: closers depth
  | .operator, depth => closers depth

theorem firstError_closers (depth : Nat) : firstError .operator depth (closers depth) = none := by
  induction depth with
  | zero => rfl
  | succ depth ih =>
    rw [closers, List.replicate_succ, firstError_close rfl]
    exact ih

/-- From every state of the count, the tokens can be completed. -/
theorem firstError_completion (expecting : Expecting) (depth : Nat) :
    firstError expecting depth (completion expecting depth) = none := by
  cases expecting with
  | operand =>
    rw [completion, firstError_number rfl]
    exact firstError_closers depth
  | operator => exact firstError_closers depth

/-- One step of the count: it goes on behind the token, in a state that depends on
the token alone, or it ends there, whatever follows. -/
theorem firstError_step (expecting : Expecting) (depth : Nat) (t : Token) :
    (∃ expecting' depth', ∀ tokens,
      firstError expecting depth (t :: tokens) = firstError expecting' depth' tokens) ∨
    (∃ kind, ∀ tokens,
      firstError expecting depth (t :: tokens) = some (kind, t :: tokens)) := by
  cases expecting with
  | operand =>
    cases ht : t.kind with
    | number value => exact Or.inl ⟨_, _, firstError_number ht depth⟩
    | openBracket => exact Or.inl ⟨_, _, firstError_open ht depth⟩
    | closeBracket => exact Or.inr ⟨.unexpectedToken t.lexeme, by simp [firstError, ht]⟩
    | operator =>
      cases hs : Sign.ofLexeme? t.lexeme with
      | some s => exact Or.inl ⟨_, _, firstError_sign ht hs depth⟩
      | none => exact Or.inr ⟨.unexpectedToken t.lexeme, by simp [firstError, ht, hs]⟩
  | operator =>
    by_cases hlink : isLink t = true
    · exact Or.inl ⟨_, _, firstError_link hlink depth⟩
    · by_cases hclose : t.kind = .closeBracket ∧ 0 < depth
      · obtain ⟨ht, hdepth⟩ := hclose
        obtain ⟨depth, rfl⟩ := Nat.exists_eq_add_one_of_ne_zero (Nat.ne_of_gt hdepth)
        exact Or.inl ⟨_, _, firstError_close ht depth⟩
      · exact Or.inr ⟨if depth = 0 then .trailingInput t.lexeme else .missingBracket,
          by simp [firstError, lateError, hlink, hclose]⟩

/-- What is known of tokens whose first error lies at `rest`: those before can be
completed, and the one at that place is an error whatever follows it. -/
structure SplitsAt (expecting : Expecting) (depth : Nat) (front rest : List Token) : Prop where
  /-- The tokens before the error can be completed. -/
  viable : ∃ more, firstError expecting depth (front ++ more) = none
  /-- With the token at the error they cannot. -/
  fatal : ∀ t ∈ rest.head?, ∀ more, firstError expecting depth (front ++ t :: more) ≠ none

theorem SplitsAt.nil {expecting : Expecting} {depth : Nat} {rest : List Token}
    (h : ∀ t ∈ rest.head?, ∀ more, firstError expecting depth (t :: more) ≠ none) :
    SplitsAt expecting depth [] rest where
  viable := ⟨completion expecting depth, firstError_completion expecting depth⟩
  fatal := h

theorem SplitsAt.cons {expecting expecting' : Expecting} {depth depth' : Nat}
    {front rest : List Token} {t : Token}
    (hstep : ∀ tokens, firstError expecting depth (t :: tokens) =
      firstError expecting' depth' tokens)
    (h : SplitsAt expecting' depth' front rest) :
    SplitsAt expecting depth (t :: front) rest where
  viable := by
    obtain ⟨more, hmore⟩ := h.viable
    exact ⟨more, (hstep _).trans hmore⟩
  fatal := fun r hr more => by
    rw [List.cons_append, hstep]
    exact h.fatal r hr more

theorem firstError_nil_rest {expecting : Expecting} {depth : Nat} {kind : ParseErrorKind}
    {rest : List Token} (h : firstError expecting depth [] = some (kind, rest)) :
    rest = [] := by
  cases expecting with
  | operand => simp_all [firstError]
  | operator => cases depth <;> simp_all [firstError, lateError]

/-- Tokens split at their first error. -/
theorem firstError_split : ∀ (tokens : List Token) (expecting : Expecting) (depth : Nat)
    (kind : ParseErrorKind) (rest : List Token),
    firstError expecting depth tokens = some (kind, rest) →
      ∃ front, tokens = front ++ rest ∧ SplitsAt expecting depth front rest := by
  intro tokens
  -- the state of the count changes from token to token, so it is not fixed
  induction tokens with
  | nil =>
    intro expecting depth kind rest h
    obtain rfl := firstError_nil_rest h
    exact ⟨[], rfl, .nil (by simp)⟩
  | cons t tokens ih =>
    intro expecting depth kind rest h
    rcases firstError_step expecting depth t with ⟨expecting', depth', hstep⟩ | ⟨kind', hstop⟩
    · rw [hstep] at h
      obtain ⟨front, htokens, hsplit⟩ := ih expecting' depth' kind rest h
      exact ⟨t :: front, by simp [htokens], .cons hstep hsplit⟩
    · rw [hstop] at h
      obtain ⟨-, rfl⟩ : _ ∧ _ := by simpa using h
      exact ⟨[], rfl, .nil (by simp [hstop])⟩

/-! ### The place of an error -/

/-- Tokens are derived exactly when there is no first error among them. -/
theorem firstError_eq_none_iff {tokens : List Token} :
    firstError .operand 0 tokens = none ↔ ∃ e, Derives (.chain .sum) tokens e := by
  have hreports := parseWithin_none_reports tokens
  simp only [← parseWithin_none_eq_ok_iff]
  cases hfound : firstError .operand 0 tokens with
  | none =>
    rw [hfound] at hreports
    exact iff_of_true rfl hreports
  | some found =>
    rw [hfound] at hreports
    have herror : parseWithin none tokens = .error (.at tokens found.1 found.2) := hreports
    simp [herror]

/-- An error of reading is the first error of the count. -/
theorem firstError_of_parse {tokens : List Token} {error : ParseError}
    (h : parse tokens = .error (.error error)) :
    ∃ rest, firstError .operand 0 tokens = some (error.kind, rest) ∧
      error.index = tokens.length - rest.length := by
  have hsame : parse tokens = parseWithin none tokens :=
    @parseWithin_withoutLimit (some nestingLimit) tokens fun hdeep => by
      rw [parse, hdeep] at h
      cases h
  have hreports := parseWithin_none_reports tokens
  rw [← hsame, h] at hreports
  cases hfound : firstError .operand 0 tokens with
  | none =>
    rw [hfound] at hreports
    obtain ⟨e, he⟩ := hreports
    cases he
  | some found =>
    rw [hfound] at hreports
    obtain ⟨kind, rest⟩ := found
    have herror : error = ⟨tokens, kind, tokens.length - rest.length⟩ := by
      simpa [Reports, ParseFailure.at] using hreports
    exact ⟨rest, by rw [herror], by rw [herror]⟩

/-- **Errors are found at the earliest place.**  The tokens before an error can be
extended to an expression, and together with the token at the error they cannot; an
error at the end means that the tokens are no expression but can still become one. -/
theorem parse_error_earliest {tokens : List Token} {error : ParseError}
    (h : parse tokens = .error (.error error)) :
    error.index ≤ tokens.length ∧
    (∃ more e, parseWithin none (tokens.take error.index ++ more) = .ok e) ∧
    (error.index < tokens.length →
      ∀ more e, ¬ Derives (.chain .sum) (tokens.take (error.index + 1) ++ more) e) ∧
    (error.index = tokens.length →
      (∀ e, ¬ Derives (.chain .sum) tokens e) ∧
        ∃ more e, Derives (.chain .sum) (tokens ++ more) e) := by
  obtain ⟨rest, hfound, hindex⟩ := firstError_of_parse h
  obtain ⟨front, htokens, hsplit⟩ := firstError_split tokens .operand 0 _ rest hfound
  have hfront : error.index = front.length := by
    rw [hindex, htokens]
    simp
  obtain ⟨more, hmore⟩ := hsplit.viable
  obtain ⟨e, he⟩ := firstError_eq_none_iff.1 hmore
  have hnone : ∀ e, ¬ Derives (.chain .sum) tokens e := by
    intro e he
    simp [firstError_eq_none_iff.2 ⟨e, he⟩] at hfound
  refine ⟨by omega, ⟨more, e, ?_⟩, ?_, ?_⟩
  · rw [parseWithin_none_eq_ok_iff, hfront, htokens, List.take_left]
    exact he
  · intro hlt more' e' he'
    -- there is a token at the error, and it is fatal
    cases rest with
    | nil => simp [hfront, htokens] at hlt
    | cons t rest =>
      have htake : tokens.take (error.index + 1) = front ++ [t] := by
        rw [hfront, htokens, List.take_length_add_append]
        rfl
      rw [htake, List.append_assoc] at he'
      exact hsplit.fatal t rfl more' (firstError_eq_none_iff.2 ⟨e', he'⟩)
  · intro hend
    refine ⟨hnone, more, e, ?_⟩
    have hrest : rest = [] := by
      rw [hend, htokens, List.length_append] at hfront
      exact List.length_eq_zero_iff.1 (by omega)
    rw [htokens, hrest, List.append_nil]
    exact he

/-- The tokens of `(1 2`. -/
def unlinkedTokens : List Token :=
  [⟨.openBracket, "(", 0⟩, ⟨.number 1, "1", 1⟩, ⟨.number 2, "2", 3⟩]

theorem parse_error_unlinkedTokens :
    parse unlinkedTokens = .error (.error ⟨unlinkedTokens, .missingBracket, 2⟩) ∧
    (∃ more e, parseWithin none (unlinkedTokens.take 2 ++ more) = .ok e) ∧
    ∀ more e, ¬ Derives (.chain .sum) (unlinkedTokens ++ more) e := by
  have herror : parse unlinkedTokens =
      .error (.error ⟨unlinkedTokens, .missingBracket, 2⟩) := by cbv
  obtain ⟨-, hviable, hfatal, -⟩ := parse_error_earliest herror
  exact ⟨herror, hviable, hfatal (by decide)⟩

end Calculator
