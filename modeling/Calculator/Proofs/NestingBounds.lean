import Calculator.Proofs.Nesting

/-!
# Tokens that are nested too deeply

Brackets and signs are all that the limit of nesting is about.  How much is open behind
some tokens is bounded by how many brackets are open and how many signs stand in a row,
both of which can be seen on the tokens; how many operators there are does not matter.

## Main definitions

* `Token.IsSign`, `countKind` — what is seen on tokens.
* `NestsWithin depth run tokens` — bounds on open brackets and on signs in a row.
* `Progress.Bounded` — what the bounds say about what is open.

## Main results

* `Progress.Bounded.step`, `Progress.Bounded.after` — one token, and all of them.
* `NestsWithin.parse_ne_tooDeep` — tokens within narrow bounds are not too deep.
* `parse_eq_tooDeep_of_brackets` — enough brackets are, whatever follows.
* `parse_eq_tooDeep_iff` — **when tokens are nested too deeply, and that the limit makes no
  difference to others**.
-/

namespace Calculator

/-- The lexeme of the token is that of a sign, whether or not it is one at its place. -/
def Token.IsSign (t : Token) : Prop :=
  t.kind = .operator ∧ ∃ s, Sign.ofLexeme? t.lexeme = some s

/-- How many of the tokens are of a kind. -/
def countKind (kind : Kind) (tokens : List Token) : Nat :=
  tokens.countP fun t => decide (t.kind = kind)

/-- Nowhere are more than `depth` brackets open, and nowhere do more than `run` signs stand
in a row. -/
structure NestsWithin (depth run : Nat) (tokens : List Token) : Prop where
  /-- Behind any of the tokens, few brackets are open. -/
  brackets : ∀ k, countKind .openBracket (tokens.take k) ≤
    countKind .closeBracket (tokens.take k) + depth
  /-- Few signs stand in a row. -/
  signs : ∀ row, row <:+: tokens → (∀ t ∈ row, t.IsSign) → row.length ≤ run

/-- How many signs are open inside of the innermost bracket. -/
def topSigns : List Opener → Nat
  | .sign :: opened => topSigns opened + 1
  | _ => 0

/-- Between brackets that are open, no more than `run` signs are. -/
def SignsWithin (run : Nat) : List Opener → Prop
  | [] => True
  | .bracket :: opened => topSigns opened ≤ run ∧ SignsWithin run opened
  | .sign :: opened => SignsWithin run opened

/-! ### What is open -/

theorem topSigns_settle (opened : List Opener) : topSigns (settle opened) = 0 := by
  induction opened with
  | nil => rfl
  | cons o opened ih =>
    cases o with
    | bracket => rfl
    | sign => exact ih

theorem SignsWithin.settle {run : Nat} {opened : List Opener} (h : SignsWithin run opened) :
    SignsWithin run (settle opened) := by
  induction opened with
  | nil => trivial
  | cons o opened ih =>
    cases o with
    | bracket => exact h
    | sign => exact ih h

/-- The cost of what is open, by the number of brackets. -/
theorem SignsWithin.openCost_le {run : Nat} {opened : List Opener} (h : SignsWithin run opened) :
    openCost opened ≤ bracketCost * opened.count .bracket +
      signCost * (run * opened.count .bracket + topSigns opened) := by
  induction opened with
  | nil => exact Nat.zero_le _
  | cons o opened ih =>
    cases o with
    | bracket =>
      obtain ⟨htop, h⟩ := h
      have hrest := ih h
      rw [openCost_cons, List.count_cons_self, Nat.mul_succ, Nat.mul_succ]
      simp only [bracketCost, signCost, Opener.cost, topSigns] at hrest ⊢
      omega
    | sign =>
      have hrest := ih h
      rw [openCost_cons, List.count_cons_of_ne (by decide)]
      simp only [bracketCost, signCost, Opener.cost, topSigns] at hrest ⊢
      omega

/-! ### What is seen on tokens -/

theorem countKind_append (kind : Kind) (front tokens : List Token) :
    countKind kind (front ++ tokens) = countKind kind front + countKind kind tokens :=
  List.countP_append

theorem countKind_of_eq {kind : Kind} {t : Token} (h : t.kind = kind) : countKind kind [t] = 1 := by
  simp [countKind, h]

theorem countKind_of_ne {kind : Kind} {t : Token} (h : t.kind ≠ kind) : countKind kind [t] = 0 := by
  simp [countKind, h]

namespace Progress

/-- What bounds on the tokens that have been read, `seen`, say about what is open. -/
structure Bounded (run : Nat) (seen : List Token) (s : Progress) : Prop where
  /-- The brackets that are open are those that are not closed. -/
  balance : s.depth + countKind .closeBracket seen = countKind .openBracket seen
  /-- The signs that are open last stand in a row. -/
  top : ∃ row, row <:+ seen ∧ (∀ t ∈ row, t.IsSign) ∧ topSigns s.opened = row.length
  /-- The others are few as well. -/
  within : SignsWithin run s.opened
  /-- Where an operand is complete, so are the signs before it. -/
  settled : s.expecting = .operator → topSigns s.opened = 0

variable {run : Nat} {s : Progress} {t : Token} {seen front : List Token}

theorem bounded_start (run : Nat) : Bounded run [] start where
  balance := rfl
  top := ⟨[], List.suffix_rfl, List.forall_mem_nil _, rfl⟩
  within := trivial
  settled := fun _ => rfl

/-- One token. -/
theorem Bounded.step (h : s.Bounded run seen) (ht : s.Admits t)
    (hrow : ∀ row, row <:+ seen → (∀ t ∈ row, t.IsSign) → row.length ≤ run) :
    (s.step t).Bounded run (seen ++ [t]) := by
  have hbalance := h.balance
  obtain ⟨row, hsuffix, hsigns, htop⟩ := h.top
  cases ht with
  | @number t opened value ht =>
    rw [step_number ht]
    refine ⟨?_, ⟨[], List.nil_suffix, List.forall_mem_nil _, topSigns_settle opened⟩,
      h.within.settle, fun _ => topSigns_settle opened⟩
    rw [depth, count_settle, countKind_append, countKind_append, countKind_of_ne (by simp [ht]),
      countKind_of_ne (by simp [ht])]
    exact hbalance
  | @openBracket t opened ht =>
    -- the signs in front of the bracket stand in a row
    have hlast : topSigns opened ≤ run := htop ▸ hrow row hsuffix hsigns
    rw [step_open ht]
    refine ⟨?_, ⟨[], List.nil_suffix, List.forall_mem_nil _, rfl⟩, ⟨hlast, h.within⟩,
      Expecting.noConfusion⟩
    have hcount : opened.count .bracket + countKind .closeBracket seen =
      countKind .openBracket seen := hbalance
    rw [depth, List.count_cons_self, countKind_append, countKind_append, countKind_of_eq ht,
      countKind_of_ne (by simp [ht]), ← hcount]
    omega
  | @sign t opened s ht hs =>
    rw [step_sign ht]
    refine ⟨?_, ⟨row ++ [t], ?_, ?_, ?_⟩, h.within, Expecting.noConfusion⟩
    · rw [depth, List.count_cons_of_ne (by decide), countKind_append, countKind_append,
        countKind_of_ne (by simp [ht]), countKind_of_ne (by simp [ht])]
      exact hbalance
    · obtain ⟨before, rfl⟩ := hsuffix
      exact ⟨before, (List.append_assoc ..).symm⟩
    · intro a ha
      rcases List.mem_append.1 ha with ha | ha
      · exact hsigns a ha
      · rw [List.mem_singleton.1 ha]
        exact ⟨ht, s, hs⟩
    · rw [List.length_append, ← htop]
      rfl
  | @link t opened ht =>
    have hkind := kind_of_isLink ht
    rw [step_link ht]
    refine ⟨?_, ⟨[], List.nil_suffix, List.forall_mem_nil _, h.settled rfl⟩, h.within,
      Expecting.noConfusion⟩
    rw [countKind_append, countKind_append, countKind_of_ne (by simp [hkind]),
      countKind_of_ne (by simp [hkind])]
    exact hbalance
  | @closeBracket t opened ht =>
    rw [step_close ht]
    refine ⟨?_, ⟨[], List.nil_suffix, List.forall_mem_nil _, topSigns_settle opened⟩,
      h.within.2.settle, fun _ => topSigns_settle opened⟩
    rw [depth, List.count_cons_self] at hbalance
    rw [depth, count_settle, countKind_append, countKind_append, countKind_of_eq ht,
      countKind_of_ne (by simp [ht]), ← hbalance]
    omega

/-- All tokens. -/
theorem Bounded.after (h : s.Bounded run seen) (hpasses : s.Passes front)
    (hrow : ∀ row, row <:+: seen ++ front → (∀ t ∈ row, t.IsSign) → row.length ≤ run) :
    (s.after front).Bounded run (seen ++ front) := by
  induction front generalizing s seen with
  | nil =>
    rw [List.append_nil]
    exact h
  | cons t front ih =>
    obtain ⟨ht, hpasses⟩ := hpasses
    have hsplit : seen ++ t :: front = (seen ++ [t]) ++ front := by simp
    rw [hsplit] at hrow ⊢
    apply ih (h.step ht ?_) hpasses hrow
    intro row hsuffix
    apply hrow row
    exact hsuffix.isInfix.trans ⟨[], [t] ++ front, by simp⟩

end Progress

/-- Tokens within narrow bounds are not too deep, however many operators they have. -/
theorem NestsWithin.parse_ne_tooDeep {depth run : Nat} {tokens : List Token}
    (h : NestsWithin depth run tokens)
    (hlimit : bracketCost * depth + signCost * (run * (depth + 1)) < nestingLimit) :
    parse tokens ≠ .error .tooDeep := by
  intro hdeep
  obtain ⟨front, rest, rfl, hpasses, hcost⟩ := exists_deep (by decide) hdeep
  have hrow : ∀ row, row <:+: [] ++ front → (∀ t ∈ row, t.IsSign) → row.length ≤ run := by
    intro row hrow
    exact h.signs row (hrow.trans ⟨[], rest, rfl⟩)
  have hbounded := (Progress.bounded_start run).after hpasses hrow
  have hcount : (Progress.start.after front).depth ≤ depth := by
    have hbrackets := h.brackets front.length
    have hbalance := hbounded.balance
    rw [List.take_left] at hbrackets
    rw [List.nil_append] at hbalance
    omega
  obtain ⟨row, hsuffix, hsigns, htop⟩ := hbounded.top
  have hlast : topSigns (Progress.start.after front).opened ≤ run :=
    htop ▸ hrow row hsuffix.isInfix hsigns
  have hsum : run * (Progress.start.after front).depth ≤ run * depth := Nat.mul_le_mul_left run hcount
  have hopen := hbounded.within.openCost_le
  rw [Nat.mul_succ] at hlimit
  simp only [bracketCost, signCost, nestingCost, Progress.depth] at *
  omega

/-- Brackets that open one inside the other cost as much each. -/
theorem Progress.passes_brackets {brackets : List Token}
    (h : ∀ t ∈ brackets, t.kind = .openBracket) (opened : List Opener) :
    Passes ⟨.operand, opened⟩ brackets ∧
      openCost (after ⟨.operand, opened⟩ brackets).opened =
        openCost opened + bracketCost * brackets.length := by
  induction brackets generalizing opened with
  | nil => exact ⟨trivial, rfl⟩
  | cons t brackets ih =>
    obtain ⟨ht, h⟩ := List.forall_mem_cons.1 h
    have hstep := step_open ht opened
    obtain ⟨hpasses, hcost⟩ := ih h (.bracket :: opened)
    refine ⟨⟨.openBracket ht, hstep ▸ hpasses⟩, ?_⟩
    calc openCost (after ⟨.operand, opened⟩ (t :: brackets)).opened
        = openCost (after (Progress.step ⟨.operand, opened⟩ t) brackets).opened := rfl
      _ = openCost opened + bracketCost + bracketCost * brackets.length := by
          rw [hstep, hcost, openCost_cons, Opener.cost]
      _ = openCost opened + bracketCost * (t :: brackets).length := by
          rw [List.length_cons, Nat.mul_succ]
          omega

/-- Enough brackets in front make tokens too deep, whatever follows. -/
theorem parse_eq_tooDeep_of_brackets {brackets : List Token}
    (h : ∀ t ∈ brackets, t.kind = .openBracket)
    (hdeep : nestingLimit ≤ bracketCost * brackets.length) (rest : List Token) :
    parse (brackets ++ rest) = .error .tooDeep := by
  obtain ⟨hpasses, hcost⟩ := Progress.passes_brackets h []
  rw [parse, parseWithin_eq_tooDeep_iff (by decide)]
  refine ⟨brackets.length, ?_, ?_⟩
  · intro error herror
    exact hpasses.length_le_index herror
  · rw [List.take_left, nestingCost, Progress.start, hcost, openCost_nil, Nat.zero_add]
    exact hdeep

/-- **When tokens are nested too deeply.**  They are exactly when, up to some place and
before any error, the brackets that are open and the signs whose operands are not complete
cost as much as the limit; all other tokens make the tree or the error that they make
without a limit.  In particular, nothing is too deep in which few brackets are open at any
place and few signs stand in a row, whatever else there is. -/
theorem parse_eq_tooDeep_iff (tokens : List Token) :
    (parse tokens = .error .tooDeep ↔
      ∃ k, (∀ error, parseWithin none tokens = .error (.error error) → k ≤ error.index) ∧
        nestingLimit ≤ nestingCost (tokens.take k)) ∧
    (parse tokens ≠ .error .tooDeep → parse tokens = parseWithin none tokens) ∧
    ∀ depth run, NestsWithin depth run tokens →
      bracketCost * depth + signCost * (run * (depth + 1)) < nestingLimit →
        parse tokens ≠ .error .tooDeep := by
  refine ⟨parseWithin_eq_tooDeep_iff (by decide) tokens, parseWithin_withoutLimit, ?_⟩
  intro depth run h hlimit
  exact h.parse_ne_tooDeep hlimit

end Calculator
