import Calculator.Proofs.Derivation

/-!
# Reading by places

Reading hands on the tokens that are left.  It can as well hand on the place that has been
reached in a list that stays as it is, and look tokens up there.  Then two things could go
wrong: a token could be looked up where there is none, and reading could go on for ever.  Both
are possible ends of the reading by places that is defined here, and neither comes about: every
look-up is behind a comparison with the number of tokens, and each call has fewer tokens left,
or as many and a lower level of the grammar.

Besides, a stage that is read sees no more than its own tokens and the next one.

## Main definitions

* `readAt limit tokens steps cost stage i` — reading by places, within a number of steps.
* `Stage.rank` — the levels of the grammar that lie below a stage.
* `Phrase.read`, `Phrase.readFrom` — what the functions read at the front, and at a place.
* `ReadsTo` — reading by places comes to a result within a number of steps.

## Main results

* `Reads.suffix` — what is left was there before.
* `Reads.exists_front` — what is read depends on its own tokens and the next one.
* `Reads.readsTo` — reading by places follows the rules of reading.
* `readAt_advances` — **reading ends, goes forward, and stays in range**.
-/

namespace Calculator

/-! ### Places instead of tokens -/

/-- Why reading by places stopped without an expression. -/
inductive HaltAt
  /-- The token at a place, or its absence, is wrong. -/
  | wrong (kind : ParseErrorKind) (place : Nat)
  /-- The nesting is too deep. -/
  | tooDeep
  /-- A token was looked up at a place where there is none. -/
  | noToken (place : Nat)
  /-- There were not enough steps. -/
  | outOfSteps
  deriving DecidableEq, Repr

/-- The token at a place. -/
def tokenAt (tokens : List Token) (i : Nat) : Except HaltAt Token :=
  match tokens[i]? with
  | some t => .ok t
  | none => .error (.noToken i)

/-- The operator by which the token at a place continues a chain, if there is one. -/
def Level.operatorAt (level : Level) (tokens : List Token) (i : Nat) :
    Except HaltAt (Option Operator) :=
  if i < tokens.length then (tokenAt tokens i).map level.operator? else .ok none

/-- An expression in brackets, where its closing bracket is due at a place. -/
def closeAt (tokens : List Token) (e : Expr) (i : Nat) : Except HaltAt (Expr × Nat) :=
  if tokens.length ≤ i then .error (.wrong .missingBracket i)
  else (tokenAt tokens i).bind fun t =>
    if t.kind = .closeBracket then .ok (e, i + 1) else .error (.wrong .missingBracket i)

/-- The primary that begins with the token `t` at the place `i`, where `read` reads what is
behind it. -/
def primaryAt (limit : Option Nat) (tokens : List Token)
    (read : Nat → Stage → Nat → Except HaltAt (Expr × Nat)) (cost i : Nat) (t : Token) :
    Except HaltAt (Expr × Nat) :=
  match t.kind with
  | .number value => .ok (.number value, i + 1)
  | .openBracket =>
    if reaches limit (cost + bracketCost) then .error .tooDeep
    else (read (cost + bracketCost) (.due (.chain .sum)) (i + 1)).bind
      fun (e, j) => closeAt tokens e j
  | .operator =>
    match Sign.ofLexeme? t.lexeme with
    | none => .error (.wrong (.unexpectedToken t.lexeme) i)
    | some s =>
      if reaches limit (cost + signCost) then .error .tooDeep
      else (read (cost + signCost) (.due .primary) (i + 1)).map fun (e, j) => (s.apply e, j)
  | .closeBracket => .error (.wrong (.unexpectedToken t.lexeme) i)

/-- The expression that a stage of reading finds from the place `i` on, and the place behind
it, where no more than `steps` calls may lie one inside the other. -/
def readAt (limit : Option Nat) (tokens : List Token) :
    Nat → Nat → Stage → Nat → Except HaltAt (Expr × Nat)
  | 0, _, _, _ => .error .outOfSteps
  | steps + 1, cost, .due .primary, i =>
    if tokens.length ≤ i then .error (.wrong .unexpectedEnd i)
    else (tokenAt tokens i).bind (primaryAt limit tokens (readAt limit tokens steps) cost i)
  | steps + 1, cost, .due (.chain level), i =>
    (readAt limit tokens steps cost (.due level.operandPhrase) i).bind fun (e, j) =>
      readAt limit tokens steps cost (.after level e) j
  | steps + 1, cost, .after level left, i =>
    (level.operatorAt tokens i).bind fun
      | none => .ok (left, i)
      | some op =>
        (readAt limit tokens steps cost (.due level.operandPhrase) (i + 1)).bind fun (e, j) =>
          readAt limit tokens steps cost (.after level (.binary op left e)) j

/-- How many levels of the grammar lie below a stage. -/
def Stage.rank : Stage → Nat
  | .due .primary => 0
  | .due (.chain level) => level.rank + 1
  | .after _ _ => 0

/-- An outcome of reading in terms of places: where the tokens that are left begin. -/
def placed (tokens : List Token) : Except Halt (Expr × List Token) → Except HaltAt (Expr × Nat)
  | .ok (e, behind) => .ok (e, tokens.length - behind.length)
  | .error (.wrong kind behind) => .error (.wrong kind (tokens.length - behind.length))
  | .error .tooDeep => .error .tooDeep

/-- The phrase at the front of the tokens, as the functions read it. -/
def Phrase.read (limit : Option Nat) (cost : Nat) :
    Phrase → List Token → Except Halt (Expr × List Token)
  | .primary, tokens => (Calculator.primary limit cost tokens).map Parsed.pair
  | .chain level, tokens => (Calculator.chain limit cost level tokens).map Parsed.pair

/-- The phrase from a place on, as the functions read it. -/
def Phrase.readFrom (limit : Option Nat) (cost : Nat) (phrase : Phrase) (tokens : List Token)
    (i : Nat) : Except HaltAt (Expr × Nat) :=
  placed tokens (phrase.read limit cost (tokens.drop i))

variable {limit : Option Nat} {cost i steps : Nat} {stage : Stage} {phrase : Phrase}
  {tokens rest behind : List Token} {t : Token} {e : Expr}
  {o : Except Halt (Expr × List Token)}

/-! ### What is left -/

/-- Reading that ends with the outcome leaves these tokens, the first of which may be wrong. -/
inductive Leaves (behind : List Token) : Except Halt (Expr × List Token) → Prop
  /-- An expression was read. -/
  | ok {e : Expr} : Leaves behind (.ok (e, behind))
  /-- There is an error. -/
  | wrong {kind : ParseErrorKind} : Leaves behind (.error (.wrong kind behind))

/-- What is left was there before. -/
theorem Reads.suffix (h : Reads limit cost stage rest o) (hleft : Leaves behind o) :
    behind <:+ rest := by
  induction h generalizing behind with
  | ended =>
    cases hleft
    exact List.suffix_rfl
  | number ht =>
    cases hleft
    exact List.suffix_cons _ _
  | closing ht =>
    cases hleft
    exact List.suffix_rfl
  | stray ht hs =>
    cases hleft
    exact List.suffix_rfl
  | bracketDeep ht hd => cases hleft
  | bracketHalt ht hd hi ih =>
    cases hleft
    exact (ih .wrong).trans (List.suffix_cons _ _)
  | bracketOpen ht hd hi hc ih =>
    cases hleft
    exact (ih .ok).trans (List.suffix_cons _ _)
  | bracket ht hd hi hr ih =>
    cases hleft
    exact (List.suffix_cons _ _).trans ((ih .ok).trans (List.suffix_cons _ _))
  | signDeep ht hs hd => cases hleft
  | signHalt ht hs hd hi ih =>
    cases hleft
    exact (ih .wrong).trans (List.suffix_cons _ _)
  | signed ht hs hd hi ih =>
    cases hleft
    exact (ih .ok).trans (List.suffix_cons _ _)
  | chainHalt hi ih =>
    cases hleft
    exact ih .wrong
  | chain hi hf ihi ihf => exact (ihf hleft).trans (ihi .ok)
  | stop hs =>
    cases hleft
    exact List.suffix_rfl
  | linkHalt ht hi ih =>
    cases hleft
    exact (ih .wrong).trans (List.suffix_cons _ _)
  | link ht hi hf ihi ihf =>
    exact (ihf hleft).trans ((ihi .ok).trans (List.suffix_cons _ _))

/-- A phrase that is read takes up some tokens. -/
theorem Reads.length_lt (h : Reads limit cost (.due phrase) rest (.ok (e, behind))) :
    behind.length < rest.length := by
  obtain ⟨front, rfl, hderives⟩ := h.yields e behind rfl
  have hfront : 0 < front.length := List.length_pos_iff.2 (Derives.ne_nil hderives)
  rw [List.length_append]
  omega

theorem head?_append_congr {others : List Token} (h : others.head? = behind.head?)
    (front : List Token) : (front ++ others).head? = (front ++ behind).head? := by
  rw [List.head?_append, List.head?_append, h]

/-- What is read depends on its own tokens and the next one: it is read as well where others
follow behind that. -/
theorem Reads.exists_front (h : Reads limit cost stage rest o) :
    ∀ e behind, o = .ok (e, behind) → ∃ front, rest = front ++ behind ∧
      ∀ others, others.head? = behind.head? →
        Reads limit cost stage (front ++ others) (.ok (e, others)) := by
  induction h with
  | ended => nofun
  | @number _ t _ _ ht =>
    rintro e behind ⟨⟩
    exact ⟨[t], rfl, fun others _ => .number ht⟩
  | closing ht => nofun
  | stray ht hs => nofun
  | bracketDeep ht hd => nofun
  | bracketHalt ht hd hi ih => nofun
  | bracketOpen ht hd hi hc ih => nofun
  | @bracket _ t r _ _ _ ht hd hi hr ih =>
    rintro e behind ⟨⟩
    obtain ⟨inner, rfl, hinner⟩ := ih _ _ rfl
    refine ⟨t :: (inner ++ [r]), by simp, ?_⟩
    intro others _
    -- the token behind the sum is its bracket, whatever follows
    simpa using Reads.bracket ht hd (hinner (r :: others) rfl) hr
  | signDeep ht hs hd => nofun
  | signHalt ht hs hd hi ih => nofun
  | @signed _ t _ _ _ _ ht hs hd hi ih =>
    rintro e behind ⟨⟩
    obtain ⟨front, rfl, hfront⟩ := ih _ _ rfl
    exact ⟨t :: front, rfl, fun others hnext => .signed ht hs hd (hfront others hnext)⟩
  | chainHalt hi ih => nofun
  | chain hi hf ihi ihf =>
    rintro e behind rfl
    obtain ⟨first, rfl, hfirst⟩ := ihi _ _ rfl
    obtain ⟨more, rfl, hmore⟩ := ihf _ _ rfl
    refine ⟨first ++ more, by simp, ?_⟩
    intro others hnext
    have hhead := head?_append_congr hnext more
    simpa using Reads.chain (hfirst _ hhead) (hmore others hnext)
  | @stop _ level left tokens hs =>
    rintro e behind ⟨⟩
    refine ⟨[], rfl, ?_⟩
    intro others hnext
    exact .stop (by rwa [List.nil_append, Level.StopsAt, hnext])
  | linkHalt ht hi ih => nofun
  | @link _ _ _ _ t _ _ _ _ ht hi hf ihi ihf =>
    rintro e behind rfl
    obtain ⟨right, rfl, hright⟩ := ihi _ _ rfl
    obtain ⟨more, rfl, hmore⟩ := ihf _ _ rfl
    refine ⟨t :: (right ++ more), by simp, ?_⟩
    intro others hnext
    have hhead := head?_append_congr hnext more
    simpa using Reads.link ht (hright _ hhead) (hmore others hnext)

/-! ### Looking tokens up -/

theorem tokenAt_of_drop_eq (h : tokens.drop i = t :: rest) : tokenAt tokens i = .ok t := by
  rw [tokenAt, getElem?_of_drop_eq h]

theorem Level.operatorAt_eq_some {level : Level} {op : Operator} (h : tokens.drop i = t :: rest)
    (ht : level.operator? t = some op) : level.operatorAt tokens i = .ok (some op) := by
  rw [operatorAt, if_pos (lt_length_of_drop_eq h), tokenAt_of_drop_eq h, Except.map, ht]

/-- No operator is looked up where there is no token. -/
theorem Level.operatorAt_eq_none {level : Level} (h : tokens.drop i = rest)
    (hs : level.StopsAt rest) : level.operatorAt tokens i = .ok none := by
  cases rest with
  | nil => rw [operatorAt, if_neg (Nat.not_lt.2 (List.drop_eq_nil_iff.1 h))]
  | cons t rest =>
    rw [operatorAt, if_pos (lt_length_of_drop_eq h), tokenAt_of_drop_eq h, Except.map,
      (level.stopsAt_cons t rest).1 hs]

theorem closeAt_eq_ok (h : tokens.drop i = t :: rest) (ht : t.kind = .closeBracket) (e : Expr) :
    closeAt tokens e i = .ok (e, i + 1) := by
  rw [closeAt, if_neg (Nat.not_le.2 (lt_length_of_drop_eq h)), tokenAt_of_drop_eq h, Except.bind,
    if_pos ht]

theorem closeAt_eq_error (h : tokens.drop i = rest)
    (hrest : ∀ t ∈ rest.head?, t.kind ≠ .closeBracket) (e : Expr) :
    closeAt tokens e i = .error (.wrong .missingBracket i) := by
  cases rest with
  | nil => rw [closeAt, if_pos (List.drop_eq_nil_iff.1 h)]
  | cons t rest =>
    rw [closeAt, if_neg (Nat.not_le.2 (lt_length_of_drop_eq h)), tokenAt_of_drop_eq h, Except.bind,
      if_neg (hrest t rfl)]

/-- Where there is a token, a primary begins with it. -/
theorem readAt_primary (h : tokens.drop i = t :: rest) (steps : Nat) :
    readAt limit tokens (steps + 1) cost (.due .primary) i =
      primaryAt limit tokens (readAt limit tokens steps) cost i t := by
  rw [readAt, if_neg (Nat.not_le.2 (lt_length_of_drop_eq h)), tokenAt_of_drop_eq h, Except.bind]

/-! ### Reading by places follows the rules -/

/-- Tokens at the end of a list begin at the place that their number tells. -/
theorem drop_of_suffix (h : behind <:+ tokens) :
    tokens.drop (tokens.length - behind.length) = behind := by
  obtain ⟨front, rfl⟩ := h
  rw [List.length_append, Nat.add_sub_cancel, List.drop_left]

theorem length_sub_of_drop_eq (h : tokens.drop i = rest) (hi : i ≤ tokens.length) :
    tokens.length - rest.length = i := by
  rw [← h, List.length_drop, Nat.sub_sub_self hi]

theorem Reads.drop_eq (h : Reads limit cost stage rest o) (hleft : Leaves behind o)
    (hdrop : tokens.drop i = rest) : tokens.drop (tokens.length - behind.length) = behind :=
  drop_of_suffix ((h.suffix hleft).trans (hdrop ▸ List.drop_suffix i tokens))

theorem Level.rank_operandPhrase (level : Level) :
    (Stage.due level.operandPhrase).rank = level.rank := by
  cases level <;> rfl

theorem Stage.rank_le : ∀ stage : Stage, stage.rank ≤ 2
  | .due .primary => by decide
  | .due (.chain .product) => by decide
  | .due (.chain .sum) => by decide
  | .after _ _ => Nat.zero_le 2

/-- Reading by places comes to this result wherever the tokens left are these, if it has three
steps for each of them and one for each level of the grammar, and one more. -/
def ReadsTo (limit : Option Nat) (tokens : List Token) (cost : Nat) (stage : Stage)
    (rest : List Token) (result : Except HaltAt (Expr × Nat)) : Prop :=
  ∀ i steps, tokens.drop i = rest → i ≤ tokens.length → 3 * rest.length + stage.rank < steps →
    readAt limit tokens steps cost stage i = result

/-- The first step is there. -/
theorem ReadsTo.of_succ {result : Except HaltAt (Expr × Nat)}
    (h : ∀ i steps, tokens.drop i = rest → i ≤ tokens.length →
      3 * rest.length + stage.rank ≤ steps →
        readAt limit tokens (steps + 1) cost stage i = result) :
    ReadsTo limit tokens cost stage rest result := by
  intro i steps hdrop hi hsteps
  obtain ⟨steps, rfl⟩ := Nat.exists_eq_add_one_of_ne_zero (Nat.ne_zero_of_lt hsteps)
  exact h i steps hdrop hi (Nat.le_of_lt_succ hsteps)

/-- Behind a token, the steps that are left are enough for any stage. -/
theorem ReadsTo.inside {result : Except HaltAt (Expr × Nat)} {rank : Nat}
    (h : ReadsTo limit tokens cost stage rest result) (hdrop : tokens.drop i = t :: rest)
    (hsteps : 3 * (t :: rest).length + rank ≤ steps) :
    readAt limit tokens steps cost stage (i + 1) = result := by
  have hrank := stage.rank_le
  rw [List.length_cons] at hsteps
  exact h (i + 1) steps (drop_succ_of_drop_eq hdrop) (lt_length_of_drop_eq hdrop) (by omega)

/-- Reading by places follows the rules of reading. -/
theorem Reads.readsTo (h : Reads limit cost stage rest o) :
    ReadsTo limit tokens cost stage rest (placed tokens o) := by
  -- a call has fewer tokens left than the one around it, or as many and a lower rank
  induction h with
  | ended =>
    apply ReadsTo.of_succ
    intro i steps hdrop hi _
    have hend : tokens.length ≤ i := List.drop_eq_nil_iff.1 hdrop
    rw [readAt, if_pos hend, placed, length_sub_of_drop_eq hdrop hi]
  | number ht =>
    apply ReadsTo.of_succ
    intro i steps hdrop hi _
    have hplace := length_sub_of_drop_eq (drop_succ_of_drop_eq hdrop) (lt_length_of_drop_eq hdrop)
    rw [readAt_primary hdrop, primaryAt, ht, placed, hplace]
  | closing ht =>
    apply ReadsTo.of_succ
    intro i steps hdrop hi _
    rw [readAt_primary hdrop, primaryAt, ht, placed, length_sub_of_drop_eq hdrop hi]
  | stray ht hs =>
    apply ReadsTo.of_succ
    intro i steps hdrop hi _
    simp only [readAt_primary hdrop, primaryAt, ht, hs, placed, length_sub_of_drop_eq hdrop hi]
  | bracketDeep ht hd =>
    apply ReadsTo.of_succ
    intro i steps hdrop hi _
    simp only [readAt_primary hdrop, primaryAt, ht, hd, if_true, placed]
  | @bracketHalt _ _ _ halt ht hd _ ih =>
    apply ReadsTo.of_succ
    intro i steps hdrop hi hsteps
    have hinner := ih.inside hdrop hsteps
    simp only [readAt_primary hdrop, primaryAt, ht, hd, hinner]
    cases halt <;> rfl
  | @bracketOpen _ _ _ behind e ht hd hreads hc ih =>
    apply ReadsTo.of_succ
    intro i steps hdrop hi hsteps
    have hinner := ih.inside hdrop hsteps
    have hbehind := hreads.drop_eq .ok (drop_succ_of_drop_eq hdrop)
    simp only [readAt_primary hdrop, primaryAt, ht, hd, hinner]
    exact closeAt_eq_error hbehind hc e
  | @bracket _ _ r _ behind e ht hd hreads hr ih =>
    apply ReadsTo.of_succ
    intro i steps hdrop hi hsteps
    have hinner := ih.inside hdrop hsteps
    have hbehind := hreads.drop_eq .ok (drop_succ_of_drop_eq hdrop)
    have hplace := length_sub_of_drop_eq (drop_succ_of_drop_eq hbehind)
      (lt_length_of_drop_eq hbehind)
    simp only [readAt_primary hdrop, primaryAt, ht, hd, hinner, placed, hplace]
    exact closeAt_eq_ok hbehind hr e
  | signDeep ht hs hd =>
    apply ReadsTo.of_succ
    intro i steps hdrop hi _
    simp only [readAt_primary hdrop, primaryAt, ht, hs, hd, if_true, placed]
  | @signHalt _ _ _ s halt ht hs hd _ ih =>
    apply ReadsTo.of_succ
    intro i steps hdrop hi hsteps
    simp only [readAt_primary hdrop, primaryAt, ht, hs, hd, ih.inside hdrop hsteps]
    cases halt <;> rfl
  | @signed _ _ _ behind s e ht hs hd _ ih =>
    apply ReadsTo.of_succ
    intro i steps hdrop hi hsteps
    simp only [readAt_primary hdrop, primaryAt, ht, hs, hd, ih.inside hdrop hsteps]
    rfl
  | @chainHalt _ level _ halt _ ih =>
    apply ReadsTo.of_succ
    intro i steps hdrop hi hsteps
    have hoperand := ih i steps hdrop hi (level.rank_operandPhrase ▸ hsteps)
    rw [readAt, hoperand]
    cases halt <;> rfl
  | @chain _ level _ behind left _ hreads _ ihi ihf =>
    apply ReadsTo.of_succ
    intro i steps hdrop hi hsteps
    have hoperand := ihi i steps hdrop hi (level.rank_operandPhrase ▸ hsteps)
    have hlt := hreads.length_lt
    have henough : 3 * behind.length + (Stage.after level left).rank < steps := by
      rw [Stage.rank]
      omega
    have hrest := ihf _ steps (hreads.drop_eq .ok hdrop) (Nat.sub_le _ _) henough
    rw [readAt, hoperand]
    exact hrest
  | stop hs =>
    apply ReadsTo.of_succ
    intro i steps hdrop hi _
    rw [readAt, Level.operatorAt_eq_none hdrop hs, placed, length_sub_of_drop_eq hdrop hi]
    rfl
  | @linkHalt _ level _ _ _ _ halt ht _ ih =>
    apply ReadsTo.of_succ
    intro i steps hdrop hi hsteps
    rw [readAt, Level.operatorAt_eq_some hdrop ht, Except.bind, ih.inside hdrop hsteps]
    cases halt <;> rfl
  | @link _ level left right _ _ behind op _ ht hreads _ ihi ihf =>
    apply ReadsTo.of_succ
    intro i steps hdrop hi hsteps
    have hoperand := ihi.inside hdrop hsteps
    have hlt := hreads.length_lt
    have henough :
        3 * behind.length + (Stage.after level (.binary op left right)).rank < steps := by
      rw [List.length_cons] at hsteps
      rw [Stage.rank]
      omega
    have hrest := ihf _ steps (hreads.drop_eq .ok (drop_succ_of_drop_eq hdrop)) (Nat.sub_le _ _)
      henough
    rw [readAt, Level.operatorAt_eq_some hdrop ht, Except.bind, hoperand]
    exact hrest

/-! ### Reading from a place on -/

theorem Phrase.reads_read (limit : Option Nat) (cost : Nat) (phrase : Phrase)
    (tokens : List Token) :
    Reads limit cost (.due phrase) tokens (phrase.read limit cost tokens) := by
  cases phrase with
  | primary => exact (reads_functions limit).1 cost tokens
  | chain level => exact (reads_functions limit).2.1 cost level tokens

theorem placed_eq_ok {j : Nat} (h : placed tokens o = .ok (e, j)) :
    ∃ behind, o = .ok (e, behind) ∧ tokens.length - behind.length = j := by
  match o, h with
  | .ok (e, behind), h =>
    cases h
    exact ⟨behind, rfl, rfl⟩

theorem placed_eq_wrong {kind : ParseErrorKind} {place : Nat}
    (h : placed tokens o = .error (.wrong kind place)) :
    ∃ behind, o = .error (.wrong kind behind) ∧ tokens.length - behind.length = place := by
  match o, h with
  | .error (.wrong kind behind), h =>
    cases h
    exact ⟨behind, rfl, rfl⟩

/-- Neither of the two mistakes is what reading comes to. -/
theorem placed_ne (tokens : List Token) (o : Except Halt (Expr × List Token)) :
    placed tokens o ≠ .error .outOfSteps ∧ ∀ place, placed tokens o ≠ .error (.noToken place) := by
  match o with
  | .ok (e, behind) => exact ⟨nofun, nofun⟩
  | .error (.wrong kind behind) => exact ⟨nofun, nofun⟩
  | .error .tooDeep => exact ⟨nofun, nofun⟩

/-- What is read from a place on ends behind that place, and in range. -/
theorem Phrase.readFrom_eq_ok {j : Nat} (h : phrase.readFrom limit cost tokens i = .ok (e, j)) :
    phrase.read limit cost (tokens.drop i) = .ok (e, tokens.drop j) ∧ i < j ∧
      j ≤ tokens.length := by
  obtain ⟨behind, hread, rfl⟩ := placed_eq_ok h
  have hreads := phrase.reads_read limit cost (tokens.drop i)
  rw [hread] at hreads
  have hlt := hreads.length_lt
  rw [List.length_drop] at hlt
  refine ⟨?_, by omega, Nat.sub_le _ _⟩
  rw [hread, hreads.drop_eq .ok rfl]

/-- Tokens that agree with others from a place on begin like them there. -/
theorem drop_eq_append {front others : List Token} {k : Nat}
    (h : ∀ n, n < front.length → others[k + n]? = front[n]?) :
    others.drop k = front ++ others.drop (k + front.length) := by
  apply List.ext_getElem?
  intro n
  rw [List.getElem?_drop]
  rcases Nat.lt_or_ge n front.length with hlt | hge
  · rw [List.getElem?_append_left hlt, h n hlt]
  · rw [List.getElem?_append_right hge, List.getElem?_drop, Nat.add_assoc,
      Nat.add_sub_cancel' hge]

/-- What is read from one place to another is read wherever the same tokens stand in a row. -/
theorem Phrase.readFrom_of_agree {others : List Token} {j k : Nat}
    (h : phrase.readFrom limit cost tokens i = .ok (e, j))
    (hagree : ∀ n, n ≤ j - i → others[k + n]? = tokens[i + n]?) :
    phrase.readFrom limit cost others k = .ok (e, k + (j - i)) := by
  obtain ⟨hread, hlt, hle⟩ := readFrom_eq_ok h
  have hreads := phrase.reads_read limit cost (tokens.drop i)
  rw [hread] at hreads
  obtain ⟨front, hsplit, hfront⟩ := hreads.exists_front e _ rfl
  have hcount := congrArg List.length hsplit
  rw [List.length_append, List.length_drop, List.length_drop] at hcount
  obtain rfl : j = i + front.length := by omega
  rw [Nat.add_sub_cancel_left] at hagree ⊢
  -- the same tokens stand in front, and the same one behind them
  have hothers : others.drop k = front ++ others.drop (k + front.length) := by
    apply drop_eq_append
    intro n hn
    rw [hagree n (Nat.le_of_lt hn), ← List.getElem?_drop, hsplit, List.getElem?_append_left hn]
  have hnext : (others.drop (k + front.length)).head? = (tokens.drop (i + front.length)).head? := by
    rw [List.head?_drop, List.head?_drop, hagree front.length (Nat.le_refl _)]
  have hreads' := hfront _ hnext
  rw [← hothers] at hreads'
  -- the last token of the phrase is there, so its end is in range
  have hlast : k + (front.length - 1) < others.length := by
    have hinside : i + (front.length - 1) < tokens.length := by omega
    have hthere := hagree (front.length - 1) (Nat.sub_le _ _)
    rw [List.getElem?_eq_getElem hinside] at hthere
    exact (List.getElem?_eq_some_iff.1 hthere).1
  have hplace : others.length - (others.drop (k + front.length)).length = k + front.length :=
    length_sub_of_drop_eq rfl (by omega)
  rw [readFrom, (phrase.reads_read limit cost (others.drop k)).unique hreads', placed, hplace]

/-- An error lies at a token that is left, or at the end. -/
theorem Phrase.le_of_readFrom_eq_wrong {kind : ParseErrorKind} {place : Nat}
    (h : phrase.readFrom limit cost tokens i = .error (.wrong kind place))
    (hi : i ≤ tokens.length) : i ≤ place ∧ place ≤ tokens.length := by
  obtain ⟨behind, hread, rfl⟩ := placed_eq_wrong h
  have hreads := phrase.reads_read limit cost (tokens.drop i)
  rw [hread] at hreads
  have hle := (hreads.suffix .wrong).length_le
  rw [List.length_drop] at hle
  exact ⟨by omega, Nat.sub_le _ _⟩

/-- **Reading ends, goes forward, and stays in range.**  From each place on, reading a phrase
takes no more calls one inside the other than three for each token that is left and one for
each level of the grammar, and no token is looked up where there is none.  An expression that
is read takes up at least one token and no more than there are, and is the same wherever these
tokens and the next one are the same; and an error lies at a token that is left, or at the end. -/
theorem readAt_advances (limit : Option Nat) (cost : Nat) (phrase : Phrase) {tokens : List Token}
    {i : Nat} (hi : i ≤ tokens.length) :
    (∀ steps, 3 * (tokens.length - i) + (Stage.due phrase).rank < steps →
      readAt limit tokens steps cost (.due phrase) i = phrase.readFrom limit cost tokens i) ∧
    phrase.readFrom limit cost tokens i ≠ .error .outOfSteps ∧
    (∀ place, phrase.readFrom limit cost tokens i ≠ .error (.noToken place)) ∧
    (∀ e j, phrase.readFrom limit cost tokens i = .ok (e, j) →
      i < j ∧ j ≤ tokens.length ∧
      phrase.read limit cost (tokens.drop i) = .ok (e, tokens.drop j) ∧
      ∀ others k, (∀ n, n ≤ j - i → others[k + n]? = tokens[i + n]?) →
        phrase.readFrom limit cost others k = .ok (e, k + (j - i))) ∧
    (∀ kind place, phrase.readFrom limit cost tokens i = .error (.wrong kind place) →
      i ≤ place ∧ place ≤ tokens.length) := by
  obtain ⟨hsteps, hlookup⟩ := placed_ne tokens (phrase.read limit cost (tokens.drop i))
  refine ⟨?_, hsteps, hlookup, ?_, fun kind place h => Phrase.le_of_readFrom_eq_wrong h hi⟩
  · intro steps henough
    have hreads := phrase.reads_read limit cost (tokens.drop i)
    exact hreads.readsTo i steps rfl hi (by rwa [List.length_drop])
  · intro e j hread
    obtain ⟨hfunction, hlt, hle⟩ := Phrase.readFrom_eq_ok hread
    exact ⟨hlt, hle, hfunction, fun others k => Phrase.readFrom_of_agree hread⟩

/-- The bracket of `-(1 + 2) * 3` is read from its place on as it is where it comes first. -/
theorem readAt_advances_negatedSum :
    1 ≤ negatedSumTokens.length ∧
    readAt none negatedSumTokens 22 0 (.due .primary) 1 =
      .ok (.binary .add (.number 1) (.number 2), 6) ∧
    Phrase.readFrom none 0 .primary (negatedSumTokens.drop 1) 0 =
      .ok (.binary .add (.number 1) (.number 2), 5) := by
  have hi : 1 ≤ negatedSumTokens.length := by decide
  have hread : Phrase.readFrom none 0 .primary negatedSumTokens 1 =
      .ok (.binary .add (.number 1) (.number 2), 6) := by cbv
  obtain ⟨hplaces, -, -, hok, -⟩ := readAt_advances none 0 .primary hi
  obtain ⟨-, -, -, hagree⟩ := hok _ _ hread
  refine ⟨hi, (hplaces 22 (by decide)).trans hread, hagree (negatedSumTokens.drop 1) 0 ?_⟩
  intro n _
  rw [List.getElem?_drop, Nat.zero_add]

end Calculator
