import Calculator.Proofs.ViablePrefix

/-!
# How deep tokens are nested

Reading gives up where nesting gets too deep, and nothing else about it depends on the
limit.  How deep the nesting is, is seen on the tokens that have been read, without
reading them by recursion: it is told by the brackets and signs that are still open
behind them.  A sign is open until its operand is complete, so a sign before a bracket
stays open until the bracket closes; and operators between operands open nothing.

## Main definitions

* `Progress`, `Progress.step`, `Progress.after` — what is open while tokens are read.
* `nestingCost tokens` — the cost of what is open behind the tokens.
* `Progress.Passes` — tokens that can come one after the other.
* `Progress.Shallow n` — tokens behind none of which the cost reaches `n`.
* `NestsTo` — what the outcome of a stage of reading says about nesting.

## Main results

* `Reads.nestsTo` — reading gives up exactly where the cost reaches the limit.
* `parseWithin_eq_tooDeep_iff` — the same for all tokens, whatever the limit.
-/

namespace Calculator

/-- What can be open while tokens are read. -/
inductive Opener
  /-- A bracket that is not closed. -/
  | bracket
  /-- A sign whose operand is not complete. -/
  | sign
  deriving DecidableEq, Repr

/-- What it costs that something is open. -/
def Opener.cost : Opener → Nat
  | .bracket => bracketCost
  | .sign => signCost

/-- What it costs that all of these are open. -/
def openCost : List Opener → Nat
  | [] => 0
  | o :: opened => openCost opened + o.cost

/-- What stays open when an operand is complete: the signs in front of it are done with. -/
def settle (opened : List Opener) : List Opener := opened.dropWhile (· == .sign)

/-- How far the reading of tokens has come. -/
structure Progress where
  /-- What the next token may be. -/
  expecting : Expecting
  /-- What is open, the innermost first. -/
  opened : List Opener
  deriving DecidableEq, Repr

namespace Progress

/-- Nothing has been read. -/
def start : Progress := ⟨.operand, []⟩

/-- The progress by one token; a token that cannot come makes none. -/
def step (s : Progress) (t : Token) : Progress :=
  match s.expecting, t.kind with
  | .operand, .number _ => ⟨.operator, settle s.opened⟩
  | .operand, .openBracket => ⟨.operand, .bracket :: s.opened⟩
  | .operand, .operator => ⟨.operand, .sign :: s.opened⟩
  | .operator, .operator => ⟨.operand, s.opened⟩
  | .operator, .closeBracket => ⟨.operator, settle s.opened.tail⟩
  | _, _ => s

/-- The progress by some tokens. -/
def after (s : Progress) (tokens : List Token) : Progress := tokens.foldl step s

/-- How many brackets are open. -/
def depth (s : Progress) : Nat := s.opened.count .bracket

end Progress

/-- The cost of tokens that have been read: of the brackets that are open behind them, and
of the signs whose operands are not complete. -/
def nestingCost (tokens : List Token) : Nat := openCost (Progress.start.after tokens).opened

/-! ### What is open -/

@[simp] theorem openCost_nil : openCost [] = 0 := rfl

@[simp] theorem openCost_cons (o : Opener) (opened : List Opener) :
    openCost (o :: opened) = openCost opened + o.cost := rfl

@[simp] theorem settle_sign (opened : List Opener) : settle (.sign :: opened) = settle opened := rfl

@[simp] theorem settle_settle (opened : List Opener) : settle (settle opened) = settle opened := by
  induction opened with
  | nil => rfl
  | cons o opened ih =>
    cases o with
    | bracket => rfl
    | sign => exact ih

theorem openCost_settle_le (opened : List Opener) : openCost (settle opened) ≤ openCost opened := by
  induction opened with
  | nil => exact Nat.le_refl 0
  | cons o opened ih =>
    cases o with
    | bracket => exact Nat.le_refl _
    | sign =>
      rw [settle_sign, openCost_cons]
      exact Nat.le_trans ih (Nat.le_add_right _ _)

theorem count_settle (opened : List Opener) :
    (settle opened).count .bracket = opened.count .bracket := by
  induction opened with
  | nil => rfl
  | cons o opened ih =>
    cases o with
    | bracket => rfl
    | sign => rw [settle_sign, ih, List.count_cons_of_ne (by decide)]

namespace Progress

theorem after_append (s : Progress) (front tokens : List Token) :
    s.after (front ++ tokens) = (s.after front).after tokens := List.foldl_append

/-! ### Tokens that can come -/

/-- A token that can come next. -/
inductive Admits : Progress → Token → Prop
  | number {t : Token} {opened : List Opener} {value : Float} (ht : t.kind = .number value) :
      Admits ⟨.operand, opened⟩ t
  | openBracket {t : Token} {opened : List Opener} (ht : t.kind = .openBracket) :
      Admits ⟨.operand, opened⟩ t
  | sign {t : Token} {opened : List Opener} {s : Sign} (ht : t.kind = .operator)
      (hs : Sign.ofLexeme? t.lexeme = some s) : Admits ⟨.operand, opened⟩ t
  | link {t : Token} {opened : List Opener} (ht : isLink t = true) : Admits ⟨.operator, opened⟩ t
  | closeBracket {t : Token} {opened : List Opener} (ht : t.kind = .closeBracket) :
      Admits ⟨.operator, .bracket :: opened⟩ t

/-- Tokens that can come one after the other. -/
def Passes : Progress → List Token → Prop
  | _, [] => True
  | s, t :: tokens => s.Admits t ∧ (s.step t).Passes tokens

variable {s : Progress} {t : Token} {front tokens : List Token} {n : Nat}

theorem kind_of_isLink (ht : isLink t = true) : t.kind = .operator := by
  rw [isLink, Bool.or_eq_true, Option.isSome_iff_exists, Option.isSome_iff_exists] at ht
  rcases ht with ⟨op, hop⟩ | ⟨op, hop⟩
  · exact Level.kind_of_operator? hop
  · exact Level.kind_of_operator? hop

theorem step_number {value : Float} (ht : t.kind = .number value) (opened : List Opener) :
    step ⟨.operand, opened⟩ t = ⟨.operator, settle opened⟩ := by
  simp [step, ht]

theorem step_open (ht : t.kind = .openBracket) (opened : List Opener) :
    step ⟨.operand, opened⟩ t = ⟨.operand, .bracket :: opened⟩ := by
  simp [step, ht]

theorem step_sign (ht : t.kind = .operator) (opened : List Opener) :
    step ⟨.operand, opened⟩ t = ⟨.operand, .sign :: opened⟩ := by
  simp [step, ht]

theorem step_link (ht : isLink t = true) (opened : List Opener) :
    step ⟨.operator, opened⟩ t = ⟨.operand, opened⟩ := by
  simp [step, kind_of_isLink ht]

theorem step_close (ht : t.kind = .closeBracket) (opened : List Opener) :
    step ⟨.operator, .bracket :: opened⟩ t = ⟨.operator, settle opened⟩ := by
  simp [step, ht]

/-- The count of errors goes on behind a token that can come; the brackets that it counts
are those that are open. -/
theorem Admits.firstError_eq (h : s.Admits t) (tokens : List Token) :
    firstError s.expecting s.depth (t :: tokens) =
      firstError (s.step t).expecting (s.step t).depth tokens := by
  cases h with
  | number ht =>
    rw [step_number ht, firstError_number ht, depth, depth, count_settle]
  | openBracket ht =>
    rw [step_open ht, firstError_open ht, depth, depth, List.count_cons_self]
  | sign ht hs =>
    rw [step_sign ht, firstError_sign ht hs, depth, depth, List.count_cons_of_ne (by decide)]
  | link ht => rw [step_link ht, firstError_link ht]; rfl
  | closeBracket ht =>
    rw [step_close ht, depth, List.count_cons_self, firstError_close ht, depth, count_settle]

theorem Passes.firstError_eq (h : s.Passes front) (tokens : List Token) :
    firstError s.expecting s.depth (front ++ tokens) =
      firstError (s.after front).expecting (s.after front).depth tokens := by
  induction front generalizing s with
  | nil => rfl
  | cons t front ih =>
    obtain ⟨ht, h⟩ := h
    rw [List.cons_append, ht.firstError_eq]
    exact ih h

theorem Passes.append (h : s.Passes front) (h' : (s.after front).Passes tokens) :
    s.Passes (front ++ tokens) := by
  induction front generalizing s with
  | nil => exact h'
  | cons t front ih => exact ⟨h.1, ih h.2 h'⟩

/-! ### Tokens that are not deep -/

/-- The cost stays below `n` behind each of the tokens. -/
def Shallow (n : Nat) (s : Progress) (tokens : List Token) : Prop :=
  ∀ k, openCost (s.after (tokens.take k)).opened < n

theorem Shallow.nil (h : openCost s.opened < n) : s.Shallow n [] := by
  intro k
  rw [List.take_nil]
  exact h

theorem Shallow.single (h : openCost s.opened < n) (h' : openCost (s.step t).opened < n) :
    s.Shallow n [t] := by
  intro k
  cases k with
  | zero => exact h
  | succ k =>
    rw [List.take_succ_cons, List.take_nil]
    exact h'

theorem Shallow.append (h : s.Shallow n front) (h' : (s.after front).Shallow n tokens) :
    s.Shallow n (front ++ tokens) := by
  intro k
  rcases Nat.le_total k front.length with hle | hge
  · rw [List.take_append_of_le_length hle]
    exact h k
  · obtain ⟨j, rfl⟩ := Nat.exists_eq_add_of_le hge
    rw [List.take_length_add_append, after_append]
    exact h' j

end Progress

/-! ### Reading and nesting -/

/-- What the outcome of a stage of reading says about the tokens that are read: those that
are nested too deeply reach `n` behind some of them; and the others, up to an error or to
the end of the stage, do not. -/
def NestsTo (n : Nat) (s : Progress) (tokens : List Token) :
    Except Halt (Expr × List Token) → Prop
  | .error .tooDeep => ∃ front rest, tokens = front ++ rest ∧ s.Passes front ∧
      n ≤ openCost (s.after front).opened
  | .error (.wrong _ rest) => ∃ front, tokens = front ++ rest ∧ s.Shallow n front
  | .ok (_, behind) => ∃ front, tokens = front ++ behind ∧ s.Shallow n front ∧
      s.Passes front ∧ s.after front = ⟨.operator, settle s.opened⟩

section

variable {n : Nat} {s : Progress} {t : Token} {front tokens : List Token}
  {o : Except Halt (Expr × List Token)}

open Progress

/-- Tokens that can come may stand in front of a stage, if what they have opened is
settled by the stage, or the stage is not read to its end. -/
theorem NestsTo.append (hshallow : s.Shallow n front) (hpasses : s.Passes front)
    (hsettle : ∀ p, o = .ok p → settle (s.after front).opened = settle s.opened)
    (h : NestsTo n (s.after front) tokens o) : NestsTo n s (front ++ tokens) o := by
  match o, hsettle, h with
  | .error .tooDeep, _, h =>
    obtain ⟨more, rest, rfl, hmore, hcost⟩ := h
    exact ⟨front ++ more, rest, (List.append_assoc ..).symm, hpasses.append hmore,
      by rwa [after_append]⟩
  | .error (.wrong kind rest), _, h =>
    obtain ⟨more, rfl, hmore⟩ := h
    exact ⟨front ++ more, (List.append_assoc ..).symm, hshallow.append hmore⟩
  | .ok (e, behind), hsettle, h =>
    obtain ⟨more, rfl, hmore, hpass, hafter⟩ := h
    refine ⟨front ++ more, (List.append_assoc ..).symm, hshallow.append hmore,
      hpasses.append hpass, ?_⟩
    rw [after_append, hafter, hsettle _ rfl]

/-- The same for one token. -/
theorem NestsTo.cons {s' : Progress} (hcost : openCost s.opened < n) (ht : s.Admits t)
    (hstep : s.step t = s') (hcost' : openCost s'.opened < n)
    (hsettle : ∀ p, o = .ok p → settle s'.opened = settle s.opened)
    (h : NestsTo n s' tokens o) : NestsTo n s (t :: tokens) o := by
  subst hstep
  have hpasses : s.Passes [t] := ⟨ht, trivial⟩
  exact NestsTo.append (Shallow.single hcost hcost') hpasses hsettle h

/-- A stage that goes on behind another one. -/
theorem NestsTo.bind {e : Expr} {behind : List Token} (hi : NestsTo n s tokens (.ok (e, behind)))
    (hf : NestsTo n ⟨.operator, settle s.opened⟩ behind o) : NestsTo n s tokens o := by
  obtain ⟨front, rfl, hshallow, hpasses, hafter⟩ := hi
  rw [← hafter] at hf
  apply NestsTo.append hshallow hpasses ?_ hf
  intro p _
  rw [hafter, settle_settle]

/-- An error behind a stage. -/
theorem NestsTo.wrong {e : Expr} {behind : List Token} (h : NestsTo n s tokens (.ok (e, behind)))
    (kind : ParseErrorKind) : NestsTo n s tokens (.error (.wrong kind behind)) := by
  obtain ⟨front, htokens, hshallow, -, -⟩ := h
  exact ⟨front, htokens, hshallow⟩

theorem NestsTo.wrong_here (hcost : openCost s.opened < n) (kind : ParseErrorKind) :
    NestsTo n s tokens (.error (.wrong kind tokens)) := ⟨[], rfl, Shallow.nil hcost⟩

/-- A sum in brackets, with what is open outside. -/
theorem NestsTo.bracket {opened : List Opener} {r : Token} {e : Expr} {behind : List Token}
    (ht : t.kind = .openBracket) (hr : r.kind = .closeBracket)
    (hcost : openCost (.bracket :: opened) < n)
    (h : NestsTo n ⟨.operand, .bracket :: opened⟩ tokens (.ok (e, r :: behind))) :
    NestsTo n ⟨.operand, opened⟩ (t :: tokens) (.ok (e, behind)) := by
  obtain ⟨inner, rfl, hshallow, hpasses, hafter⟩ := h
  have houter : openCost opened < n := by
    rw [openCost_cons] at hcost
    exact Nat.lt_of_le_of_lt (Nat.le_add_right _ _) hcost
  have hopen : after ⟨.operand, opened⟩ [t] = ⟨.operand, .bracket :: opened⟩ := step_open ht opened
  have hinner : after ⟨.operand, opened⟩ ([t] ++ inner) = ⟨.operator, .bracket :: opened⟩ := by
    rw [after_append, hopen, hafter]
    rfl
  have hclose := step_close hr opened
  refine ⟨([t] ++ inner) ++ [r], by simp, ?_, ?_, ?_⟩
  · apply Shallow.append
    · apply Shallow.append (Shallow.single houter ?_)
      · rw [hopen]
        exact hshallow
      · rw [step_open ht]
        exact hcost
    · rw [hinner]
      apply Shallow.single hcost
      rw [hclose]
      exact Nat.lt_of_le_of_lt (openCost_settle_le opened) houter
  · have hfirst : Passes ⟨.operand, opened⟩ [t] := ⟨.openBracket ht, trivial⟩
    have hlast : Passes ⟨.operator, .bracket :: opened⟩ [r] := ⟨.closeBracket hr, trivial⟩
    rw [← hopen] at hpasses
    rw [← hinner] at hlast
    exact (hfirst.append hpasses).append hlast
  · rw [after_append, hinner]
    exact hclose

end

/-- What is opened below the limit costs less than the limit. -/
theorem openCost_cons_lt {n : Nat} {o : Opener} {opened : List Opener}
    (h : reaches (some n) (openCost opened + o.cost) = false) : openCost (o :: opened) < n := by
  rw [openCost_cons, ← Nat.not_le]
  simpa [reaches] using h

/-- What is opened where the limit is reached costs as much. -/
theorem le_openCost_cons {n : Nat} {o : Opener} {opened : List Opener}
    (h : reaches (some n) (openCost opened + o.cost) = true) : n ≤ openCost (o :: opened) := by
  rw [openCost_cons]
  simpa [reaches] using h

open Progress in
/-- Reading gives up exactly where the cost of what is open reaches the limit.  What is
open is what the stage has been entered with; only a primary can be entered with signs
that are not settled. -/
theorem Reads.nestsTo {n cost : Nat} {stage : Stage} {tokens : List Token}
    {o : Except Halt (Expr × List Token)} (h : Reads (some n) cost stage tokens o) :
    ∀ opened, openCost opened = cost → openCost opened < n →
      (stage ≠ .due .primary → settle opened = opened) →
        NestsTo n ⟨stage.expecting, opened⟩ tokens o := by
  induction h with
  | ended =>
    rintro opened rfl hlt -
    exact .wrong_here hlt _
  | @number cost t rest value ht =>
    rintro opened rfl hlt -
    have hstep := step_number ht opened
    have hsettled : openCost (step ⟨.operand, opened⟩ t).opened < n := by
      rw [hstep]
      exact Nat.lt_of_le_of_lt (openCost_settle_le opened) hlt
    exact ⟨[t], rfl, Shallow.single hlt hsettled, ⟨.number ht, trivial⟩, hstep⟩
  | closing ht =>
    rintro opened rfl hlt -
    exact .wrong_here hlt _
  | stray ht hs =>
    rintro opened rfl hlt -
    exact .wrong_here hlt _
  | @bracketDeep cost t rest ht hd =>
    rintro opened rfl hlt -
    refine ⟨[t], rest, rfl, ⟨.openBracket ht, trivial⟩, ?_⟩
    show n ≤ openCost (step ⟨.operand, opened⟩ t).opened
    rw [step_open ht]
    exact le_openCost_cons hd
  | @bracketHalt cost t rest halt ht hd hi ih =>
    rintro opened rfl hlt -
    have hcost : openCost (.bracket :: opened) < n := openCost_cons_lt hd
    have hinner := ih (.bracket :: opened) (openCost_cons _ _) hcost fun _ => rfl
    exact .cons hlt (.openBracket ht) (step_open ht opened) hcost nofun hinner
  | @bracketOpen cost t rest behind e ht hd hi hc ih =>
    rintro opened rfl hlt -
    have hcost : openCost (.bracket :: opened) < n := openCost_cons_lt hd
    have hinner := ih (.bracket :: opened) (openCost_cons _ _) hcost fun _ => rfl
    exact .cons hlt (.openBracket ht) (step_open ht opened) hcost nofun (hinner.wrong _)
  | @bracket cost t r rest behind e ht hd hi hr ih =>
    rintro opened rfl hlt -
    have hcost : openCost (.bracket :: opened) < n := openCost_cons_lt hd
    exact .bracket ht hr hcost (ih (.bracket :: opened) (openCost_cons _ _) hcost fun _ => rfl)
  | @signDeep cost t rest s ht hs hd =>
    rintro opened rfl hlt -
    refine ⟨[t], rest, rfl, ⟨.sign ht hs, trivial⟩, ?_⟩
    show n ≤ openCost (step ⟨.operand, opened⟩ t).opened
    rw [step_sign ht]
    exact le_openCost_cons hd
  | @signHalt cost t rest s halt ht hs hd hi ih =>
    rintro opened rfl hlt -
    have hcost : openCost (.sign :: opened) < n := openCost_cons_lt hd
    have hoperand := ih (.sign :: opened) (openCost_cons _ _) hcost fun hne => absurd rfl hne
    exact .cons hlt (.sign ht hs) (step_sign ht opened) hcost nofun hoperand
  | @signed cost t rest behind s e ht hs hd hi ih =>
    rintro opened rfl hlt -
    have hcost : openCost (.sign :: opened) < n := openCost_cons_lt hd
    have hoperand := ih (.sign :: opened) (openCost_cons _ _) hcost fun hne => absurd rfl hne
    -- the sign is done with where its operand is
    exact NestsTo.cons (o := .ok (e, behind)) hlt (.sign ht hs) (step_sign ht opened) hcost
      (fun _ _ => settle_sign opened) hoperand
  | @chainHalt cost level tokens halt hi ih =>
    intro opened hopened hlt hsettled
    exact ih opened hopened hlt fun _ => hsettled nofun
  | @chain cost level tokens behind left outcome hi hf ihi ihf =>
    intro opened hopened hlt hsettled
    have hsame : settle opened = opened := hsettled nofun
    refine NestsTo.bind (ihi opened hopened hlt fun _ => hsame) ?_
    rw [hsame]
    exact ihf opened hopened hlt fun _ => hsame
  | stop hs =>
    intro opened hopened hlt hsettled
    refine ⟨[], rfl, Shallow.nil hlt, trivial, ?_⟩
    rw [hsettled nofun]
    rfl
  | @linkHalt cost level left t rest op halt ht hi ih =>
    intro opened hopened hlt hsettled
    have hlink := isLink_of_operator? ht
    have hoperand := ih opened hopened hlt fun _ => hsettled nofun
    exact .cons hlt (.link hlink) (step_link hlink opened) hlt nofun hoperand
  | @link cost level left right t rest behind op outcome ht hi hf ihi ihf =>
    intro opened hopened hlt hsettled
    have hlink := isLink_of_operator? ht
    have hsame : settle opened = opened := hsettled nofun
    have hoperand := ihi opened hopened hlt fun _ => hsame
    have hrest : NestsTo n ⟨.operator, settle opened⟩ behind outcome := by
      rw [hsame]
      exact ihf opened hopened hlt fun _ => hsame
    exact .cons hlt (.link hlink) (step_link hlink opened) hlt (fun _ _ => rfl)
      (hoperand.bind hrest)

/-! ### Reading all tokens -/

/-- The error that reading without a limit finds is the first one of the count. -/
theorem index_of_parseWithin_none {tokens : List Token} {error : ParseError}
    (h : parseWithin none tokens = .error (.error error)) :
    ∃ kind rest, firstError .operand 0 tokens = some (kind, rest) ∧
      error.index = tokens.length - rest.length := by
  have hreports := parseWithin_none_reports tokens
  rw [h] at hreports
  cases hfound : firstError .operand 0 tokens with
  | none =>
    rw [hfound] at hreports
    obtain ⟨e, he⟩ := hreports
    cases he
  | some found =>
    rw [hfound] at hreports
    have hat : error = ⟨tokens, found.1, tokens.length - found.2.length⟩ :=
      ParseFailure.error.inj (Except.error.inj hreports)
    exact ⟨found.1, found.2, rfl, by rw [hat]⟩

/-- An error does not stand among tokens that can come. -/
theorem Progress.Passes.length_le_index {front rest : List Token} {error : ParseError}
    (h : Progress.start.Passes front)
    (herror : parseWithin none (front ++ rest) = .error (.error error)) :
    front.length ≤ error.index := by
  obtain ⟨kind, behind, hfound, hindex⟩ := index_of_parseWithin_none herror
  have hcount := h.firstError_eq rest
  rw [show firstError Progress.start.expecting Progress.start.depth (front ++ rest) =
    some (kind, behind) from hfound] at hcount
  -- it stands among the others
  obtain ⟨between, hrest, -⟩ := firstError_split rest _ _ kind behind hcount.symm
  rw [hindex, hrest, List.length_append, List.length_append]
  omega

/-- Tokens that are not nested too deeply are shallow up to the first error, or to their
end. -/
theorem exists_shallow {n : Nat} {tokens : List Token} (hn : 0 < n)
    (h : parseWithin (some n) tokens ≠ .error .tooDeep) :
    ∃ front rest, tokens = front ++ rest ∧ Progress.start.Shallow n front ∧
      (rest = [] ∨ ∃ error, parseWithin none tokens = .error (.error error) ∧
        error.index = front.length) := by
  obtain ⟨o, hr, heq⟩ := exists_reads (some n) tokens
  have hnests : NestsTo n Progress.start tokens o := hr.nestsTo [] rfl hn fun _ => rfl
  have hsame := parseWithin_withoutLimit h
  rw [heq] at hsame
  match o, hnests, hsame with
  | .error .tooDeep, _, _ => exact absurd heq h
  | .error (.wrong kind rest), hnests, hsame =>
    obtain ⟨front, rfl, hshallow⟩ := hnests
    refine ⟨front, rest, rfl, hshallow, Or.inr ⟨_, hsame.symm, ?_⟩⟩
    rw [List.length_append, Nat.add_sub_cancel]
  | .ok (e, []), hnests, _ =>
    obtain ⟨front, rfl, hshallow, -, -⟩ := hnests
    exact ⟨front, [], rfl, hshallow, Or.inl rfl⟩
  | .ok (e, t :: rest), hnests, hsame =>
    obtain ⟨front, rfl, hshallow, -, -⟩ := hnests
    refine ⟨front, t :: rest, rfl, hshallow, Or.inr ⟨_, hsame.symm, ?_⟩⟩
    rw [List.length_append, Nat.add_sub_cancel]

/-- Tokens that are nested too deeply reach the limit, before any error. -/
theorem exists_deep {n : Nat} {tokens : List Token} (hn : 0 < n)
    (h : parseWithin (some n) tokens = .error .tooDeep) :
    ∃ front rest, tokens = front ++ rest ∧ Progress.start.Passes front ∧
      n ≤ nestingCost front := by
  obtain ⟨o, hr, heq⟩ := exists_reads (some n) tokens
  rw [heq, finish_eq_tooDeep_iff] at h
  subst h
  exact hr.nestsTo [] rfl hn fun _ => rfl

/-- Reading gives up within a limit when the tokens up to some place, before any error,
cost as much. -/
theorem parseWithin_eq_tooDeep_iff {n : Nat} (hn : 0 < n) (tokens : List Token) :
    parseWithin (some n) tokens = .error .tooDeep ↔
      ∃ k, (∀ error, parseWithin none tokens = .error (.error error) → k ≤ error.index) ∧
        n ≤ nestingCost (tokens.take k) := by
  constructor
  · intro hdeep
    obtain ⟨front, rest, rfl, hpasses, hcost⟩ := exists_deep hn hdeep
    refine ⟨front.length, ?_, ?_⟩
    · intro error herror
      exact hpasses.length_le_index herror
    · rw [List.take_left]
      exact hcost
  · rintro ⟨k, hindex, hcost⟩
    by_cases hdeep : parseWithin (some n) tokens = .error .tooDeep
    · exact hdeep
    · -- then the tokens up to that place are shallow
      obtain ⟨front, rest, rfl, hshallow, hend⟩ := exists_shallow hn hdeep
      have htake : (front ++ rest).take k = front.take k := by
        rcases hend with rfl | ⟨error, herror, hlength⟩
        · rw [List.append_nil]
        · exact List.take_append_of_le_length (hlength ▸ hindex error herror)
      rw [htake] at hcost
      exact absurd (hshallow k) (Nat.not_lt.2 hcost)

end Calculator
