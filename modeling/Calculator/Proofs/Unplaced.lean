import Calculator.Answer
import Calculator.Proofs.Outcome
import Calculator.Proofs.Verdict

/-!
# Places make no difference

A token knows where it was found, and the place is told to nobody: what is made of
tokens, the tree, the error and its report, depends on their kinds and lexemes alone.
So two texts whose tokens differ in their places only have the same answers.

## Main definitions

* `Token.unplaced` — a token without its place.
* `Halt.unplaced`, `ParseFailure.unplaced`, `Failure.unplaced` — the same for what keeps
  tokens.

## Main results

* `Reads.unplaced`, `parseWithin_unplaced` — reading, by the rules and for all tokens.
* `ParseError.report_unplaced` — reports.
* `valueOf_congr`, `answer_congr` — **texts with the same tokens, places apart, have the
  same answers**.
-/

namespace Calculator

/-- A token without its place. -/
def Token.unplaced (t : Token) : Token := { t with position := 0 }

/-- A reason to stop, without places. -/
def Halt.unplaced : Halt → Halt
  | .wrong kind rest => .wrong kind (rest.map Token.unplaced)
  | .tooDeep => .tooDeep

/-- The outcome of a stage, without places. -/
def outcomeUnplaced : Except Halt (Expr × List Token) → Except Halt (Expr × List Token)
  | .error halt => .error halt.unplaced
  | .ok (e, behind) => .ok (e, behind.map Token.unplaced)

/-- An error among tokens, without places. -/
def ParseError.unplaced (e : ParseError) : ParseError :=
  { e with tokens := e.tokens.map Token.unplaced }

/-- A failure to read tokens, without places. -/
def ParseFailure.unplaced : ParseFailure → ParseFailure
  | .error e => .error e.unplaced
  | .tooDeep => .tooDeep

/-- The failure of a calculation, without the places of tokens. -/
def Failure.unplaced : Failure → Failure
  | .reported (.parse e) => .reported (.parse e.unplaced)
  | failure => failure

variable {limit : Option Nat} {tokens tokens' : List Token} {source source' : String}

/-! ### Reading -/

@[simp] theorem Level.operator?_unplaced (level : Level) (t : Token) :
    level.operator? t.unplaced = level.operator? t := rfl

theorem Level.StopsAt.unplaced {level : Level} (h : level.StopsAt tokens) :
    level.StopsAt (tokens.map Token.unplaced) := by
  cases tokens with
  | nil => exact level.stopsAt_nil
  | cons t tokens =>
    rw [List.map_cons, Level.stopsAt_cons, Level.operator?_unplaced]
    exact (Level.stopsAt_cons level t tokens).1 h

/-- Every rule of reading holds without places as well. -/
theorem Reads.unplaced {cost : Nat} {stage : Stage} {o : Except Halt (Expr × List Token)}
    (h : Reads limit cost stage tokens o) :
    Reads limit cost stage (tokens.map Token.unplaced) (outcomeUnplaced o) := by
  induction h with
  | ended => exact .ended
  | number ht => exact .number ht
  | closing ht => exact .closing ht
  | stray ht hs => exact .stray ht hs
  | bracketDeep ht hd => exact .bracketDeep ht hd
  | bracketHalt ht hd hi ih => exact .bracketHalt ht hd ih
  | @bracketOpen cost t rest behind e ht hd hi hc ih =>
    have hopen : ∀ r ∈ (behind.map Token.unplaced).head?, r.kind ≠ .closeBracket := by
      intro r hr
      rw [List.head?_map] at hr
      obtain ⟨a, ha, rfl⟩ := Option.map_eq_some_iff.1 hr
      exact hc a ha
    exact .bracketOpen ht hd ih hopen
  | bracket ht hd hi hr ih => exact .bracket ht hd ih hr
  | signDeep ht hs hd => exact .signDeep ht hs hd
  | signHalt ht hs hd hi ih => exact .signHalt ht hs hd ih
  | signed ht hs hd hi ih => exact .signed ht hs hd ih
  | chainHalt hi ih => exact .chainHalt ih
  | chain hi hf ihi ihf => exact .chain ihi ihf
  | stop hs => exact .stop hs.unplaced
  | linkHalt ht hi ih => exact .linkHalt ht ih
  | link ht hi hf ihi ihf => exact .link ht ihi ihf

theorem ParseFailure.unplaced_at (tokens : List Token) (kind : ParseErrorKind)
    (rest : List Token) :
    ParseFailure.at (tokens.map Token.unplaced) kind (rest.map Token.unplaced) =
      (ParseFailure.at tokens kind rest).unplaced := by
  rw [ParseFailure.at, ParseFailure.at, List.length_map, List.length_map]
  rfl

theorem finish_unplaced (tokens : List Token) (o : Except Halt (Expr × List Token)) :
    finish (tokens.map Token.unplaced) (outcomeUnplaced o) =
      (finish tokens o).mapError ParseFailure.unplaced := by
  match o with
  | .error .tooDeep => rfl
  | .error (.wrong kind rest) =>
    exact congrArg Except.error (ParseFailure.unplaced_at tokens kind rest)
  | .ok (e, []) => rfl
  | .ok (e, t :: rest) =>
    exact congrArg Except.error
      (ParseFailure.unplaced_at tokens (.trailingInput t.lexeme) (t :: rest))

/-- All tokens make the same without their places. -/
theorem parseWithin_unplaced (limit : Option Nat) (tokens : List Token) :
    parseWithin limit (tokens.map Token.unplaced) =
      (parseWithin limit tokens).mapError ParseFailure.unplaced := by
  obtain ⟨o, hr, heq⟩ := exists_reads limit tokens
  rw [heq, hr.unplaced.parseWithin_eq, finish_unplaced]

/-! ### Reports -/

@[simp] theorem renderTokens_unplaced (tokens : List Token) :
    renderTokens (tokens.map Token.unplaced) = renderTokens tokens := by
  rw [renderTokens, renderTokens, joined, joined, List.map_map]
  rfl

theorem caretColumn_unplaced (tokens : List Token) (index : Int) :
    caretColumn (tokens.map Token.unplaced) index = caretColumn tokens index := by
  have hslice : slice 0 index (tokens.map Token.unplaced) =
      (slice 0 index tokens).map Token.unplaced := by
    rw [slice, slice, List.length_map, List.map_drop, List.map_take]
  rw [caretColumn, caretColumn, hslice, renderTokens_unplaced]

/-- The report on an error tells no places. -/
@[simp] theorem ParseError.report_unplaced (e : ParseError) : e.unplaced.report = e.report := by
  rw [report, report, parseReport, parseReport, unplaced, renderTokens_unplaced,
    caretColumn_unplaced]
  rfl

/-! ### Values -/

/-- The value that tokens have. -/
def valueOfTokens (tokens : List Token) : Except Failure Float :=
  match parse tokens with
  | .error failure => .error (.ofParse failure)
  | .ok tree => (evaluateExpr tree).mapError Failure.ofFault

/-- White space has no tokens. -/
theorem scanFrom_blank {cs : List Char} (h : ∀ c ∈ cs, isBlank c = true) (position : Nat) :
    scanFrom position cs = .ok [] := by
  induction cs generalizing position with
  | nil => exact scanFrom_nil position
  | cons c cs ih =>
    obtain ⟨hc, h⟩ := List.forall_mem_cons.1 h
    rw [scanFrom_cons_of_isBlank hc, ih h]

/-- A text without tokens is white space, and white space has none. -/
theorem allBlank_iff_of_scan (h : scan source = .ok tokens) :
    allBlank source.toList = true ↔ tokens = [] := by
  rw [scan, mapError_eq_ok] at h
  rw [allBlank_iff]
  constructor
  · intro hblank
    rw [scanFrom_blank hblank] at h
    exact (Except.ok.inj h).symm
  · rintro rfl
    exact isBlank_of_scanFrom_nil h

/-- The value of a text is that of its tokens, if it has any. -/
theorem valueOf_of_scan (h : scan source = .ok tokens) :
    valueOf source = if tokens = [] then .ok 0 else valueOfTokens tokens := by
  rw [valueOf, h]
  by_cases hnil : tokens = []
  · rw [if_pos ((allBlank_iff_of_scan h).2 hnil), if_pos hnil]
  · rw [if_neg (fun hblank => hnil ((allBlank_iff_of_scan h).1 hblank)), if_neg hnil]
    rfl

theorem valueOfTokens_unplaced (tokens : List Token) :
    valueOfTokens (tokens.map Token.unplaced) =
      (valueOfTokens tokens).mapError Failure.unplaced := by
  rw [valueOfTokens, valueOfTokens, parse, parse, parseWithin_unplaced]
  cases parseWithin (some nestingLimit) tokens with
  | error failure => cases failure <;> rfl
  | ok tree =>
    show (evaluateExpr tree).mapError _ = ((evaluateExpr tree).mapError _).mapError _
    cases evaluateExpr tree with
    | ok x => rfl
    | error fault => cases fault <;> rfl

/-- Texts with the same tokens, places apart, have the same values. -/
theorem valueOf_congr (h : scan source = .ok tokens) (h' : scan source' = .ok tokens')
    (htokens : tokens'.map Token.unplaced = tokens.map Token.unplaced) :
    (valueOf source').mapError Failure.unplaced = (valueOf source).mapError Failure.unplaced := by
  rw [valueOf_of_scan h, valueOf_of_scan h']
  cases tokens with
  | nil =>
    obtain rfl : tokens' = [] := List.map_eq_nil_iff.1 htokens
    rfl
  | cons t tokens =>
    have hne : tokens' ≠ [] := by
      rintro rfl
      cases htokens
    rw [if_neg hne, if_neg (List.cons_ne_nil t tokens), ← valueOfTokens_unplaced, htokens,
      valueOfTokens_unplaced]

/-! ### Answers -/

/-- A text that has tokens can be read when there are none, or when they have a tree. -/
theorem readable_iff_of_scan (h : scan source = .ok tokens) :
    Readable source ↔ tokens = [] ∨ ∃ e, parse tokens = .ok e := by
  rw [Readable, allBlank_iff_of_scan h, h]
  apply or_congr_right
  constructor
  · rintro ⟨found, e, hfound, he⟩
    obtain rfl := Except.ok.inj hfound
    exact ⟨e, he⟩
  · rintro ⟨e, he⟩
    exact ⟨tokens, e, rfl, he⟩

theorem parse_eq_ok_unplaced (tokens : List Token) (e : Expr) :
    parse (tokens.map Token.unplaced) = .ok e ↔ parse tokens = .ok e := by
  rw [parse, parse, parseWithin_unplaced, mapError_eq_ok]

/-- Texts with the same tokens, places apart, are valid together. -/
theorem isValid_congr (h : scan source = .ok tokens) (h' : scan source' = .ok tokens')
    (htokens : tokens'.map Token.unplaced = tokens.map Token.unplaced) :
    (isValid source').value = (isValid source).value := by
  have hnil : tokens' = [] ↔ tokens = [] := by
    rw [← List.map_eq_nil_iff (f := Token.unplaced), htokens, List.map_eq_nil_iff]
  have htree : ∀ e, parse tokens' = .ok e ↔ parse tokens = .ok e := by
    intro e
    rw [← parse_eq_ok_unplaced, htokens, parse_eq_ok_unplaced]
  rw [Bool.eq_iff_iff, value_isValid, value_isValid, validate_eq_ok_iff, validate_eq_ok_iff,
    readable_iff_of_scan h, readable_iff_of_scan h', hnil, exists_congr htree]

theorem invalidLines_unplaced (result : Except Failure Float) :
    invalidLines (result.mapError Failure.unplaced) = invalidLines result := by
  match result with
  | .ok x => rfl
  | .error (.broken fault) => rfl
  | .error (.reported (.scan e)) => rfl
  | .error (.reported .tooDeep) => rfl
  | .error (.reported .divisionByZero) => rfl
  | .error (.reported (.parse e)) =>
    show Except.ok [invalidText, e.unplaced.report] = Except.ok [invalidText, e.report]
    rw [e.report_unplaced]

theorem validLines_unplaced (settings : Settings) (result : Except Failure Float) :
    validLines settings (result.mapError Failure.unplaced) = validLines settings result := by
  match result with
  | .ok x => rfl
  | .error (.broken fault) => rfl
  | .error (.reported e) => cases e <;> rfl

/-- What is answered, from the verdict and the value. -/
theorem value_answer (settings : Settings) (source : String) :
    (answer settings source).value =
      (if (isValid source).value then validLines settings (valueOf source)
        else invalidLines (valueOf source)).map
          fun lines => joinLines (tokenLines settings source ++ lines) := by
  rw [answer]
  simp

/-- Texts with the same tokens, places apart, have the same answers. -/
theorem answer_congr (h : scan source = .ok tokens) (h' : scan source' = .ok tokens')
    (htokens : tokens'.map Token.unplaced = tokens.map Token.unplaced) (settings : Settings) :
    (answer settings source').value = (answer settings source).value := by
  have hlines : tokenLines settings source' = tokenLines settings source := by
    rw [tokenLines, tokenLines, h, h']
    simp only [← renderTokens_unplaced tokens', htokens, renderTokens_unplaced]
  have hvalue := valueOf_congr h h' htokens
  rw [value_answer, value_answer, isValid_congr h h' htokens, hlines,
    ← validLines_unplaced settings (valueOf source'), ← invalidLines_unplaced (valueOf source'),
    hvalue, validLines_unplaced, invalidLines_unplaced]

end Calculator
