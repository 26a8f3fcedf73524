import Calculator.Proofs.Shortest
import Calculator.Proofs.Unplaced

/-!
# What is answered

An answer is made from a verdict and a calculation, each of which reads the line by
itself.  They agree: the calculation of a line found invalid fails with an error to
report, that of a valid line has a value or divides by zero, and a value can be shown
unless the place to round to is too far before the point.  So every line is answered, and
what the answer says is what the stages of the calculation say.

## Main definitions

* `tokensBefore settings source` — the tokens, on a line before the answer.
* `StageReport source report` — the report of the stage of reading that fails.

## Main results

* `value_cases` — how verdict and calculation agree.
* `answer_of_value`, `answer_of_divisionByZero`, `answer_of_invalid` — the answer in
  each case.
* `exists_display` — values that can be shown.
* `answer_always` — **every line is answered, and how**.
-/

namespace Calculator

variable {settings : Settings} {source : String}

/-! ### The tokens before an answer -/

/-- The tokens on a line before the answer, if they are wanted and there are any. -/
def tokensBefore (settings : Settings) (source : String) : String :=
  String.join ((tokenLines settings source).map (· ++ "\n"))

theorem tokensBefore_of_scan {tokens : List Token} (hshow : settings.showTokens = true)
    (hscan : scan source = .ok tokens) :
    tokensBefore settings source = "tokens: " ++ renderTokens tokens ++ "\n" := by
  simp [tokensBefore, tokenLines, hshow, hscan]

theorem tokensBefore_of_not
    (h : ¬ (settings.showTokens = true ∧ ∃ tokens, scan source = .ok tokens)) :
    tokensBefore settings source = "" := by
  cases hshow : settings.showTokens with
  | false => simp [tokensBefore, tokenLines, hshow]
  | true =>
    cases hscan : scan source with
    | error e => simp [tokensBefore, tokenLines, hshow, hscan]
    | ok tokens => exact absurd ⟨hshow, tokens, hscan⟩ h

theorem joinLines_append {lines : List String} (hlines : lines ≠ []) (before : List String) :
    joinLines (before ++ lines) = String.join (before.map (· ++ "\n")) ++ joinLines lines := by
  induction before with
  | nil => simp
  | cons line before ih =>
    have hrest : before ++ lines ≠ [] := by simp [hlines]
    rw [List.cons_append, joinLines, String.intercalate_cons_of_ne_nil hrest, ← joinLines, ih,
      List.map_cons, String.join_cons]
    simp only [String.append_assoc]

/-- The tokens come first. -/
theorem joinLines_tokenLines (line : String) (lines : List String) :
    joinLines (tokenLines settings source ++ line :: lines) =
      tokensBefore settings source ++ joinLines (line :: lines) :=
  joinLines_append (List.cons_ne_nil line lines) _

/-! ### Verdict and calculation -/

theorem value_isValid_iff : (isValid source).value = true ↔ Readable source :=
  (value_isValid source).trans validate_eq_ok_iff

/-- A valid line has a value or divides by zero; any other has an error to report. -/
theorem value_cases (source : String) :
    ((isValid source).value = true ∧
      ((∃ x, valueOf source = .ok x) ∨ valueOf source = .error (.reported .divisionByZero))) ∨
    ((isValid source).value = false ∧ ∃ e, e ≠ .divisionByZero ∧
      valueOf source = .error (.reported e)) := by
  by_cases hread : Readable source
  · exact Or.inl ⟨value_isValid_iff.2 hread, hread.valueOf_cases⟩
  · have hinvalid : (isValid source).value = false := by
      rwa [← Bool.not_eq_true, value_isValid_iff]
    rcases valueOf_of_not_readable hread with ⟨e, he⟩ | ⟨e, he⟩ | he
    · exact Or.inr ⟨hinvalid, _, by simp, he⟩
    · exact Or.inr ⟨hinvalid, _, by simp, he⟩
    · exact Or.inr ⟨hinvalid, _, by simp, he⟩

theorem isValid_of_value {x : Float} (h : valueOf source = .ok x) :
    (isValid source).value = true := by
  rcases value_cases source with ⟨hvalid, -⟩ | ⟨-, e, -, he⟩
  · exact hvalid
  · rw [h] at he
    cases he

theorem isValid_of_divisionByZero (h : valueOf source = .error (.reported .divisionByZero)) :
    (isValid source).value = true := by
  rcases value_cases source with ⟨hvalid, -⟩ | ⟨-, e, hne, he⟩
  · exact hvalid
  · rw [h] at he
    cases he
    exact absurd rfl hne

/-! ### The answer -/

/-- A line with a value is answered with the value as it is shown. -/
theorem answer_of_value {x : Float} (h : valueOf source = .ok x) :
    (answer settings source).value =
      match display settings.places x with
      | .error failure => .error (.display failure)
      | .ok text => .ok (tokensBefore settings source ++ text) := by
  rw [value_answer, isValid_of_value h, if_pos rfl, h, validLines]
  cases display settings.places x with
  | error failure => rfl
  | ok text => exact congrArg Except.ok (joinLines_tokenLines text [])

/-- A line that divides by zero is answered with that. -/
theorem answer_of_divisionByZero (h : valueOf source = .error (.reported .divisionByZero)) :
    (answer settings source).value =
      .ok (tokensBefore settings source ++ "Calculation error: Division by zero") := by
  rw [value_answer, isValid_of_divisionByZero h, if_pos rfl, h]
  exact congrArg Except.ok (joinLines_tokenLines _ [])

/-- A line that is not valid is answered with that and the report on its error. -/
theorem answer_of_invalid {e : ExpressionError} (hinvalid : (isValid source).value = false)
    (h : valueOf source = .error (.reported e)) :
    (answer settings source).value =
      .ok (tokensBefore settings source ++ ("Invalid expression" ++ "\n" ++ e.report)) := by
  rw [value_answer, hinvalid, if_neg Bool.false_ne_true, h]
  exact congrArg Except.ok (joinLines_tokenLines _ [e.report])

/-! ### What can be shown -/

/-- A value can be shown unless the place to round to is above the largest exponent; one
that is not finite can be shown whatever the place. -/
theorem exists_display {places : Int} {x : Float}
    (h : -Decimal.maxExponent ≤ places ∨ x.isFinite = false) :
    ∃ text, display places x = .ok text := by
  cases hx : x.isFinite with
  | false => exact ⟨errorText, display_of_not_isFinite hx places⟩
  | true =>
    have hplaces : -Decimal.maxExponent ≤ places := by simpa [hx] using h
    obtain ⟨d, hdisplay, -, -⟩ := exists_display_eq_text hx hplaces
    exact ⟨d.text, hdisplay⟩

/-! ### Every line is answered -/

/-- `StageReport source report`: the first stage of reading a text that fails reports
`report`. -/
inductive StageReport (source : String) : String → Prop
  /-- The text has no tokens. -/
  | scan {e : ScanError} (hs : scan source = .error e) : StageReport source e.report
  /-- The tokens have no tree. -/
  | parse {tokens : List Token} {e : ParseError} (hs : scan source = .ok tokens)
      (hp : parse tokens = .error (.error e)) : StageReport source e.report

/-- An error that comes before any division is that of a stage of reading. -/
theorem stageReport_of_value {e : ExpressionError}
    (hdepth : ∀ tokens, scan source = .ok tokens → parse tokens ≠ .error .tooDeep)
    (h : valueOf source = .error (.reported e)) (he : e ≠ .divisionByZero) :
    StageReport source e.report := by
  have htext : ∃ c ∈ source.toList, isBlank c = false := by
    by_contra hall
    have hblank : ∀ c ∈ source.toList, isBlank c = true := by simpa using hall
    rw [valueOf_blank hblank] at h
    cases h
  rcases valueOf_cases htext with ⟨x, -, hx⟩ | ⟨error, message, hfails, herror⟩
  · rw [hx] at h
    cases h
  · rw [herror] at h
    cases h
    cases hfails with
    | scan hs => exact .scan hs
    | parse hs hp => exact .parse hs hp
    | tooDeep hs hp => exact absurd hp (hdepth _ hs)
    | divisionByZero hs hp hv => exact absurd rfl he

/-- **Every line is answered.**  The tokens come first, if they are wanted and there are
any.  A line that is not valid is then called so, and the report of the stage that fails on
it follows; a valid line is answered with its value, or with its division by zero. -/
theorem answer_always
    (hdepth : ∀ tokens, scan source = .ok tokens → parse tokens ≠ .error .tooDeep)
    (hplaces : -999999 ≤ settings.places) :
    ∃ first rest, (answer settings source).value = .ok (first ++ rest) ∧
      (∀ tokens, settings.showTokens = true → scan source = .ok tokens →
        first = "tokens: " ++ renderTokens tokens ++ "\n") ∧
      (¬ (settings.showTokens = true ∧ ∃ tokens, scan source = .ok tokens) → first = "") ∧
      ((isValid source).value = false →
        ∃ report, StageReport source report ∧ rest = "Invalid expression" ++ "\n" ++ report) ∧
      ((isValid source).value = true →
        ((calculate source).value = .error (.reported .divisionByZero) ∧
          rest = "Calculation error: Division by zero") ∨
        ∃ x, (calculate source).value = .ok x ∧ display settings.places x = .ok rest) := by
  have hfirst : ∀ tokens, settings.showTokens = true → scan source = .ok tokens →
      tokensBefore settings source = "tokens: " ++ renderTokens tokens ++ "\n" :=
    fun _ => tokensBefore_of_scan
  rw [value_calculate]
  refine ⟨tokensBefore settings source, ?_⟩
  rcases value_cases source with ⟨hvalid, ⟨x, hx⟩ | hx⟩ | ⟨hinvalid, e, he, hx⟩
  · obtain ⟨text, htext⟩ := exists_display (x := x) (Or.inl hplaces)
    refine ⟨text, ?_, hfirst, tokensBefore_of_not, ?_, fun _ => Or.inr ⟨x, hx, htext⟩⟩
    · rw [answer_of_value hx, htext]
    · simp [hvalid]
  · exact ⟨_, answer_of_divisionByZero hx, hfirst, tokensBefore_of_not,
      by simp [hvalid], fun _ => Or.inl ⟨hx, rfl⟩⟩
  · exact ⟨_, answer_of_invalid hinvalid hx, hfirst, tokensBefore_of_not,
      fun _ => ⟨e.report, stageReport_of_value hdepth hx he, rfl⟩, by simp [hinvalid]⟩

/-- The tokens of `)(`. -/
def swappedBracketTokens : List Token := [⟨.closeBracket, ")", 0⟩, ⟨.openBracket, "(", 1⟩]

theorem answer_always_swappedBrackets :
    (∀ tokens, scan ")(" = .ok tokens → parse tokens ≠ .error .tooDeep) ∧
    (-999999 : Int) ≤ -3 ∧ (isValid ")(").value = false ∧
    ∃ report, StageReport ")(" report ∧ (answer ⟨-3, true⟩ ")(").value =
      .ok ("tokens: " ++ ") (" ++ "\n" ++ ("Invalid expression" ++ "\n" ++ report)) := by
  have hscan : scan ")(" = .ok swappedBracketTokens := by decide +kernel
  have hparse : parse swappedBracketTokens =
      .error (.error ⟨swappedBracketTokens, .unexpectedToken ")", 0⟩) := by cbv
  have hdepth : ∀ tokens, scan ")(" = .ok tokens → parse tokens ≠ .error .tooDeep := by
    intro tokens htokens
    obtain rfl := Except.ok.inj (hscan.symm.trans htokens)
    simp [hparse]
  have hplaces : (-999999 : Int) ≤ -3 := by decide
  have hinvalid : (isValid ")(").value = false := by decide +kernel
  have hrender : renderTokens swappedBracketTokens = ") (" := by decide +kernel
  obtain ⟨first, rest, hanswer, hshown, -, hreport, -⟩ :=
    @answer_always ⟨-3, true⟩ ")(" hdepth hplaces
  obtain ⟨report, hstage, rfl⟩ := hreport hinvalid
  rw [hshown _ rfl hscan, hrender] at hanswer
  exact ⟨hdepth, hplaces, hinvalid, report, hstage, hanswer⟩

end Calculator
