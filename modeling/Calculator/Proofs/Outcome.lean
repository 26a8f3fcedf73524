import Calculator.Proofs.Evaluation
import Calculator.Proofs.Lexeme

/-!
# How calculations end

A calculation ends with a value, or with the error of the first of its steps that
fails; it never ends in any other way.  The other ends that its steps can have by
themselves are out of reach: white space apart, every text has tokens, every number
among them is written as a literal should be, and a tree that was read is well formed,
so that division by zero is the only fault of its evaluation.

## Main definitions

* `IsNumeral` — how a number literal is written.
* `FailsWith source error message` — the first step that fails, and its message.
* `ComesTo source x` — no step fails, and the last one gives `x`.

## Main results

* `scan_ne_nil` — text has tokens, unless it is blank.
* `isNumeral_of_scan` — numbers among tokens are literals.
* `Derives.fault_eq` — a tree that was read can only divide by zero.
* `calculate_ends` — how calculations end.
-/

namespace Calculator

/-! ### Text without tokens -/

/-- Only white space is scanned without finding a token. -/
theorem isBlank_of_scanFrom_nil {position : Nat} {cs : List Char} :
    scanFrom position cs = .ok [] → ∀ c ∈ cs, isBlank c = true := by
  fun_induction scanFrom position cs with
  | case1 position => simp
  | case2 position c rest hc hvalue =>
    intro h
    cases h
  | case3 position c rest hc run value hvalue =>
    intro h
    obtain ⟨others, -, hnil⟩ := map_cons_eq_ok h
    cases hnil
  | case4 position c rest hc kind hkind ih =>
    intro h
    obtain ⟨others, -, hnil⟩ := map_cons_eq_ok h
    cases hnil
  | case5 position c rest hc hkind hblank ih =>
    intro h
    exact List.forall_mem_cons.2 ⟨hblank, ih h⟩
  | case6 position c rest hc hkind hblank =>
    intro h
    cases h

/-- Text has tokens, unless it is blank. -/
theorem scan_ne_nil {source : String} {tokens : List Token} (h : scan source = .ok tokens)
    (hsource : ∃ c ∈ source.toList, isBlank c = false) : tokens ≠ [] := by
  rintro rfl
  obtain ⟨c, hc, hblank⟩ := hsource
  rw [scan, mapError_eq_ok] at h
  rw [isBlank_of_scanFrom_nil h c hc] at hblank
  cases hblank

/-! ### Number literals -/

/-- A number literal is written with digits before a point, behind it, or both; the
point may be left out where no digits follow. -/
def IsNumeral (text : List Char) : Prop :=
  ∃ whole fraction : List Char, (∀ c ∈ whole ++ fraction, c.isDigit = true) ∧
    whole ++ fraction ≠ [] ∧
    (text = whole ++ decimalPoint :: fraction ∨ (text = whole ∧ fraction = []))

/-- A run of literal characters that is read as a number is written as it should be. -/
theorem isNumeral_of_isLiteral {run : List Char} (hne : run ≠ [])
    (hrun : ∀ c ∈ run, isLiteralChar c = true) (h : IsLiteral run) : IsNumeral run := by
  obtain ⟨hcount, hpoint⟩ := h
  by_cases hmem : decimalPoint ∈ run
  · obtain ⟨whole, fraction, rfl⟩ := List.append_of_mem hmem
    -- the one point is between the two parts, so neither has any
    rw [List.count_append, List.count_cons_self] at hcount
    have hwhole : decimalPoint ∉ whole := List.count_eq_zero.1 (by omega)
    have hfraction : decimalPoint ∉ fraction := List.count_eq_zero.1 (by omega)
    refine ⟨whole, fraction, fun c hc => ?_, fun hnil => ?_, Or.inl rfl⟩
    · rcases List.mem_append.1 hc with hc | hc
      · exact isDigit_of_isLiteralChar (hrun c (by simp [hc])) (ne_of_mem_of_not_mem hc hwhole)
      · exact isDigit_of_isLiteralChar (hrun c (by simp [hc])) (ne_of_mem_of_not_mem hc hfraction)
    · obtain ⟨rfl, rfl⟩ := List.append_eq_nil_iff.1 hnil
      exact hpoint rfl
  · refine ⟨run, [], fun c hc => ?_, by simpa using hne, Or.inr ⟨rfl, rfl⟩⟩
    rw [List.append_nil] at hc
    exact isDigit_of_isLiteralChar (hrun c hc) (ne_of_mem_of_not_mem hc hmem)

/-- Numbers among tokens are literals. -/
theorem isNumeral_of_scan {source : String} {tokens : List Token}
    (h : scan source = .ok tokens) {t : Token} (ht : t ∈ tokens) {value : Float}
    (hkind : t.kind = .number value) : IsNumeral t.lexeme.toList := by
  cases scan_lexed h t ht with
  | number hne hrun hvalue =>
    rw [String.toList_ofList]
    exact isNumeral_of_isLiteral hne hrun (isLiteral_of_literal? hvalue)
  | symbol hc =>
    -- no number is a symbol
    cases hkind
    rcases symbolKind?_cases hc with ⟨-, hk⟩ | ⟨-, hk⟩ | ⟨-, hk⟩ <;> cases hk

/-! ### Faults -/

/-- A tree that was read can only divide by zero. -/
theorem Derives.fault_eq {phrase : Phrase} {tokens : List Token} {e : Expr} {fault : Fault}
    (h : Derives phrase tokens e) (hfault : evaluateExpr e = .error fault) :
    fault = .divisionByZero := by
  rw [evaluateExpr_eq_value] at hfault
  rcases h.wellFormed.value_cases with ⟨x, hx⟩ | hx
  · rw [hx] at hfault
    cases hfault
  · rw [hx] at hfault
    cases hfault
    rfl

/-! ### The end of a calculation -/

/-- `FailsWith source error message` says which step of the calculation is the first to
fail, and with which message.  A step is only taken if those before it succeed. -/
inductive FailsWith (source : String) : ExpressionError → String → Prop
  -- the text has no tokens
  | scan {e : ScanError} (hs : scan source = .error e) : FailsWith source (.scan e) e.message
  -- the tokens have no tree
  | parse {tokens : List Token} {e : ParseError} (hs : scan source = .ok tokens)
      (hp : parse tokens = .error (.error e)) : FailsWith source (.parse e) e.message
  -- the tree is too deep
  | tooDeep {tokens : List Token} (hs : scan source = .ok tokens)
      (hp : parse tokens = .error .tooDeep) :
      FailsWith source .tooDeep "Expression is nested too deeply"
  -- the tree has no value
  | divisionByZero {tokens : List Token} {tree : Expr} (hs : scan source = .ok tokens)
      (hp : parse tokens = .ok tree) (hv : evaluateExpr tree = .error .divisionByZero) :
      FailsWith source .divisionByZero "Division by zero"

/-- No step of the calculation fails, and the last one gives `x`. -/
def ComesTo (source : String) (x : Float) : Prop :=
  ∃ tokens tree, scan source = .ok tokens ∧ parse tokens = .ok tree ∧ evaluateExpr tree = .ok x

/-- The message of an error is that of the step that failed. -/
theorem FailsWith.message_eq {source : String} {error : ExpressionError} {message : String}
    (h : FailsWith source error message) : error.message = message := by
  cases h <;> rfl

theorem valueOf_blank {source : String} (h : ∀ c ∈ source.toList, isBlank c = true) :
    valueOf source = .ok 0 := by
  rw [valueOf, if_pos (allBlank_iff.2 h)]

/-- Unless it is blank, an expression has the value that its steps come to, or the
error of the first step that fails. -/
theorem valueOf_cases {source : String} (h : ∃ c ∈ source.toList, isBlank c = false) :
    (∃ x, ComesTo source x ∧ valueOf source = .ok x) ∨
      ∃ error message, FailsWith source error message ∧
        valueOf source = .error (.reported error) := by
  obtain ⟨c, hc, hblank⟩ := h
  have hnot : ¬ allBlank source.toList = true := fun hall => by
    rw [allBlank_iff.1 hall c hc] at hblank
    cases hblank
  rw [valueOf, if_neg hnot]
  cases hs : scan source with
  | error e => exact Or.inr ⟨_, _, .scan hs, rfl⟩
  | ok tokens =>
    cases hp : parse tokens with
    | error failure =>
      cases failure with
      | error e => exact Or.inr ⟨_, _, .parse hs hp, by simp only [hp]; rfl⟩
      | tooDeep => exact Or.inr ⟨_, _, .tooDeep hs hp, by simp only [hp]; rfl⟩
    | ok tree =>
      cases hv : evaluateExpr tree with
      | ok x => exact Or.inl ⟨x, ⟨tokens, tree, hs, hp, hv⟩, by simp only [hp, hv]; rfl⟩
      | error fault =>
        obtain rfl := (derives_of_parseWithin hp).fault_eq hv
        exact Or.inr ⟨_, _, .divisionByZero hs hp hv, by simp only [hp, hv]; rfl⟩

/-- **How calculations end.**  White space alone has the value zero.  Any other text has
the value that its steps come to, or the error of the first step that fails, with its
message; and there is no other end, since such text has tokens, their numbers are
literals, and their tree is well formed and can only divide by zero. -/
theorem calculate_ends (source : String) :
    ((∀ c ∈ source.toList, isBlank c = true) → (calculate source).value = .ok 0) ∧
    ((∃ c ∈ source.toList, isBlank c = false) →
      ((∃ x, ComesTo source x ∧ (calculate source).value = .ok x) ∨
        ∃ error, FailsWith source error error.message ∧
          (calculate source).value = .error (.reported error)) ∧
      ∀ tokens, scan source = .ok tokens → tokens ≠ [] ∧
        ∀ t ∈ tokens, ∀ value, t.kind = .number value → IsNumeral t.lexeme.toList) ∧
    (∀ tokens tree, scan source = .ok tokens → parse tokens = .ok tree →
      tree.WellFormed ∧ ∀ fault, evaluateExpr tree = .error fault → fault = .divisionByZero) ∧
    ∀ fault, (calculate source).value ≠ .error (.broken fault) := by
  rw [value_calculate]
  refine ⟨valueOf_blank, fun hsource => ⟨?_, fun tokens hs => ?_⟩,
    fun tokens tree _ hp => ?_, fun fault hbroken => ?_⟩
  · rcases valueOf_cases hsource with hvalue | ⟨error, message, hfails, herror⟩
    · exact Or.inl hvalue
    · exact Or.inr ⟨error, hfails.message_eq ▸ hfails, herror⟩
  · exact ⟨scan_ne_nil hs hsource, fun t ht value => isNumeral_of_scan hs ht⟩
  · have htree := derives_of_parseWithin hp
    exact ⟨htree.wellFormed, fun fault => htree.fault_eq⟩
  · by_cases hsource : ∃ c ∈ source.toList, isBlank c = false
    · rcases valueOf_cases hsource with ⟨x, -, hvalue⟩ | ⟨error, message, -, herror⟩
      · rw [hvalue] at hbroken
        cases hbroken
      · rw [herror] at hbroken
        cases hbroken
    · have hblank : ∀ c ∈ source.toList, isBlank c = true := by simpa using hsource
      rw [valueOf_blank hblank] at hbroken
      cases hbroken

end Calculator
