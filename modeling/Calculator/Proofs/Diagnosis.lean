import Calculator.Proofs.Answers
import Calculator.Proofs.NestingBounds
import Calculator.Proofs.Segmentation

/-!
# What the log tells

An expression that is not valid leaves one record of its verdict, and the record says what is
wrong: the defect of the text, the first bracket that closes nothing, the number of brackets
that stay open, or what is wrong with the tokens.  Which of these it is, is said here by counts
of brackets among the tokens, with no regard to how the count is kept.

The count of open brackets goes along the tokens.  While no more brackets close than open it is
the difference of the two numbers, so it stops at the first token that makes them differ the
other way, and otherwise comes to the difference over all tokens.

A calculation leaves one record if it fails, and none if it does not; an answer leaves the
records of its verdict and of its calculation.

## Main definitions

* `NeverOverclosed tokens` — nowhere have more brackets closed than opened.
* `FirstSurplus before t` — a token behind `before` is the first to close nothing.
* `Diagnosis source reason` — what is wrong with a text.

## Main results

* `openAfter_append`, `neverOverclosed_or` — the count up to a place, and where it stops.
* `Diagnosis.validate_eq`, `exists_diagnosis` — every text that is not valid has one diagnosis.
* `records_diagnose` — **what the log tells about a text**.
-/

namespace Calculator

variable {source reason : String} {tokens before behind : List Token} {t : Token}

/-- Up to no place among the tokens have more brackets closed than opened. -/
def NeverOverclosed (tokens : List Token) : Prop :=
  ∀ front, front <+: tokens → countKind .closeBracket front ≤ countKind .openBracket front

/-- The token behind `before` closes nothing, and is the first to do so: it closes a bracket
where as many have closed as opened, and nowhere before have more closed than opened. -/
structure FirstSurplus (before : List Token) (t : Token) : Prop where
  /-- None before it closes nothing. -/
  never : NeverOverclosed before
  /-- No bracket is open before it. -/
  balanced : countKind .closeBracket before = countKind .openBracket before
  /-- It closes a bracket. -/
  kind_eq : t.kind = .closeBracket

/-- `Diagnosis source reason` says in the words of a record what keeps a text that is not blank
from being valid. -/
inductive Diagnosis (source : String) : String → Prop
  /-- The text has a defect. -/
  | defect {e : ScanError} (hscan : scan source = .error e) : Diagnosis source e.message
  /-- A bracket closes nothing; the first such bracket is named by its place in the text. -/
  | closesNothing {before behind : List Token} {t : Token}
      (hscan : scan source = .ok (before ++ t :: behind)) (hfirst : FirstSurplus before t)
      (hplace : source.toList[t.position]? = some ')') :
      Diagnosis source ("\x27)\x27 at " ++ toString t.position ++ " closes nothing")
  /-- Brackets stay open. -/
  | unclosed {tokens : List Token} (hscan : scan source = .ok tokens)
      (hnever : NeverOverclosed tokens)
      (hopen : countKind .closeBracket tokens < countKind .openBracket tokens) :
      Diagnosis source
        (toString (countKind .openBracket tokens - countKind .closeBracket tokens) ++
          " unclosed parenthesis")
  /-- Brackets match, and the tokens have an error. -/
  | wrong {tokens : List Token} {e : ParseError} (hscan : scan source = .ok tokens)
      (hnever : NeverOverclosed tokens)
      (hmatch : countKind .closeBracket tokens = countKind .openBracket tokens)
      (hparse : parse tokens = .error (.error e)) : Diagnosis source e.message
  /-- Brackets match, and the tokens are nested too deeply. -/
  | tooDeep {tokens : List Token} (hscan : scan source = .ok tokens)
      (hnever : NeverOverclosed tokens)
      (hmatch : countKind .closeBracket tokens = countKind .openBracket tokens)
      (hparse : parse tokens = .error .tooDeep) : Diagnosis source "nested too deeply"

/-! ### Counting brackets -/

theorem NeverOverclosed.of_prefix {front : List Token} (h : NeverOverclosed tokens)
    (hfront : front <+: tokens) : NeverOverclosed front :=
  fun _ hless => h _ (hless.trans hfront)

theorem NeverOverclosed.concat (h : NeverOverclosed before)
    (hle : countKind .closeBracket (before ++ [t]) ≤ countKind .openBracket (before ++ [t])) :
    NeverOverclosed (before ++ [t]) := by
  intro front hfront
  rcases List.prefix_concat_iff.1 hfront with rfl | hbefore
  · exact hle
  · exact h front hbefore

theorem countKind_concat_of_eq {kind : Kind} (h : t.kind = kind) (before : List Token) :
    countKind kind (before ++ [t]) = countKind kind before + 1 := by
  rw [countKind_append, countKind_of_eq h]

theorem countKind_concat_of_ne {kind : Kind} (h : t.kind ≠ kind) (before : List Token) :
    countKind kind (before ++ [t]) = countKind kind before := by
  rw [countKind_append, countKind_of_ne h, Nat.add_zero]

/-- While no more brackets have closed than opened, as many are open as have not been closed. -/
theorem openAfter_append (h : NeverOverclosed before) (rest : List Token) :
    openAfter 0 (before ++ rest) =
      openAfter (countKind .openBracket before - countKind .closeBracket before) rest := by
  induction before using List.reverseRecOn generalizing rest with
  | nil => rfl
  | append_singleton before t ih =>
    have hbefore : NeverOverclosed before := h.of_prefix (List.prefix_append before [t])
    have hle := h (before ++ [t]) List.prefix_rfl
    rw [List.append_assoc, List.singleton_append, ih hbefore]
    have hother (hopen : t.kind ≠ .openBracket) (hclose : t.kind ≠ .closeBracket) :
        openAfter (countKind .openBracket before - countKind .closeBracket before) (t :: rest) =
          openAfter (countKind .openBracket (before ++ [t]) -
            countKind .closeBracket (before ++ [t])) rest := by
      rw [openAfter_cons_other hopen hclose, countKind_concat_of_ne hopen,
        countKind_concat_of_ne hclose]
    cases ht : t.kind with
    | number value => exact hother (by simp [ht]) (by simp [ht])
    | operator => exact hother (by simp [ht]) (by simp [ht])
    | openBracket =>
      have hcount := hbefore before List.prefix_rfl
      rw [openAfter_cons_open ht, countKind_concat_of_eq ht,
        countKind_concat_of_ne (by simp [ht]), Nat.sub_add_comm hcount]
    | closeBracket =>
      rw [countKind_concat_of_eq ht, countKind_concat_of_ne (by simp [ht])] at hle ⊢
      -- a bracket is open for this one to close
      obtain ⟨n, hn⟩ := Nat.exists_eq_add_of_le hle
      have hopen : countKind .openBracket before - countKind .closeBracket before = n + 1 := by
        omega
      have hrest : countKind .openBracket before - (countKind .closeBracket before + 1) = n := by
        omega
      rw [hopen, hrest, openAfter_cons_close ht]

/-- Either nowhere have more brackets closed than opened, or a token is the first that makes it
so. -/
theorem neverOverclosed_or (tokens : List Token) :
    NeverOverclosed tokens ∨
      ∃ before t behind, tokens = before ++ t :: behind ∧ FirstSurplus before t := by
  induction tokens using List.reverseRecOn with
  | nil =>
    left
    intro front hfront
    rw [List.prefix_nil.1 hfront]
    exact le_rfl
  | append_singleton tokens t ih =>
    rcases ih with hnever | ⟨before, a, behind, rfl, hfirst⟩
    · by_cases hle : countKind .closeBracket (tokens ++ [t]) ≤
          countKind .openBracket (tokens ++ [t])
      · exact Or.inl (hnever.concat hle)
      · -- only a closing bracket can tip the balance, and only from where it is even
        have hcount := hnever tokens List.prefix_rfl
        have hkind : t.kind = .closeBracket := by
          by_contra hother
          rw [countKind_concat_of_ne hother, countKind_append] at hle
          omega
        rw [countKind_concat_of_eq hkind, countKind_concat_of_ne (by simp [hkind])] at hle
        exact Or.inr ⟨tokens, t, [], rfl, hnever, by omega, hkind⟩
    · exact Or.inr ⟨before, a, behind ++ [t], by simp, hfirst⟩

/-- The count stops at the first bracket that closes nothing. -/
theorem FirstSurplus.checkBrackets_eq (h : FirstSurplus before t) (behind : List Token) :
    checkBrackets (before ++ t :: behind) = .error (.closesNothing t.position) := by
  rw [checkBrackets, openAfter_append h.never, h.balanced, Nat.sub_self]
  simp [openAfter, h.kind_eq]

/-- If there is none, it comes to the number of brackets that stay open. -/
theorem NeverOverclosed.checkBrackets_eq_unclosed (h : NeverOverclosed tokens)
    (hopen : countKind .closeBracket tokens < countKind .openBracket tokens) :
    checkBrackets tokens =
      .error (.unclosed (countKind .openBracket tokens - countKind .closeBracket tokens)) := by
  have hcount := openAfter_append h []
  rw [List.append_nil, openAfter] at hcount
  obtain ⟨n, hn⟩ : ∃ n, countKind .openBracket tokens - countKind .closeBracket tokens = n + 1 :=
    Nat.exists_eq_succ_of_ne_zero (by omega)
  rw [checkBrackets, hcount, hn]

theorem NeverOverclosed.checkBrackets_eq_ok (h : NeverOverclosed tokens)
    (hmatch : countKind .closeBracket tokens = countKind .openBracket tokens) :
    checkBrackets tokens = .ok () := by
  have hcount := openAfter_append h []
  rw [List.append_nil, openAfter, hmatch, Nat.sub_self] at hcount
  rw [checkBrackets, hcount]

/-! ### Diagnoses -/

/-- A token that closes a bracket stands where the text has one. -/
theorem getElem?_of_closeBracket (hscan : scan source = .ok tokens) (ht : t ∈ tokens)
    (hkind : t.kind = .closeBracket) : source.toList[t.position]? = some ')' := by
  have hsegments := ((scan_eq_ok_iff_segments source tokens).1 hscan).1
  have hdrop := (hsegments.written t ht).2.drop_eq
  have hlexeme : t.lexeme = ")" := by
    cases scan_lexed hscan t ht with
    | number hne hrun hvalue => cases hkind
    | @symbol c kind position hc =>
      obtain rfl : kind = .closeBracket := hkind
      rw [(IsBracket.closing.symbolKind?_eq_iff c).1 hc]
      rfl
  rw [hlexeme] at hdrop
  exact getElem?_of_drop_eq hdrop

theorem validate_of_scan (htext : allBlank source.toList = false)
    (hscan : scan source = .ok tokens) :
    validate source = (checkBrackets tokens).bind fun _ => checkTree tokens := by
  rw [validate, htext]
  cases hbrackets : checkBrackets tokens with
  | error rejection => simp [hscan, hbrackets, Except.bind]
  | ok _ => simp [hscan, hbrackets, Except.bind]

/-- A diagnosis is the reason of the verdict. -/
theorem Diagnosis.validate_eq (h : Diagnosis source reason)
    (htext : allBlank source.toList = false) :
    ∃ rejection, validate source = .error rejection ∧ rejection.reason = reason := by
  cases h with
  | defect hscan => exact ⟨_, by rw [validate, htext, hscan]; rfl, rfl⟩
  | closesNothing hscan hfirst hplace =>
    exact ⟨_, by rw [validate_of_scan htext hscan, hfirst.checkBrackets_eq]; rfl, rfl⟩
  | unclosed hscan hnever hopen =>
    exact ⟨_, by rw [validate_of_scan htext hscan, hnever.checkBrackets_eq_unclosed hopen]; rfl,
      rfl⟩
  | wrong hscan hnever hmatch hparse =>
    refine ⟨.parse _, ?_, rfl⟩
    rw [validate_of_scan htext hscan, hnever.checkBrackets_eq_ok hmatch, Except.bind, checkTree,
      hparse]
    rfl
  | tooDeep hscan hnever hmatch hparse =>
    refine ⟨.tooDeep, ?_, rfl⟩
    rw [validate_of_scan htext hscan, hnever.checkBrackets_eq_ok hmatch, Except.bind, checkTree,
      hparse]
    rfl

/-- A text that is not valid has a diagnosis. -/
theorem exists_diagnosis (hinvalid : (isValid source).value = false) :
    ∃ reason, Diagnosis source reason := by
  have hread : ¬ Readable source := by
    rw [← value_isValid_iff, hinvalid]
    exact Bool.false_ne_true
  cases hscan : scan source with
  | error e => exact ⟨_, .defect hscan⟩
  | ok tokens =>
    rcases neverOverclosed_or tokens with hnever | ⟨before, t, behind, rfl, hfirst⟩
    · rcases (hnever tokens List.prefix_rfl).lt_or_eq with hopen | hmatch
      · exact ⟨_, .unclosed hscan hnever hopen⟩
      · -- nothing but the tree is left to be wrong
        cases hparse : parse tokens with
        | ok tree => exact absurd (Or.inr ⟨tokens, tree, hscan, hparse⟩) hread
        | error failure =>
          cases failure with
          | error e => exact ⟨_, .wrong hscan hnever hmatch hparse⟩
          | tooDeep => exact ⟨_, .tooDeep hscan hnever hmatch hparse⟩
    · have ht : t ∈ before ++ t :: behind := by simp
      exact ⟨_, .closesNothing hscan hfirst (getElem?_of_closeBracket hscan ht hfirst.kind_eq)⟩

/-! ### Records -/

theorem records_isValid_of_valid (hvalid : (isValid source).value = true) :
    (isValid source).records = [] := by
  rw [isValid, (value_isValid source).1 hvalid, Logged.records_quiet]

/-- A text that is not valid has one diagnosis, which is what its record says. -/
theorem exists_records_isValid (hinvalid : (isValid source).value = false) :
    ∃ reason, (isValid source).records = [.rejected source reason] ∧
      ∀ other, Diagnosis source other ↔ other = reason := by
  have htext : allBlank source.toList = false := by
    rw [← Bool.not_eq_true]
    intro hblank
    rw [value_isValid_iff.2 (Or.inl hblank)] at hinvalid
    cases hinvalid
  obtain ⟨reason, hdiagnosis⟩ := exists_diagnosis hinvalid
  obtain ⟨rejection, hvalidate, rfl⟩ := hdiagnosis.validate_eq htext
  refine ⟨rejection.reason, by rw [isValid, hvalidate, Logged.records_noting], ?_⟩
  intro other
  constructor
  · intro hother
    obtain ⟨rejection', hvalidate', rfl⟩ := hother.validate_eq htext
    rw [Except.error.inj (hvalidate.symm.trans hvalidate')]
  · rintro rfl
    exact hdiagnosis

theorem records_calculate_of_value {x : Float} (h : valueOf source = .ok x) :
    (calculate source).records = [] := by
  rw [calculate, h, Logged.records_quiet]

theorem records_calculate_of_error {e : ExpressionError}
    (h : valueOf source = .error (.reported e)) :
    (calculate source).records = [e.record source] := by
  rw [calculate, h, Logged.records_noting]

/-- The records of an answer are those of the verdict and of the calculation. -/
theorem records_answer (settings : Settings) (source : String) :
    (answer settings source).records = (isValid source).records ++ (calculate source).records := by
  simp [answer]

/-- **What the log tells about a text.**  A verdict leaves no record of a valid text, and of any
other text one record, with the only diagnosis that the text has.  A calculation leaves one
record if it fails and none if it does not.  So an answer leaves the two records of a text that
is not valid, one of a division by zero, and no other, whatever the settings are. -/
theorem records_diagnose (settings : Settings) (source : String) :
    ((isValid source).value = true → (isValid source).records = []) ∧
    ((isValid source).value = false →
      ∃ reason, (isValid source).records = [.rejected source reason] ∧
        ∀ other, Diagnosis source other ↔ other = reason) ∧
    (∀ x, (calculate source).value = .ok x → (calculate source).records = []) ∧
    (∀ failure, (calculate source).value = .error failure →
      ∃ e, failure = .reported e ∧ (calculate source).records = [e.record source]) ∧
    ((isValid source).value = false →
      ∃ reason e, Diagnosis source reason ∧
        (calculate source).value = .error (.reported e) ∧
        (answer settings source).records = [.rejected source reason, e.record source]) ∧
    ((calculate source).value = .error (.reported .divisionByZero) →
      (answer settings source).records = [.failed source "Division by zero"]) ∧
    ((isValid source).value = true →
      (calculate source).value ≠ .error (.reported .divisionByZero) →
        (answer settings source).records = []) := by
  rw [value_calculate, records_answer]
  refine ⟨records_isValid_of_valid, exists_records_isValid, fun x => records_calculate_of_value,
    ?_, ?_, ?_, ?_⟩
  · intro failure hfailure
    rcases value_cases source with ⟨-, ⟨x, hx⟩ | hzero⟩ | ⟨-, e, -, he⟩
    · rw [hx] at hfailure
      cases hfailure
    · rw [hzero] at hfailure
      cases hfailure
      exact ⟨_, rfl, records_calculate_of_error hzero⟩
    · rw [he] at hfailure
      cases hfailure
      exact ⟨_, rfl, records_calculate_of_error he⟩
  · intro hinvalid
    obtain ⟨reason, hrecords, hdiagnosis⟩ := exists_records_isValid hinvalid
    rcases value_cases source with ⟨hvalid, -⟩ | ⟨-, e, -, he⟩
    · rw [hinvalid] at hvalid
      cases hvalid
    · refine ⟨reason, e, (hdiagnosis reason).2 rfl, he, ?_⟩
      rw [hrecords, records_calculate_of_error he]
      rfl
  · intro hzero
    rw [records_isValid_of_valid (isValid_of_divisionByZero hzero),
      records_calculate_of_error hzero]
    rfl
  · intro hvalid hzero
    rcases value_cases source with ⟨-, ⟨x, hx⟩ | hzero'⟩ | ⟨hinvalid, -⟩
    · rw [records_isValid_of_valid hvalid, records_calculate_of_value hx]
      rfl
    · exact absurd hzero' hzero
    · rw [hvalid] at hinvalid
      cases hinvalid

end Calculator
