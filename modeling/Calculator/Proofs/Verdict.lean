import Calculator.Proofs.Evaluation
import Calculator.Validity

/-!
# Validity and values

An expression is valid exactly when its calculation gets past its tree: when it
has a value or divides by zero.  Validity counts brackets before the tree is read,
but the count settles nothing: brackets match wherever there is a tree.

## Main results

* `Derives.openAfter_append` — what the grammar derives leaves the count as it was.
* `validate_eq_ok_iff` — what a valid expression is.
* `isValid_iff_calculate` — validity agrees with calculation.
-/

namespace Calculator

/-! ### Brackets match wherever there is a tree -/

theorem openAfter_cons_open {t : Token} (ht : t.kind = .openBracket) (depth : Nat)
    (tokens : List Token) : openAfter depth (t :: tokens) = openAfter (depth + 1) tokens := by
  simp [openAfter, ht]

theorem openAfter_cons_close {t : Token} (ht : t.kind = .closeBracket) (depth : Nat)
    (tokens : List Token) : openAfter (depth + 1) (t :: tokens) = openAfter depth tokens := by
  simp [openAfter, ht]

/-- Other tokens do not count. -/
theorem openAfter_cons_other {t : Token} (hopen : t.kind ≠ .openBracket)
    (hclose : t.kind ≠ .closeBracket) (depth : Nat) (tokens : List Token) :
    openAfter depth (t :: tokens) = openAfter depth tokens := by
  cases ht : t.kind with
  | number value => simp [openAfter, ht]
  | operator => simp [openAfter, ht]
  | openBracket => exact absurd ht hopen
  | closeBracket => exact absurd ht hclose

/-- Behind a phrase as many brackets are open as before it, and on the way never
fewer. -/
theorem Derives.openAfter_append {phrase : Phrase} {front : List Token} {e : Expr}
    (h : Derives phrase front e) (depth : Nat) (rest : List Token) :
    openAfter depth (front ++ rest) = openAfter depth rest := by
  induction h generalizing depth rest with
  | number ht => exact openAfter_cons_other (by simp [ht]) (by simp [ht]) depth rest
  | @bracket l r inner e hl hr he ih =>
    -- one more is open inside, whatever the depth outside
    calc openAfter depth ((l :: (inner ++ [r])) ++ rest)
        = openAfter (depth + 1) (inner ++ r :: rest) := by
          simp [openAfter_cons_open hl]
      _ = openAfter (depth + 1) (r :: rest) := ih (depth + 1) (r :: rest)
      _ = openAfter depth rest := openAfter_cons_close hr depth rest
  | @signed t s operand e ht hs he ih =>
    rw [List.cons_append, openAfter_cons_other (by simp [ht]) (by simp [ht]), ih]
  | single he ih => exact ih depth rest
  | @link level left right t op a b ha ht hb iha ihb =>
    have hkind : t.kind = .operator := Level.kind_of_operator? ht
    rw [List.append_assoc, iha, List.cons_append,
      openAfter_cons_other (by simp [hkind]) (by simp [hkind]), ihb]

/-- The count never objects to tokens that have a tree. -/
theorem checkBrackets_of_parse {tokens : List Token} {e : Expr} (h : parse tokens = .ok e) :
    checkBrackets tokens = .ok () := by
  have hopen : openAfter 0 (tokens ++ []) = openAfter 0 [] :=
    (derives_of_parseWithin h).openAfter_append 0 []
  rw [List.append_nil] at hopen
  rw [checkBrackets, hopen]
  rfl

/-! ### The verdict -/

/-- Whether an expression is valid, found without a count of its brackets. -/
def validateUncounted (source : String) : Except Rejection Unit :=
  if allBlank source.toList then .ok ()
  else
    match scan source with
    | .error e => .error (.scan e)
    | .ok tokens => checkTree tokens

/-- An expression is valid when it is blank, or its tokens have a tree. -/
def Readable (source : String) : Prop :=
  allBlank source.toList = true ∨ ∃ tokens e, scan source = .ok tokens ∧ parse tokens = .ok e

theorem checkTree_eq_ok_iff {tokens : List Token} :
    checkTree tokens = .ok () ↔ ∃ e, parse tokens = .ok e := by
  rw [checkTree]
  cases parse tokens with
  | error failure => simp
  | ok e => simp

theorem validateUncounted_eq_ok_iff {source : String} :
    validateUncounted source = .ok () ↔ Readable source := by
  rw [validateUncounted, Readable]
  cases allBlank source.toList with
  | true => simp
  | false =>
    cases hscan : scan source with
    | error e => simp
    | ok tokens => simp [checkTree_eq_ok_iff]

/-- Counting the brackets changes no verdict. -/
theorem validate_eq_ok_iff {source : String} :
    validate source = .ok () ↔ Readable source := by
  rw [validate, Readable]
  cases allBlank source.toList with
  | true => simp
  | false =>
    cases hscan : scan source with
    | error e => simp
    | ok tokens =>
      cases hparse : parse tokens with
      | ok e => simp [checkBrackets_of_parse hparse, checkTree_eq_ok_iff, hparse]
      | error failure =>
        have htree : checkTree tokens ≠ .ok () := by simp [checkTree_eq_ok_iff, hparse]
        cases hbrackets : checkBrackets tokens with
        | error rejection => simp [hbrackets, hparse]
        | ok _ => simpa [hbrackets, hparse] using htree

/-- A readable expression has a value, or divides by zero. -/
theorem Readable.valueOf_cases {source : String} (h : Readable source) :
    (∃ x, valueOf source = .ok x) ∨ valueOf source = .error (.reported .divisionByZero) := by
  rcases h with hblank | ⟨tokens, e, hscan, hparse⟩
  · exact Or.inl ⟨0, by rw [valueOf, if_pos hblank]⟩
  · exact valueOf_of_parse_eq_ok hscan hparse

/-- An expression that is not readable has an error in its tokens or its tree. -/
theorem valueOf_of_not_readable {source : String} (h : ¬ Readable source) :
    (∃ e, valueOf source = .error (.reported (.scan e))) ∨
    (∃ e, valueOf source = .error (.reported (.parse e))) ∨
      valueOf source = .error (.reported .tooDeep) := by
  obtain ⟨hblank, htree⟩ := not_or.1 h
  rw [valueOf, if_neg hblank]
  cases hscan : scan source with
  | error e => exact Or.inl ⟨e, rfl⟩
  | ok tokens =>
    cases hparse : parse tokens with
    | ok e => exact absurd ⟨tokens, e, hscan, hparse⟩ htree
    | error failure =>
      simp only [hparse]
      cases failure with
      | error e => exact Or.inr (Or.inl ⟨e, rfl⟩)
      | tooDeep => exact Or.inr (Or.inr rfl)

/-- **Validity agrees with calculation.**  A valid expression has a value or divides
by zero, and any other has an error in its tokens or its tree; counting the brackets
neither rejects tokens that have a tree nor changes a verdict. -/
theorem isValid_iff_calculate (source : String) :
    ((isValid source).value = true ↔
      (∃ x, (calculate source).value = .ok x) ∨
        (calculate source).value = .error (.reported .divisionByZero)) ∧
    ((isValid source).value = false ↔
      (∃ e, (calculate source).value = .error (.reported (.scan e))) ∨
      (∃ e, (calculate source).value = .error (.reported (.parse e))) ∨
        (calculate source).value = .error (.reported .tooDeep)) ∧
    ((isValid source).value = true ↔ validateUncounted source = .ok ()) ∧
    (∀ tokens e, parse tokens = .ok e → checkBrackets tokens = .ok ()) := by
  have hvalid : (isValid source).value = true ↔ Readable source :=
    (value_isValid source).trans validate_eq_ok_iff
  have hinvalid : (isValid source).value = false ↔ ¬ Readable source := by
    rw [← hvalid, Bool.not_eq_true]
  rw [value_calculate, validateUncounted_eq_ok_iff]
  refine ⟨hvalid.trans ⟨Readable.valueOf_cases, fun h => ?_⟩,
    hinvalid.trans ⟨valueOf_of_not_readable, fun h hr => ?_⟩, hvalid,
    fun tokens e => checkBrackets_of_parse⟩
  -- each kind of outcome rules the other kind out
  · refine Classical.byContradiction fun hr => ?_
    rcases valueOf_of_not_readable hr with ⟨e, he⟩ | ⟨e, he⟩ | he <;> simp [he] at h
  · rcases hr.valueOf_cases with ⟨x, hx⟩ | hx
    · simp [hx] at h
    · simp [hx] at h

theorem isValid_swappedBrackets :
    (isValid ")(").value = false ∧
    ((∃ e, (calculate ")(").value = .error (.reported (.scan e))) ∨
      (∃ e, (calculate ")(").value = .error (.reported (.parse e))) ∨
        (calculate ")(").value = .error (.reported .tooDeep)) ∧
    checkBrackets negatedSumTokens = .ok () := by
  have hinvalid : (isValid ")(").value = false := by decide +kernel
  have hparse : parse negatedSumTokens =
      .ok (.binary .mul (.unary .neg (.binary .add (.number 1) (.number 2))) (.number 3)) := by
    cbv
  obtain ⟨-, herrors, -, hbrackets⟩ := isValid_iff_calculate ")("
  exact ⟨hinvalid, herrors.1 hinvalid, hbrackets _ _ hparse⟩

end Calculator
