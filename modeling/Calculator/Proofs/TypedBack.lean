import Calculator.Proofs.NearestFloat
import Calculator.Proofs.Numeral
import Calculator.Proofs.Shortest
import Calculator.Proofs.Unplaced

/-!
# Results can be typed back

A result that is written out is an expression: a number, or a minus sign and a number.  Its
value is the floating-point number nearest to the one that is shown.  A result with an
exponent, and the text that stands for an error, hold a letter, and no expression does.

## Main definitions

* `TypesBack text r` — the text is an expression of the number nearest to `r`.
* `Refused text` — the text has no tokens.
* `IsWrittenOut r` — the bounds between which numbers are written out.

## Main results

* `typesBack_literal`, `typesBack_negated` — number literals, and those behind a minus sign.
* `refused_of_mem` — text with a letter.
* `Decimal.typesBack_text`, `Decimal.refused_text` — the text of a decimal.
* `display_typesBack_iff` — **a result can be typed back exactly when it is written out**.
-/

namespace Calculator

open Binary64

/-- A text is a valid expression whose value is the floating-point number nearest to `r`,
and not the negative zero. -/
structure TypesBack (text : String) (r : ℚ) : Prop where
  /-- The text is valid. -/
  valid : (isValid text).value = true
  /-- It has the value. -/
  value : ∃ y, (calculate text).value = .ok y ∧ IsNearest y r ∧ y ≠ -0

/-- A text is not valid, and its calculation fails since it has no tokens. -/
structure Refused (text : String) : Prop where
  /-- The text is not valid. -/
  invalid : (isValid text).value = false
  /-- It has no tokens. -/
  scan : ∃ e, (calculate text).value = .error (.reported (.scan e))

/-- The numbers that are written out: zero, and those from a millionth up to, and without,
`10²¹`. -/
def IsWrittenOut (r : ℚ) : Prop := r = 0 ∨ 1 / 10 ^ 6 ≤ |r| ∧ |r| < 10 ^ 21

/-! ### Number literals -/

/-- Tokens that are a primary have its tree. -/
theorem parse_of_primary {tokens : List Token} {e : Expr}
    (h : Reads (some nestingLimit) 0 (.due .primary) tokens (.ok (e, []))) :
    parse tokens = .ok e := by
  have hproduct : Reads (some nestingLimit) 0 (.due (.chain .product)) tokens (.ok (e, [])) :=
    .chain h (.stop (Level.stopsAt_nil _))
  exact parseWithin_eq_ok_iff.2 (.chain hproduct (.stop (Level.stopsAt_nil _)))

/-- A text whose tokens have a tree with a value is an expression of that value. -/
theorem TypesBack.of_tree {text : String} {tokens : List Token} {tree : Expr} {y : Float} {r : ℚ}
    (hscan : Calculator.scan text = .ok tokens) (hne : tokens ≠ []) (hparse : parse tokens = .ok tree)
    (hvalue : tree.value = .ok y) (hnearest : IsNearest y r) (hzero : y ≠ -0) :
    TypesBack text r where
  valid := (value_isValid text).2 (validate_eq_ok_iff.2 (Or.inr ⟨tokens, tree, hscan, hparse⟩))
  value := by
    refine ⟨y, ?_, hnearest, hzero⟩
    rw [value_calculate, valueOf_of_scan hscan, if_neg hne, valueOfTokens, hparse]
    simp only [evaluateExpr_eq_value, hvalue]
    rfl

section

variable {run : List Char} {number : Decimal}

/-- The floating-point number of a literal is not the negative zero. -/
theorem toFloat_ne_neg_zero (hsign : number.negative = false) : number.toFloat ≠ -0 := by
  intro hzero
  have hpositive : isNegative number.toFloat = false := by
    rw [Decimal.toFloat, isNegative_ofMagnitude (nearest_le_infinityBits ..), hsign]
  rw [hzero] at hpositive
  revert hpositive
  decide

/-- A literal is an expression of the floating-point number nearest to what it denotes. -/
theorem typesBack_literal (hne : run ≠ []) (hrun : ∀ c ∈ run, isLiteralChar c = true)
    (hnumber : literal? run = some number) (hsign : number.negative = false)
    (hsmall : number.magnitude < 10 ^ 21) : TypesBack (String.ofList run) number.value := by
  have hlexed : Token.Lexed ⟨.number number.toFloat, String.ofList run, 0⟩ :=
    .number hne hrun hnumber
  have hscan : Calculator.scan (String.ofList run) =
      .ok [⟨.number number.toFloat, String.ofList run, 0⟩] := by
    rw [Calculator.scan, hlexed.scanFrom_lexeme 0]
    rfl
  exact .of_tree hscan (List.cons_ne_nil _ _) (parse_of_primary (.number rfl)) rfl
    (Decimal.isNearest_toFloat (Decimal.nearest_lt_infinityBits hsmall))
    (toFloat_ne_neg_zero hsign)

/-- A minus sign before a literal negates it. -/
theorem typesBack_negated (hne : run ≠ []) (hrun : ∀ c ∈ run, isLiteralChar c = true)
    (hnumber : literal? run = some number) (hsign : number.negative = false)
    (hsmall : number.magnitude < 10 ^ 21) (hlarge : 1 / 10 ^ 6 ≤ number.magnitude) :
    TypesBack (String.ofList ('-' :: run)) (-number.value) := by
  have hlexed : Token.Lexed ⟨.number number.toFloat, String.ofList run, 1⟩ :=
    .number hne hrun hnumber
  have hscan : Calculator.scan (String.ofList ('-' :: run)) =
      .ok [⟨.operator, String.singleton '-', 0⟩,
        ⟨.number number.toFloat, String.ofList run, 1⟩] := by
    have hminus : symbolKind? '-' = some .operator := by decide
    have hrest := hlexed.scanFrom_lexeme 1
    rw [String.toList_ofList] at hrest
    rw [Calculator.scan, String.toList_ofList, scanFrom_cons_symbol hminus, hrest]
    rfl
  -- the negative is the number of the same literal with a sign
  have hneg : -number.toFloat = ({ number with negative := true } : Decimal).toFloat := by
    rw [Decimal.toFloat, neg_ofMagnitude (Decimal.nearest_lt_infinityBits hsmall), hsign]
    rfl
  have hvalue : -number.value = ({ number with negative := true } : Decimal).value := by
    simp only [Decimal.value, hsign, Bool.false_eq_true, if_false, if_true]
    rfl
  have hnonzero : -number.toFloat ≠ -0 := by
    intro hzero
    have hpos := Decimal.nearest_pos hlarge
    have hbits := Decimal.magnitudeBits_toFloat { number with negative := true }
    have hnone : magnitudeBits (-0) = 0 := by decide
    rw [← hneg, hzero, hnone] at hbits
    exact absurd hbits hpos.ne
  have hsigned : Reads (some nestingLimit) 0 (.due .primary)
      [⟨.operator, String.singleton '-', 0⟩, ⟨.number number.toFloat, String.ofList run, 1⟩]
      (.ok (.unary .neg (.number number.toFloat), [])) :=
    Reads.signed (s := .minus) rfl (by decide) (by decide) (.number rfl)
  refine .of_tree hscan (List.cons_ne_nil _ _) (parse_of_primary hsigned) rfl ?_ hnonzero
  rw [hneg, hvalue]
  exact Decimal.isNearest_toFloat (Decimal.nearest_lt_infinityBits hsmall)

end

/-! ### Letters -/

/-- Text with a character that no expression holds has no tokens. -/
theorem refused_of_mem {text : String} {c : Char} (hc : c ∈ text.toList)
    (hliteral : isLiteralChar c = false) (hsymbol : symbolKind? c = none)
    (hblank : isBlank c = false) : Refused text := by
  have hvisible : ¬ allBlank text.toList = true := by
    intro hall
    rw [allBlank_iff.1 hall c hc] at hblank
    cases hblank
  obtain ⟨e, he⟩ : ∃ e, Calculator.scan text = .error e := by
    cases hscan : Calculator.scan text with
    | error e => exact ⟨e, rfl⟩
    | ok tokens =>
      rw [Calculator.scan, mapError_eq_ok] at hscan
      rcases scanFrom_chars hscan c hc with h | h | h
      · rw [hliteral] at h
        cases h
      · rw [hsymbol] at h
        cases h
      · rw [hblank] at h
        cases h
  constructor
  · rw [← Bool.not_eq_true, value_isValid, validate_eq_ok_iff]
    rintro (hall | ⟨tokens, tree, hscan, -⟩)
    · exact hvisible hall
    · rw [he] at hscan
      cases hscan
  · refine ⟨e, ?_⟩
    rw [value_calculate, valueOf, if_neg hvisible, he]

namespace Decimal

variable {d : Decimal}

/-! ### The text of a decimal -/

/-- The text of a decimal between the bounds is an expression of the number nearest to it. -/
theorem typesBack_text (hfit : digitCount d.coefficient ≤ maxDigits)
    (hout : IsWrittenOut d.value) : TypesBack d.text d.value := by
  by_cases hzero : d.coefficient = 0
  · -- zero is shown without its sign
    have hvalue := value_eq_zero_iff.2 hzero
    have hliteral : literal? ['0'] = some ⟨false, 0, 0⟩ := by decide +kernel
    have htyped := typesBack_literal (List.cons_ne_nil _ _) (List.forall_mem_singleton.2 rfl)
      hliteral rfl (by norm_num [magnitude])
    have hnone : value ⟨false, 0, 0⟩ = 0 := value_eq_zero_iff.2 rfl
    rw [hnone] at htyped
    rw [text, if_pos hzero, hvalue]
    exact htyped
  · have hbounds := hout.resolve_left (hzero ∘ value_eq_zero_iff.1)
    have hpositional := (isPositional_normalized_iff hfit hzero).2 hbounds
    obtain ⟨number, hne, hchars, hliteral, hsign, hmagnitude⟩ :=
      exists_literal?_positional (isDigit_toDigits d.normalized.coefficient)
        Nat.toDigits_ne_nil d.normalized.exponent
    have hshown : number.magnitude = d.magnitude := by
      rw [hmagnitude, Nat.ofDigitChars_ten_toDigits, ← magnitude_normalized hfit]
      rfl
    rw [abs_value, ← hshown] at hbounds
    rw [text, if_neg hzero, magnitudeText]
    simp only [hpositional, if_true]
    cases hnegative : d.negative with
    | true =>
      have hvalue : d.value = -number.value := by
        simp only [value, hnegative, hsign, hshown, if_true, Bool.false_eq_true, if_false]
      rw [hvalue, if_pos rfl]
      exact typesBack_negated hne hchars hliteral hsign hbounds.2 hbounds.1
    | false =>
      have hvalue : d.value = number.value := value_congr (hnegative.trans hsign.symm) hshown.symm
      rw [hvalue, if_neg Bool.false_ne_true, List.nil_append]
      exact typesBack_literal hne hchars hliteral hsign hbounds.2

/-- The text of a decimal beyond the bounds has an exponent, whose letter no expression
holds. -/
theorem refused_text (hfit : digitCount d.coefficient ≤ maxDigits)
    (hout : ¬ IsWrittenOut d.value) : Refused d.text := by
  have hnonzero : d.coefficient ≠ 0 := by
    intro hzero
    exact hout (Or.inl (value_eq_zero_iff.2 hzero))
  have hexponent : ¬ d.normalized.isPositional = true := by
    rw [isPositional_normalized_iff hfit hnonzero]
    intro hbounds
    exact hout (Or.inr hbounds)
  have hletter : 'e' ∈ d.text.toList := by
    rw [text, if_neg hnonzero, String.toList_ofList, magnitudeText, if_neg hexponent, scientific]
    exact List.mem_append_right _ (List.mem_append_right _ List.mem_cons_self)
  exact refused_of_mem hletter (by decide) (by decide) (by decide)

end Decimal

/-! ### The text of a result -/

/-- **A result can be typed back exactly when it is written out.**  Every result is shown,
as long as the last place kept is not above the largest exponent.  The text of a finite one
denotes a number, and it is a valid expression exactly when that number is zero or between
the bounds; then the value of the expression is the floating-point number nearest to the
number shown, and never the negative zero.  The text of a result that is not finite is not
valid, and every text that is not valid fails to be split into tokens. -/
theorem display_typesBack_iff (x : Float) {places : Int} (hplaces : -999999 ≤ places) :
    ∃ text, display places x = .ok text ∧
      (x.isFinite = true → ∃ shown, readNumber? text.toList = some shown ∧
        ((isValid text).value = true ↔ IsWrittenOut shown.value) ∧
        ((isValid text).value = true →
          ∃ y, (calculate text).value = .ok y ∧ IsNearest y shown.value ∧ y ≠ -0)) ∧
      (x.isFinite = false → (isValid text).value = false) ∧
      ((isValid text).value = false →
        ∃ e, (calculate text).value = .error (.reported (.scan e))) := by
  cases hx : x.isFinite with
  | false =>
    have hletter : 'E' ∈ errorText.toList := by decide
    have hrefused : Refused errorText :=
      refused_of_mem hletter (by decide) (by decide) (by decide)
    refine ⟨errorText, display_of_not_isFinite hx places, ?_, fun _ => hrefused.invalid,
      fun _ => hrefused.scan⟩
    intro hfinite
    cases hfinite
  | true =>
    obtain ⟨rounded, hround, -, hfit⟩ :=
      Decimal.exists_roundTo (Decimal.coefficient_ofFloat_lt hx) hplaces
    obtain ⟨shown, hread, hshown⟩ := Decimal.exists_readNumber?_text hfit
    have hdisplay : display places x = .ok rounded.text := by
      rw [display, if_pos hx, hround]
      rfl
    refine ⟨rounded.text, hdisplay, ?_⟩
    by_cases hout : IsWrittenOut rounded.value
    · have htyped := Decimal.typesBack_text hfit hout
      rw [← hshown] at htyped hout
      refine ⟨fun _ => ⟨shown, hread, iff_of_true htyped.valid hout, fun _ => htyped.value⟩,
        ?_, ?_⟩
      · intro hnot
        cases hnot
      · intro hinvalid
        rw [htyped.valid] at hinvalid
        cases hinvalid
    · have hrefused := Decimal.refused_text hfit hout
      have hnot : ¬ (isValid rounded.text).value = true := by
        rw [hrefused.invalid]
        exact Bool.false_ne_true
      rw [← hshown] at hout
      exact ⟨fun _ => ⟨shown, hread, iff_of_false hnot hout, fun hvalid => absurd hvalid hnot⟩,
        fun _ => hrefused.invalid, fun _ => hrefused.scan⟩

/-- Minus two and a half is shown without places as minus two, which can be typed back. -/
theorem display_typesBack_negativeHalf :
    (-999999 : Int) ≤ 0 ∧ (Float.ofBits 0xc004000000000000).isFinite = true ∧
      ∃ text y, display 0 (Float.ofBits 0xc004000000000000) = .ok text ∧ text = "-2" ∧
        (isValid text).value = true ∧ (calculate text).value = .ok y ∧ IsNearest y (-2) ∧
        y ≠ -0 := by
  have hplaces : (-999999 : Int) ≤ 0 := by decide
  have hfinite : (Float.ofBits 0xc004000000000000).isFinite = true := by decide +kernel
  obtain ⟨text, hdisplay, htyped, -, -⟩ :=
    display_typesBack_iff (Float.ofBits 0xc004000000000000) hplaces
  obtain ⟨shown, hread, hvalid, hvalue⟩ := htyped hfinite
  have htext : (display 0 (Float.ofBits 0xc004000000000000)).toOption = some "-2" := by
    decide +kernel
  rw [hdisplay] at htext
  obtain rfl : text = "-2" := Option.some.inj htext
  have htwo : readNumber? "-2".toList = some ⟨true, 2, 0⟩ := by decide +kernel
  obtain rfl : shown = ⟨true, 2, 0⟩ := Option.some.inj (hread.symm.trans htwo)
  have hminus : Decimal.value ⟨true, 2, 0⟩ = -2 := by norm_num [Decimal.value, Decimal.magnitude]
  rw [hminus] at hvalid hvalue
  have hout : IsWrittenOut (-2) := Or.inr (by norm_num)
  obtain ⟨y, hcalculate, hnearest, hzero⟩ := hvalue (hvalid.2 hout)
  exact ⟨hplaces, hfinite, _, y, hdisplay, rfl, hvalid.2 hout, hcalculate, hnearest, hzero⟩

end Calculator
