import Calculator.Proofs.Display

/-!
# The form of shown numbers

Every number has one text.  A number that is written out has no superfluous zeros: none in
front of its whole part but the single one of a number below one, and none at the end of its
fraction, which is left out with its point when it is empty.  A number with an exponent begins
with one digit that is not zero, and its exponent has a sign and no zeros in front.  Zero has
no sign.

The two halves of this are proved apart.  The form comes from the digits, which neither begin
nor end in zero, and from the way they are laid around the point.  That there is one text comes
from the decimal: without zeros at the end of its coefficient a value has one form only.

## Main definitions

* `IsWholePart`, `IsFractionPart` — digits in front of the point, and behind it.
* `PositionalForm`, `ExponentForm` — the two forms of a number.
* `shownValue places x` — the number that is shown for a result.

## Main results

* `exists_positional_eq`, `exists_scientific_eq` — the two ways to write digits.
* `Decimal.positionalForm_text`, `Decimal.exponentForm_text` — the text of a decimal.
* `Decimal.text_eq_iff` — decimals have the same text when they have the same value.
* `display_canonical` — **every number that is shown has one text, in its canonical form**.
-/

namespace Calculator

/-- Digits in front of the point: at least one, and no zero in front of others. -/
structure IsWholePart (cs : List Char) : Prop where
  /-- There is a digit. -/
  ne_nil : cs ≠ []
  /-- There are digits only. -/
  digits : ∀ c ∈ cs, c.isDigit = true
  /-- The first is not zero, unless it is the only one. -/
  head : cs = ['0'] ∨ cs.head? ≠ some '0'

/-- What may follow the whole part: nothing, or the point and digits the last of which is not
zero. -/
inductive IsFractionPart : List Char → Prop
  /-- There is no fraction. -/
  | none : IsFractionPart []
  /-- There is one. -/
  | digits {cs : List Char} (hne : cs ≠ []) (hdigits : ∀ c ∈ cs, c.isDigit = true)
      (hlast : cs.getLast? ≠ some '0') : IsFractionPart ('.' :: cs)

/-- The sign in front of a number: a minus or nothing. -/
def minusPart (negative : Bool) : List Char := if negative then ['-'] else []

/-- A number that is written out. -/
inductive PositionalForm (negative : Bool) : List Char → Prop
  /-- It has a whole part and perhaps a fraction. -/
  | mk {whole fraction : List Char} (hwhole : IsWholePart whole)
      (hfraction : IsFractionPart fraction) :
      PositionalForm negative (minusPart negative ++ (whole ++ fraction))

/-- A number with an exponent. -/
inductive ExponentForm (negative : Bool) : List Char → Prop
  /-- It has one digit that is not zero, perhaps a fraction, and an exponent with its sign. -/
  | mk {lead sign : Char} {fraction exponent : List Char} (hlead : lead.isDigit = true)
      (hnonzero : lead ≠ '0') (hfraction : IsFractionPart fraction)
      (hsign : sign = '+' ∨ sign = '-') (hexponent : IsWholePart exponent)
      (hplace : exponent ≠ ['0']) :
      ExponentForm negative (minusPart negative ++ (lead :: fraction ++ 'e' :: sign :: exponent))

/-- The number that is shown for a finite result: its shortest decimal, rounded. -/
def shownValue (places : Int) (x : Float) : ℚ := roundedAt places (Decimal.ofFloat x).value

variable {digits : List Char} {n : ℕ}

/-! ### The digits of a number -/

theorem digitChar_ne_zero (hpos : 0 < n) (hlt : n < 10) : n.digitChar ≠ '0' := by
  interval_cases n <;> decide

/-- The digits of a positive number do not begin with zero. -/
theorem head?_toDigits_ne_zero (hn : 0 < n) : (Nat.toDigits 10 n).head? ≠ some '0' := by
  induction n using Nat.strong_induction_on with
  | h n ih =>
    rw [Nat.toDigits_eq_if (by decide)]
    split
    · next hlt =>
      rw [List.head?_cons, ne_eq, Option.some.injEq]
      exact digitChar_ne_zero hn hlt
    · next hge =>
      rw [List.head?_append_of_ne_nil _ Nat.toDigits_ne_nil]
      exact ih (n / 10) (by omega) (by omega)

/-- The last digit of a number is what is left over tens. -/
theorem getLast?_toDigits (n : ℕ) : (Nat.toDigits 10 n).getLast? = some (n % 10).digitChar := by
  rw [Nat.toDigits_eq_if (by decide)]
  split
  · next hlt => rw [Nat.mod_eq_of_lt hlt, List.getLast?_singleton]
  · next hge => rw [List.getLast?_concat]

theorem getLast?_toDigits_ne_zero (hn : n % 10 ≠ 0) : (Nat.toDigits 10 n).getLast? ≠ some '0' := by
  rw [getLast?_toDigits, ne_eq, Option.some.injEq]
  exact digitChar_ne_zero (Nat.pos_of_ne_zero hn) (Nat.mod_lt n (by decide))

theorem isWholePart_toDigits (hn : 0 < n) : IsWholePart (Nat.toDigits 10 n) :=
  ⟨Nat.toDigits_ne_nil, isDigit_toDigits n, Or.inr (head?_toDigits_ne_zero hn)⟩

/-! ### Digits around the point -/

/-- Digits that neither begin nor end in zero are written out without superfluous zeros. -/
theorem exists_positional_eq (hne : digits ≠ []) (hdigits : ∀ c ∈ digits, c.isDigit = true)
    (hhead : digits.head? ≠ some '0') (hlast : digits.getLast? ≠ some '0') (place : ℤ) :
    ∃ whole fraction, positional digits place = whole ++ fraction ∧ IsWholePart whole ∧
      IsFractionPart fraction := by
  unfold positional
  split
  · next hplace =>
    refine ⟨_, [], (List.append_nil _).symm, ⟨?_, ?_, Or.inr ?_⟩, .none⟩
    · exact List.append_ne_nil_of_left_ne_nil hne _
    · exact List.forall_mem_append.2 ⟨hdigits, isDigit_zeros _⟩
    · rwa [List.head?_append_of_ne_nil _ hne]
  · next hplace =>
    dsimp only
    obtain ⟨after, hafter⟩ : ∃ after, (-place).toNat = after + 1 := ⟨(-place).toNat - 1, by omega⟩
    rw [hafter]
    generalize hpadded : List.replicate (after + 1 + 1 - digits.length) '0' ++ digits = padded
    have hall : ∀ c ∈ padded, c.isDigit = true :=
      hpadded ▸ List.forall_mem_append.2 ⟨isDigit_zeros _, hdigits⟩
    have hlength : padded.length = max (after + 1 + 1) digits.length := by
      rw [← hpadded, List.length_append, List.length_replicate]
      omega
    have hlong : ¬ padded.length ≤ padded.length - (after + 1) := by omega
    refine ⟨_, _, rfl, ⟨?_, fun c hc => hall c (List.mem_of_mem_take hc), ?_⟩,
      .digits ?_ (fun c hc => hall c (List.mem_of_mem_drop hc)) ?_⟩
    · rw [← List.length_pos_iff, List.length_take]
      omega
    · rcases Nat.lt_or_ge (after + 1) digits.length with hmore | hless
      · -- the digits reach beyond the point
        have hnone : after + 1 + 1 - digits.length = 0 := by omega
        rw [hnone, List.replicate_zero, List.nil_append] at hpadded
        rw [← hpadded, List.head?_take, if_neg (by omega)]
        exact Or.inr hhead
      · -- a single zero stands before the point
        obtain ⟨zeros, hzeros⟩ : ∃ zeros, after + 1 + 1 - digits.length = zeros + 1 :=
          ⟨after + 1 - digits.length, by omega⟩
        have hone : padded.length - (after + 1) = 1 := by omega
        rw [hone, ← hpadded, hzeros]
        exact Or.inl rfl
    · rw [← List.length_pos_iff, List.length_drop]
      omega
    · rw [List.getLast?_drop, if_neg hlong, ← hpadded, List.getLast?_append_of_ne_nil _ hne]
      exact hlast

/-- Digits that neither begin nor end in zero have no superfluous zeros with an exponent
either. -/
theorem exists_scientific_eq (hne : digits ≠ []) (hdigits : ∀ c ∈ digits, c.isDigit = true)
    (hhead : digits.head? ≠ some '0') (hlast : digits.getLast? ≠ some '0') (leadingPlace : ℤ) :
    ∃ lead fraction, scientific digits leadingPlace =
        lead :: fraction ++ 'e' :: exponentText leadingPlace ∧
      lead.isDigit = true ∧ lead ≠ '0' ∧ IsFractionPart fraction := by
  obtain ⟨lead, others, rfl⟩ := List.exists_cons_of_ne_nil hne
  obtain ⟨hlead, hothers⟩ := List.forall_mem_cons.1 hdigits
  have hnonzero : lead ≠ '0' := fun hzero => hhead (congrArg some hzero)
  cases others with
  | nil => exact ⟨lead, [], rfl, hlead, hnonzero, .none⟩
  | cons c others =>
    rw [List.getLast?_cons_cons] at hlast
    exact ⟨lead, '.' :: c :: others, rfl, hlead, hnonzero,
      .digits (List.cons_ne_nil c others) hothers hlast⟩

namespace Decimal

variable {d d' : Decimal}

/-! ### The text of a decimal -/

theorem text_of_ne_zero (hnonzero : d.coefficient ≠ 0) :
    d.text.toList = minusPart d.negative ++ d.normalized.magnitudeText := by
  rw [text, if_neg hnonzero, String.toList_ofList]
  rfl

/-- A decimal between the bounds is written out. -/
theorem positionalForm_text (hfit : digitCount d.coefficient ≤ maxDigits)
    (hbounds : 1 / 10 ^ 6 ≤ |d.value| ∧ |d.value| < 10 ^ 21) :
    PositionalForm d.negative d.text.toList := by
  have hnonzero : d.coefficient ≠ 0 := by
    intro hzero
    rw [value_eq_zero_iff.2 hzero, abs_zero] at hbounds
    norm_num at hbounds
  have hlast := coefficient_normalized_mod_ten hfit hnonzero
  obtain ⟨whole, fraction, heq, hwhole, hfraction⟩ := exists_positional_eq Nat.toDigits_ne_nil
    (isDigit_toDigits _) (head?_toDigits_ne_zero (by omega)) (getLast?_toDigits_ne_zero hlast)
    d.normalized.exponent
  rw [text_of_ne_zero hnonzero, magnitudeText,
    if_pos ((isPositional_normalized_iff hfit hnonzero).2 hbounds), heq]
  exact .mk hwhole hfraction

/-- Any other decimal but zero has an exponent. -/
theorem exponentForm_text (hfit : digitCount d.coefficient ≤ maxDigits) (hvalue : d.value ≠ 0)
    (hbounds : ¬ (1 / 10 ^ 6 ≤ |d.value| ∧ |d.value| < 10 ^ 21)) :
    ExponentForm d.negative d.text.toList := by
  have hnonzero : d.coefficient ≠ 0 := fun hzero => hvalue (value_eq_zero_iff.2 hzero)
  have hlast := coefficient_normalized_mod_ten hfit hnonzero
  have hexponent : ¬ d.normalized.isPositional = true :=
    fun h => hbounds ((isPositional_normalized_iff hfit hnonzero).1 h)
  -- zero is the exponent of a number that is written out
  have hplace : 0 < d.normalized.leadingPlace.natAbs := by
    refine Int.natAbs_pos.2 fun hzero => hexponent ?_
    rw [isPositional, hzero]
    rfl
  have hwhole := isWholePart_toDigits hplace
  have hsingle : Nat.toDigits 10 d.normalized.leadingPlace.natAbs ≠ ['0'] := by
    intro hzero
    apply head?_toDigits_ne_zero hplace
    rw [hzero]
    rfl
  obtain ⟨lead, fraction, heq, hlead, hlead', hfraction⟩ := exists_scientific_eq
    Nat.toDigits_ne_nil (isDigit_toDigits _) (head?_toDigits_ne_zero (by omega))
    (getLast?_toDigits_ne_zero hlast) d.normalized.leadingPlace
  rw [text_of_ne_zero hnonzero, magnitudeText, if_neg hexponent, heq, exponentText]
  refine .mk hlead hlead' hfraction ?_ hwhole hsingle
  split
  · exact Or.inr rfl
  · exact Or.inl rfl

/-! ### One text for one value -/

/-- A magnitude is written in one way, whatever form it has. -/
theorem magnitudeText_normalized_congr (hfit : digitCount d.coefficient ≤ maxDigits)
    (hfit' : digitCount d'.coefficient ≤ maxDigits) (hnonzero : d.coefficient ≠ 0)
    (h : d.magnitude = d'.magnitude) :
    d.normalized.magnitudeText = d'.normalized.magnitudeText := by
  have hnonzero' : d'.coefficient ≠ 0 := by
    rw [ne_eq, coefficient_eq_zero_iff, ← h, ← coefficient_eq_zero_iff]
    exact hnonzero
  obtain ⟨hcoefficient, hexponent⟩ := eq_of_magnitude_eq
    (coefficient_normalized_mod_ten hfit hnonzero) (coefficient_normalized_mod_ten hfit' hnonzero')
    (by rw [magnitude_normalized hfit, magnitude_normalized hfit', h])
  rw [magnitudeText, magnitudeText, isPositional, isPositional, leadingPlace, leadingPlace,
    hcoefficient, hexponent]

/-- The sign of a decimal other than zero is the sign of its value. -/
theorem negative_eq_decide (hvalue : d.value ≠ 0) : d.negative = decide (d.value < 0) := by
  have hpos : 0 < d.magnitude := by
    rw [← d.abs_value]
    exact abs_pos.2 hvalue
  unfold value
  cases d.negative with
  | true => simpa using hpos
  | false => simpa using hpos.le

/-- Decimals of one value other than zero have one sign and one magnitude. -/
theorem parts_eq_of_value_eq (h : d.value = d'.value) (hvalue : d.value ≠ 0) :
    d.negative = d'.negative ∧ d.magnitude = d'.magnitude := by
  refine ⟨?_, by rw [← d.abs_value, h, d'.abs_value]⟩
  rw [negative_eq_decide hvalue, negative_eq_decide (h ▸ hvalue), h]

/-- Decimals of few enough digits have the same text when they have the same value. -/
theorem text_eq_iff (hfit : digitCount d.coefficient ≤ maxDigits)
    (hfit' : digitCount d'.coefficient ≤ maxDigits) : d.text = d'.text ↔ d.value = d'.value := by
  constructor
  · intro h
    obtain ⟨number, hread, hnumber⟩ := exists_readNumber?_text hfit
    obtain ⟨number', hread', hnumber'⟩ := exists_readNumber?_text hfit'
    rw [h, hread', Option.some.injEq] at hread
    rw [← hnumber, ← hnumber', hread]
  · intro h
    by_cases hzero : d.value = 0
    · have hzero' : d'.value = 0 := h ▸ hzero
      rw [text, if_pos (value_eq_zero_iff.1 hzero), text, if_pos (value_eq_zero_iff.1 hzero')]
    · obtain ⟨hsign, hmagnitude⟩ := parts_eq_of_value_eq h hzero
      have hnonzero : d.coefficient ≠ 0 := fun hnone => hzero (value_eq_zero_iff.2 hnone)
      have hnonzero' : d'.coefficient ≠ 0 := fun hnone => hzero (h ▸ value_eq_zero_iff.2 hnone)
      rw [← String.toList_inj, text_of_ne_zero hnonzero, text_of_ne_zero hnonzero', hsign,
        magnitudeText_normalized_congr hfit hfit' hnonzero hmagnitude]

end Decimal

/-! ### The text of a result -/

/-- **Every number that is shown has one text, in its canonical form.**  Let `r` be the rounded
number.  The text is `0` exactly when `r` is zero, and never `-0`.  From a millionth up to, and
without, `10²¹`, it is written out; any other number but zero has an exponent.  It has a minus
sign exactly when `r` is negative.  And any two finite results, with whatever places, have the
same text exactly when the rounded numbers are equal. -/
theorem display_canonical {x : Float} (hx : x.isFinite = true) {places : ℤ}
    (hplaces : -999999 ≤ places) :
    ∃ text, display places x = .ok text ∧ text ≠ "-0" ∧
      (text = "0" ↔ shownValue places x = 0) ∧
      (1 / 10 ^ 6 ≤ |shownValue places x| ∧ |shownValue places x| < 10 ^ 21 →
        PositionalForm (decide (shownValue places x < 0)) text.toList) ∧
      (shownValue places x ≠ 0 →
        ¬ (1 / 10 ^ 6 ≤ |shownValue places x| ∧ |shownValue places x| < 10 ^ 21) →
          ExponentForm (decide (shownValue places x < 0)) text.toList) ∧
      ∀ (y : Float) (places' : ℤ), y.isFinite = true → -999999 ≤ places' →
        (display places' y = .ok text ↔ shownValue places' y = shownValue places x) := by
  obtain ⟨d, hdisplay, hvalue, hfit⟩ := exists_display_eq_text hx hplaces
  rw [shownValue, ← hvalue]
  have hzero : d.text = "0" ↔ d.value = 0 := by
    have hnone : digitCount (Decimal.coefficient ⟨false, 0, 0⟩) ≤ Decimal.maxDigits := by decide
    have hnovalue : Decimal.value ⟨false, 0, 0⟩ = 0 := Decimal.value_eq_zero_iff.2 rfl
    rw [← hnovalue, ← Decimal.text_eq_iff hfit hnone]
    rfl
  refine ⟨d.text, hdisplay, ?_, hzero, ?_, ?_, ?_⟩
  · intro hminus
    -- a text that denotes zero is the one of zero
    obtain ⟨number, hread, hnumber⟩ := Decimal.exists_readNumber?_text hfit
    have hnone : readNumber? "-0".toList = some ⟨true, 0, 0⟩ := by decide +kernel
    rw [hminus, hnone, Option.some.injEq] at hread
    rw [← hread, Decimal.value_eq_zero_iff.2 rfl] at hnumber
    rw [hzero.2 hnumber.symm] at hminus
    exact absurd hminus (by decide)
  · intro hbounds
    have hnonzero : d.value ≠ 0 := by
      intro hnone
      rw [hnone, abs_zero] at hbounds
      norm_num at hbounds
    rw [← Decimal.negative_eq_decide hnonzero]
    exact Decimal.positionalForm_text hfit hbounds
  · intro hnonzero hbounds
    rw [← Decimal.negative_eq_decide hnonzero]
    exact Decimal.exponentForm_text hfit hnonzero hbounds
  · intro y places' hy hplaces'
    obtain ⟨d', hdisplay', hvalue', hfit'⟩ := exists_display_eq_text hy hplaces'
    rw [hdisplay', shownValue, ← hvalue', Except.ok.injEq]
    exact Decimal.text_eq_iff hfit' hfit

/-- A number just below a millionth that is rounded to a millionth is written out, like the
millionth itself. -/
theorem display_canonical_millionth :
    (Float.ofBits 0x3eafe07017c01026).isFinite = true ∧ (-999999 : Int) ≤ 6 ∧
      ∃ text, display 6 (Float.ofBits 0x3eafe07017c01026) = .ok text ∧ text = "0.000001" ∧
        PositionalForm false text.toList := by
  have hfinite : (Float.ofBits 0x3eafe07017c01026).isFinite = true := by decide +kernel
  have hplaces : (-999999 : Int) ≤ 6 := by decide
  have hdecimal : Decimal.ofFloat (Float.ofBits 0x3eafe07017c01026) = ⟨false, 95, -8⟩ := by
    decide +kernel
  have hshown : shownValue 6 (Float.ofBits 0x3eafe07017c01026) = 1 / 10 ^ 6 := by
    rw [shownValue, hdecimal, roundedAt]
    norm_num [Decimal.value, Decimal.magnitude, Int.floor_eq_iff]
  have hrun : (display 6 (Float.ofBits 0x3eafe07017c01026)).toOption = some "0.000001" := by
    decide +kernel
  obtain ⟨text, hdisplay, -, -, hpositional, -, -⟩ := display_canonical hfinite hplaces
  have htext : text = "0.000001" := by
    rw [hdisplay] at hrun
    exact Option.some.inj hrun
  have hnonneg : decide (shownValue 6 (Float.ofBits 0x3eafe07017c01026) < 0) = false := by
    rw [hshown]
    norm_num
  refine ⟨hfinite, hplaces, text, hdisplay, htext, hnonneg ▸ hpositional ?_⟩
  rw [hshown]
  norm_num

end Calculator
