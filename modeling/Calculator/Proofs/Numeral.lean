import Calculator.Decimal.Literal
import Calculator.Proofs.DecimalValue
import Mathlib.Data.List.TakeWhile

/-!
# What a shown text denotes

A shown number is read as numbers are written everywhere: a sign, a literal, and the
letter `e` with a signed exponent, where the sign and the exponent may be left out.  The
reading knows nothing of the way in which numbers are shown.  Read like this, the text of
a decimal denotes the value of the decimal, whether it is written out or has an exponent.

## Main definitions

* `exponentPart?`, `readMagnitude?`, `readNumber?` — the reading of an exponent, of a
  number without its sign, and of a number.

## Main results

* `exists_readMagnitude?_positional`, `exists_readMagnitude?_scientific` — the two ways to
  write digits.
* `Decimal.exists_readNumber?_text` — **the text of a decimal denotes its value**.
-/

namespace Calculator

/-! ### Reading a number -/

/-- The exponent that the end of a number writes: zero for nothing, and otherwise the
letter, a sign and digits. -/
def exponentPart? : List Char → Option Int
  | [] => some 0
  | 'e' :: '+' :: c :: cs =>
      if (c :: cs).all Char.isDigit then some (Nat.ofDigitChars 10 (c :: cs) 0) else none
  | 'e' :: '-' :: c :: cs =>
      if (c :: cs).all Char.isDigit then some (-(Nat.ofDigitChars 10 (c :: cs) 0 : Int)) else none
  | _ => none

/-- The number that a text without a sign writes: a literal and an exponent. -/
def readMagnitude? (text : List Char) : Option Decimal :=
  let mantissa := text.takeWhile isLiteralChar
  if mantissa = [] then none
  else do
    let number ← literal? mantissa
    let shift ← exponentPart? (text.dropWhile isLiteralChar)
    some { number with exponent := number.exponent + shift }

/-- The number that a text writes. -/
def readNumber? : List Char → Option Decimal
  | '-' :: text => (readMagnitude? text).map ({ · with negative := true })
  | text => readMagnitude? text

/-! ### Literals -/

variable {digits before after mantissa rest : List Char}

theorem isLiteralChar_of_isDigit {c : Char} (h : c.isDigit = true) : isLiteralChar c = true := by
  rw [isLiteralChar, h, Bool.true_or]

theorem ne_decimalPoint_of_isDigit {c : Char} (h : c.isDigit = true) : c ≠ decimalPoint := by
  rintro rfl
  cases h

theorem decimalPoint_not_mem (hdigits : ∀ c ∈ digits, c.isDigit = true) :
    decimalPoint ∉ digits := fun hmem => ne_decimalPoint_of_isDigit (hdigits _ hmem) rfl

theorem filter_digits (hdigits : ∀ c ∈ digits, c.isDigit = true) :
    digits.filter (· ≠ decimalPoint) = digits :=
  List.filter_eq_self.2 fun c hc => decide_eq_true (ne_decimalPoint_of_isDigit (hdigits c hc))

/-- Digits alone are a literal of a whole number. -/
theorem literal?_digits (hdigits : ∀ c ∈ digits, c.isDigit = true) :
    literal? digits = some ⟨false, Nat.ofDigitChars 10 digits 0, 0⟩ := by
  have hpoint := decimalPoint_not_mem hdigits
  have hliteral : IsLiteral digits := by
    refine ⟨?_, ?_⟩
    · rw [List.count_eq_zero.2 hpoint]
      exact Nat.zero_le 1
    · rintro rfl
      exact hpoint List.mem_cons_self
  have hplaces : fractionPlaces digits = 0 := by
    have hall : digits.dropWhile (· ≠ decimalPoint) = [] :=
      List.dropWhile_eq_nil_iff.2 fun c hc =>
        decide_eq_true (ne_decimalPoint_of_isDigit (hdigits c hc))
    rw [fractionPlaces, hall]
    rfl
  rw [literal?_eq_some hliteral, literalValue, filter_digits hdigits, hplaces]
  rfl

/-- Digits with a point among them are a literal; the digits behind the point count its
places. -/
theorem literal?_point (hbefore : ∀ c ∈ before, c.isDigit = true)
    (hafter : ∀ c ∈ after, c.isDigit = true) (hne : before ≠ []) :
    literal? (before ++ decimalPoint :: after) =
      some ⟨false, Nat.ofDigitChars 10 (before ++ after) 0, -(after.length : Int)⟩ := by
  have hliteral : IsLiteral (before ++ decimalPoint :: after) := by
    refine ⟨?_, fun hpoint => ?_⟩
    · rw [List.count_append, List.count_cons_self,
        List.count_eq_zero.2 (decimalPoint_not_mem hbefore),
        List.count_eq_zero.2 (decimalPoint_not_mem hafter)]
    · have hlength := congrArg List.length hpoint
      have hpos := List.length_pos_iff.2 hne
      simp only [List.length_append, List.length_cons, List.length_nil] at hlength
      omega
  have hplaces : fractionPlaces (before ++ decimalPoint :: after) = after.length := by
    have hskip : (before ++ decimalPoint :: after).dropWhile (· ≠ decimalPoint) =
        decimalPoint :: after := by
      rw [List.dropWhile_append_of_pos fun c hc =>
        decide_eq_true (ne_decimalPoint_of_isDigit (hbefore c hc))]
      simp
    rw [fractionPlaces, hskip, List.drop_one, List.tail_cons]
  have hfilter : (before ++ decimalPoint :: after).filter (· ≠ decimalPoint) =
      before ++ after := by
    rw [List.filter_append, filter_digits hbefore, List.filter_cons_of_neg (by simp),
      filter_digits hafter]
  rw [literal?_eq_some hliteral, literalValue, hfilter, hplaces]

/-! ### A literal and an exponent -/

/-- An exponent begins with its letter, which is no part of a literal. -/
theorem takeWhile_exponentPart {shift : Int} (h : exponentPart? rest = some shift) :
    rest.takeWhile isLiteralChar = [] ∧ rest.dropWhile isLiteralChar = rest := by
  have hletter : isLiteralChar 'e' = false := by decide
  unfold exponentPart? at h
  split at h
  · exact ⟨rfl, rfl⟩
  · simp [hletter]
  · simp [hletter]
  · cases h

/-- A literal and an exponent are read one after the other. -/
theorem readMagnitude?_append {number : Decimal} {shift : Int} (hne : mantissa ≠ [])
    (hmantissa : ∀ c ∈ mantissa, isLiteralChar c = true)
    (hliteral : literal? mantissa = some number)
    (hrest : exponentPart? rest = some shift) :
    readMagnitude? (mantissa ++ rest) =
      some { number with exponent := number.exponent + shift } := by
  obtain ⟨htake, hdrop⟩ := takeWhile_exponentPart hrest
  have hfirst : (mantissa ++ rest).takeWhile isLiteralChar = mantissa := by
    rw [List.takeWhile_append_of_pos hmantissa, htake, List.append_nil]
  have hlast : (mantissa ++ rest).dropWhile isLiteralChar = rest := by
    rw [List.dropWhile_append_of_pos hmantissa, hdrop]
  simp only [readMagnitude?, hfirst, hlast, if_neg hne, hliteral, hrest]
  rfl

/-- A text without a sign is read without one. -/
theorem readNumber?_of_readMagnitude? {text : List Char} {number : Decimal}
    (h : readMagnitude? text = some number) : readNumber? text = some number := by
  unfold readNumber?
  split
  · -- a minus sign is no part of a literal
    have hsign : isLiteralChar '-' = false := by decide
    simp [readMagnitude?, hsign] at h
  · exact h

/-! ### Digits as they are shown -/

theorem isDigit_toDigits (n : Nat) : ∀ c ∈ Nat.toDigits 10 n, c.isDigit = true :=
  fun _ hc => Nat.isDigit_of_mem_toDigits (by decide) (by decide) hc

theorem isDigit_zeros (k : Nat) : ∀ c ∈ List.replicate k '0', c.isDigit = true := by
  intro c hc
  rw [List.eq_of_mem_replicate hc]
  rfl

theorem isLiteralChar_point (hbefore : ∀ c ∈ before, c.isDigit = true)
    (hafter : ∀ c ∈ after, c.isDigit = true) :
    ∀ c ∈ before ++ decimalPoint :: after, isLiteralChar c = true := by
  intro c hc
  rcases List.mem_append.1 hc with hc | hc
  · exact isLiteralChar_of_isDigit (hbefore c hc)
  · rcases List.mem_cons.1 hc with rfl | hc
    · rfl
    · exact isLiteralChar_of_isDigit (hafter c hc)

/-- The exponent that is shown is the one that is read. -/
theorem exponentPart?_exponentText (e : Int) : exponentPart? ('e' :: exponentText e) = some e := by
  have hdigits := isDigit_toDigits e.natAbs
  have hvalue : Nat.ofDigitChars 10 (Nat.toDigits 10 e.natAbs) 0 = e.natAbs :=
    Nat.ofDigitChars_ten_toDigits
  unfold exponentText
  cases hcs : Nat.toDigits 10 e.natAbs with
  | nil => exact absurd hcs Nat.toDigits_ne_nil
  | cons c cs =>
    rw [hcs] at hdigits hvalue
    have hall : (c :: cs).all Char.isDigit = true := List.all_eq_true.2 hdigits
    split
    · simp only [exponentPart?, if_pos hall, hvalue, Option.some.injEq]
      omega
    · simp only [exponentPart?, if_pos hall, hvalue, Option.some.injEq]
      omega

/-- A literal alone is read as what it denotes. -/
theorem readMagnitude?_literal {number : Decimal} (hne : mantissa ≠ [])
    (hmantissa : ∀ c ∈ mantissa, isLiteralChar c = true)
    (hliteral : literal? mantissa = some number) :
    readMagnitude? mantissa = some number := by
  have hread : readMagnitude? (mantissa ++ []) =
      some { number with exponent := number.exponent + 0 } :=
    readMagnitude?_append hne hmantissa hliteral rfl
  rwa [List.append_nil, add_zero] at hread

/-- Zeros in front of digits do not count. -/
theorem ofDigitChars_zeros_append (k : Nat) (digits : List Char) :
    Nat.ofDigitChars 10 (List.replicate k '0' ++ digits) 0 = Nat.ofDigitChars 10 digits 0 := by
  rw [Nat.ofDigitChars_append, Nat.ofDigitChars_replicate_zero, Nat.mul_zero]

/-- Zeros behind digits multiply. -/
theorem ofDigitChars_append_zeros (k : Nat) (digits : List Char) :
    Nat.ofDigitChars 10 (digits ++ List.replicate k '0') 0 =
      Nat.ofDigitChars 10 digits 0 * powerOfTen k := by
  rw [Nat.ofDigitChars_append, Nat.ofDigitChars_replicate_zero, Nat.mul_comm]
  rfl

/-- Digits written out around the point are a literal of the number they count, at the
place of the last of them. -/
theorem exists_literal?_positional (hdigits : ∀ c ∈ digits, c.isDigit = true)
    (hne : digits ≠ []) (place : Int) :
    ∃ number, positional digits place ≠ [] ∧
      (∀ c ∈ positional digits place, isLiteralChar c = true) ∧
      literal? (positional digits place) = some number ∧ number.negative = false ∧
      number.magnitude = Decimal.magnitude ⟨false, Nat.ofDigitChars 10 digits 0, place⟩ := by
  unfold positional
  split
  · next hplace =>
    have hall : ∀ c ∈ digits ++ List.replicate place.toNat '0', c.isDigit = true :=
      List.forall_mem_append.2 ⟨hdigits, isDigit_zeros _⟩
    refine ⟨_, by simp [hne], fun c hc => isLiteralChar_of_isDigit (hall c hc),
      literal?_digits hall, rfl, ?_⟩
    rw [ofDigitChars_append_zeros, Decimal.magnitude_shift, zero_add, Int.toNat_of_nonneg hplace]
  · next hplace =>
    -- the digits and the zeros in front of them reach at least one place before the point
    dsimp only
    generalize hpadded : List.replicate ((-place).toNat + 1 - digits.length) '0' ++ digits = padded
    have hall : ∀ c ∈ padded, c.isDigit = true :=
      hpadded ▸ List.forall_mem_append.2 ⟨isDigit_zeros _, hdigits⟩
    have hlength : (-place).toNat + 1 ≤ padded.length := by
      rw [← hpadded, List.length_append, List.length_replicate]
      omega
    have hbefore : ∀ c ∈ padded.take (padded.length - (-place).toNat), c.isDigit = true :=
      fun c hc => hall c (List.mem_of_mem_take hc)
    have hafter : ∀ c ∈ padded.drop (padded.length - (-place).toNat), c.isDigit = true :=
      fun c hc => hall c (List.mem_of_mem_drop hc)
    have hsome : padded.take (padded.length - (-place).toNat) ≠ [] := by
      rw [← List.length_pos_iff, List.length_take]
      omega
    refine ⟨_, by simp, isLiteralChar_point hbefore hafter, literal?_point hbefore hafter hsome,
      rfl, ?_⟩
    rw [List.take_append_drop, List.length_drop, ← hpadded, ofDigitChars_zeros_append, hpadded]
    congr 2
    omega

/-- Digits written out are read as the number they count. -/
theorem exists_readMagnitude?_positional (hdigits : ∀ c ∈ digits, c.isDigit = true)
    (hne : digits ≠ []) (place : Int) :
    ∃ number, readMagnitude? (positional digits place) = some number ∧
      number.negative = false ∧
      number.magnitude = Decimal.magnitude ⟨false, Nat.ofDigitChars 10 digits 0, place⟩ := by
  obtain ⟨number, hsome, hchars, hliteral, hsign, hmagnitude⟩ :=
    exists_literal?_positional hdigits hne place
  exact ⟨number, readMagnitude?_literal hsome hchars hliteral, hsign, hmagnitude⟩

/-- Digits with an exponent are read as the number they count, the first of them at the
place that the exponent says. -/
theorem exists_readMagnitude?_scientific (hdigits : ∀ c ∈ digits, c.isDigit = true)
    (hne : digits ≠ []) (leadingPlace : Int) :
    ∃ number, readMagnitude? (scientific digits leadingPlace) = some number ∧
      number.negative = false ∧
      number.magnitude = Decimal.magnitude
        ⟨false, Nat.ofDigitChars 10 digits 0, leadingPlace - (digits.length - 1 : Nat)⟩ := by
  have hexponent := exponentPart?_exponentText leadingPlace
  unfold scientific
  split
  · next hshort =>
    have hone : digits.take 1 = digits := List.take_of_length_le hshort
    rw [hone, List.append_nil]
    refine ⟨_, readMagnitude?_append hne
      (fun c hc => isLiteralChar_of_isDigit (hdigits c hc)) (literal?_digits hdigits)
      hexponent, rfl, ?_⟩
    show Decimal.magnitude ⟨false, _, 0 + leadingPlace⟩ = _
    congr 2
    omega
  · next hlong =>
    have hbefore : ∀ c ∈ digits.take 1, c.isDigit = true :=
      fun c hc => hdigits c (List.mem_of_mem_take hc)
    have hafter : ∀ c ∈ digits.drop 1, c.isDigit = true :=
      fun c hc => hdigits c (List.mem_of_mem_drop hc)
    have hsome : digits.take 1 ≠ [] := by
      rw [← List.length_pos_iff, List.length_take]
      omega
    refine ⟨_, readMagnitude?_append (by simp) (isLiteralChar_point hbefore hafter)
      (literal?_point hbefore hafter hsome) hexponent, rfl, ?_⟩
    rw [List.take_append_drop, List.length_drop]
    show Decimal.magnitude ⟨false, _, -((digits.length - 1 : Nat) : Int) + leadingPlace⟩ = _
    congr 2
    omega

/-! ### The text of a decimal -/

namespace Decimal

/-- The text of a magnitude denotes it, whichever way it is written. -/
theorem exists_readMagnitude?_magnitudeText (d : Decimal) :
    ∃ number, readMagnitude? d.magnitudeText = some number ∧ number.negative = false ∧
      number.magnitude = d.magnitude := by
  have hdigits := isDigit_toDigits d.coefficient
  have hne : Nat.toDigits 10 d.coefficient ≠ [] := Nat.toDigits_ne_nil
  have hvalue : Nat.ofDigitChars 10 (Nat.toDigits 10 d.coefficient) 0 = d.coefficient :=
    Nat.ofDigitChars_ten_toDigits
  unfold magnitudeText
  dsimp only
  split
  · obtain ⟨number, hread, hsign, hmagnitude⟩ :=
      exists_readMagnitude?_positional hdigits hne d.exponent
    rw [hvalue] at hmagnitude
    exact ⟨number, hread, hsign, hmagnitude⟩
  · obtain ⟨number, hread, hsign, hmagnitude⟩ :=
      exists_readMagnitude?_scientific hdigits hne d.leadingPlace
    refine ⟨number, hread, hsign, ?_⟩
    have hcount := digitCount_pos d.coefficient
    have hplace : d.leadingPlace - (digitCount d.coefficient - 1 : Nat) = d.exponent := by
      unfold leadingPlace
      omega
    rw [hmagnitude, hvalue, ← digitCount, hplace]
    rfl

/-- **The text of a decimal denotes its value.** -/
theorem exists_readNumber?_text {d : Decimal} (hfit : digitCount d.coefficient ≤ maxDigits) :
    ∃ number, readNumber? d.text.toList = some number ∧ number.value = d.value := by
  unfold text
  split
  · next hzero =>
    refine ⟨⟨false, 0, 0⟩, by decide +kernel, ?_⟩
    simp [value, magnitude, hzero]
  · next hnonzero =>
    obtain ⟨number, hread, hsign, hmagnitude⟩ :=
      d.normalized.exists_readMagnitude?_magnitudeText
    rw [magnitude_normalized hfit] at hmagnitude
    rw [String.toList_ofList]
    cases hnegative : d.negative with
    | true =>
      refine ⟨{ number with negative := true }, ?_, value_congr hnegative.symm hmagnitude⟩
      simp only [if_true, List.singleton_append, readNumber?, hread]
      rfl
    | false =>
      refine ⟨number, readNumber?_of_readMagnitude? hread, value_congr ?_ hmagnitude⟩
      rw [hsign, hnegative]

end Decimal
end Calculator
