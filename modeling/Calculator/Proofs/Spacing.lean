import Calculator.Proofs.Lexeme
import Calculator.Token.Spacing

/-!
# The text of tokens

The text of tokens is made by joining their lexemes and taking white space out of
the result.  For tokens that scanning makes, the outcome can be told from the
tokens: between two neighbours there is a space, unless the first opens a bracket
or the second closes one.

## Main definitions

* `standsBehind bracket after cs` — whether `cs` leads up to a place behind a bracket.
* `spread gap last tokens` — the lexemes of tokens with something between them.
* `gap a b` — what stands between two tokens in the end.

## Main results

* `tightenBefore_cons` — white space before brackets, taken out from left to right.
* `toList_renderTokens` — the text of tokens.
* `spread_append` — the text before one of the tokens, and from there on.
* `filter_spread` — the text holds the lexemes, and white space.
-/

namespace Calculator

/-! ### Taking out white space -/

/-- Whether the place behind `cs` stands behind a `bracket`, white space apart, where
`after` says so of the place before. -/
def standsBehind (bracket : Char) : Bool → List Char → Bool
  | after, [] => after
  | after, c :: cs => standsBehind bracket ((after && isBlank c) || c == bracket) cs

theorem tightenFrom_append (bracket : Char) (after : Bool) (xs ys : List Char) :
    tightenFrom bracket after (xs ++ ys) =
      tightenFrom bracket after xs ++ tightenFrom bracket (standsBehind bracket after xs) ys := by
  induction xs generalizing after with
  | nil => rfl
  | cons c xs ih =>
    rw [List.cons_append, tightenFrom_cons, tightenFrom_cons, standsBehind]
    cases hskip : after && isBlank c with
    | true => simpa using ih true
    | false => simpa using ih (c == bracket)

theorem standsBehind_append (bracket : Char) (after : Bool) (xs ys : List Char) :
    standsBehind bracket after (xs ++ ys) =
      standsBehind bracket (standsBehind bracket after xs) ys := by
  induction xs generalizing after with
  | nil => rfl
  | cons c xs ih => exact ih _

/-- White space is no bracket. -/
theorem beq_eq_false_of_isBlank {bracket c : Char} (hb : isBlank bracket = false)
    (hc : isBlank c = true) : (c == bracket) = false := by
  rw [beq_eq_false_iff_ne]
  rintro rfl
  rw [hb] at hc
  cases hc

/-- Read backwards, a text leads up to a bracket when it begins with one behind its
white space. -/
theorem standsBehind_reverse {bracket : Char} (hb : isBlank bracket = false)
    (cs : List Char) :
    standsBehind bracket false cs.reverse = ((cs.dropWhile isBlank).head? == some bracket) := by
  induction cs with
  | nil => rfl
  | cons c cs ih =>
    -- the first character of the text comes last, and is passed over if it is blank
    rw [List.reverse_cons, standsBehind_append, ih]
    cases hc : isBlank c with
    | true => simp [standsBehind, hc, beq_eq_false_of_isBlank hb hc]
    | false => simp [standsBehind, hc]

/-- White space before brackets is taken out wherever a bracket comes next. -/
theorem tightenBefore_cons {bracket : Char} (hb : isBlank bracket = false) (c : Char)
    (cs : List Char) :
    tightenBefore bracket (c :: cs) =
      if isBlank c && (cs.dropWhile isBlank).head? == some bracket then
        tightenBefore bracket cs
      else c :: tightenBefore bracket cs := by
  -- from right to left, `c` is met behind all of `cs`
  rw [tightenBefore, tightenAfter, List.reverse_cons, tightenFrom_append,
    standsBehind_reverse hb, tightenFrom_cons, Bool.and_comm]
  split <;> simp [tightenBefore, tightenAfter]

/-! ### Words -/

theorem tightenFrom_word {w : List Char} (hw : IsWord w) (bracket : Char) (after : Bool) :
    tightenFrom bracket after w = w := by
  have hkeep : ∀ (w : List Char) (after : Bool), (∀ c ∈ w, isBlank c = false) →
      tightenFrom bracket after w = w := by
    intro w
    induction w with
    | nil => exact fun _ _ => rfl
    | cons c w ih =>
      intro after hblank
      obtain ⟨hc, hrest⟩ := List.forall_mem_cons.1 hblank
      simp [tightenFrom_cons, hc, ih _ hrest]
  exact hkeep w after hw.not_blank

/-- A word whose characters are all brackets, or all none, tells on its own whether the
place behind it stands behind a bracket. -/
theorem standsBehind_word {w : List Char} (hw : IsWord w) {bracket : Char} {p : Bool}
    (hp : ∀ c ∈ w, (c == bracket) = p) (after : Bool) : standsBehind bracket after w = p := by
  have hstay : ∀ w : List Char, (∀ c ∈ w, isBlank c = false) →
      (∀ c ∈ w, (c == bracket) = p) → standsBehind bracket p w = p := by
    intro w
    induction w with
    | nil => exact fun _ _ => rfl
    | cons c w ih =>
      intro hblank hp
      obtain ⟨hc, hblank⟩ := List.forall_mem_cons.1 hblank
      obtain ⟨hcp, hp⟩ := List.forall_mem_cons.1 hp
      rw [standsBehind, hc, hcp, Bool.and_false, Bool.false_or]
      exact ih hblank hp
  obtain ⟨c, w, rfl⟩ := List.exists_cons_of_ne_nil hw.ne_nil
  obtain ⟨hc, hblank⟩ := List.forall_mem_cons.1 hw.not_blank
  obtain ⟨hcp, hp⟩ := List.forall_mem_cons.1 hp
  rw [standsBehind, hc, hcp, Bool.and_false, Bool.false_or]
  exact hstay w hblank hp

theorem tightenBefore_word {w : List Char} (hw : IsWord w) {bracket : Char}
    (hb : isBlank bracket = false) (rest : List Char) :
    tightenBefore bracket (w ++ rest) = w ++ tightenBefore bracket rest := by
  have hkeep : ∀ w : List Char, (∀ c ∈ w, isBlank c = false) →
      tightenBefore bracket (w ++ rest) = w ++ tightenBefore bracket rest := by
    intro w
    induction w with
    | nil => exact fun _ => rfl
    | cons c w ih =>
      intro hblank
      obtain ⟨hc, hblank⟩ := List.forall_mem_cons.1 hblank
      rw [List.cons_append, tightenBefore_cons hb, hc, ih hblank]
      rfl
  exact hkeep w hw.not_blank

/-- A space before a word is taken out if the word is a bracket. -/
theorem tightenBefore_space_word {w : List Char} (hw : IsWord w) {bracket : Char}
    (hb : isBlank bracket = false) {p : Bool} (hp : ∀ c ∈ w, (c == bracket) = p)
    (rest : List Char) :
    tightenBefore bracket (' ' :: (w ++ rest)) =
      (if p then [] else [' ']) ++ (w ++ tightenBefore bracket rest) := by
  have hhead : (((w ++ rest).dropWhile isBlank).head? == some bracket) = p := by
    obtain ⟨c, w, rfl⟩ := List.exists_cons_of_ne_nil hw.ne_nil
    obtain ⟨hc, -⟩ := List.forall_mem_cons.1 hw.not_blank
    obtain ⟨hcp, -⟩ := List.forall_mem_cons.1 hp
    simpa [hc] using hcp
  have hspace : isBlank ' ' = true := by decide
  rw [tightenBefore_cons hb, tightenBefore_word hw hb, hhead, hspace]
  cases p <;> rfl

/-! ### The text of tokens -/

/-- What stands before a token, where `last` is the token before it. -/
def lead (gap : Token → Token → List Char) : Option Token → Token → List Char
  | none, _ => []
  | some a, t => gap a t

/-- The lexemes of tokens with something between any two, where `last` is the token
before them. -/
def spread (gap : Token → Token → List Char) : Option Token → List Token → List Char
  | _, [] => []
  | last, t :: tokens => lead gap last t ++ (t.lexeme.toList ++ spread gap (some t) tokens)

/-- What stands between two tokens at first. -/
def wideGap (_ _ : Token) : List Char := [' ']

/-- What stands between two tokens when no space is left behind open brackets. -/
def openGap (a _ : Token) : List Char := if a.kind = .openBracket then [] else [' ']

/-- What stands between two tokens: a space, except on the inner side of brackets. -/
def gap (a b : Token) : List Char :=
  if a.kind = .openBracket ∨ b.kind = .closeBracket then [] else [' ']

theorem joined_eq_spread (tokens : List Token) :
    joined tokens = spread wideGap none tokens := by
  have hbehind : ∀ (a : Token) (tokens : List Token),
      joined (a :: tokens) = a.lexeme.toList ++ spread wideGap (some a) tokens := by
    intro a tokens
    induction tokens generalizing a with
    | nil => simp [joined, spread]
    | cons b tokens ih =>
      have hb := ih b
      rw [joined, List.map_cons] at hb
      simp [joined, spread, lead, wideGap, List.intercalate_cons_cons, hb]
  cases tokens with
  | nil => rfl
  | cons a tokens => exact hbehind a tokens

/-- Whether a token opens a bracket, if there is one. -/
def opens : Option Token → Bool
  | none => false
  | some a => decide (a.kind = .openBracket)

/-- Behind open brackets, spaces go. -/
theorem tightenFrom_spread {tokens : List Token} (h : ∀ t ∈ tokens, t.Lexed) :
    ∀ last : Option Token, tightenFrom '(' (opens last) (spread wideGap last tokens) =
      spread openGap last tokens := by
  induction tokens with
  | nil => exact fun _ => rfl
  | cons t tokens ih =>
    intro last
    obtain ⟨ht, h⟩ := List.forall_mem_cons.1 h
    -- wherever the word stands, it tells by itself what may follow it
    have hword : ∀ after, tightenFrom '(' after
        (t.lexeme.toList ++ spread wideGap (some t) tokens) =
          t.lexeme.toList ++
            spread openGap (some t) tokens := by
      intro after
      rw [tightenFrom_append, tightenFrom_word ht.isWord,
        standsBehind_word ht.isWord (ht.beq_bracket .opening)]
      exact congrArg _ (ih h (some t))
    cases last with
    | none => exact hword false
    | some a =>
      have hspace : isBlank ' ' = true := by decide
      by_cases ha : a.kind = .openBracket
      · simp [spread, lead, wideGap, openGap, opens, tightenFrom_cons, ha, hspace, hword]
      · simp [spread, lead, wideGap, openGap, opens, tightenFrom_cons, ha, hword]

/-- Before closing brackets, spaces go. -/
theorem tightenBefore_spread {tokens : List Token} (h : ∀ t ∈ tokens, t.Lexed) :
    ∀ last : Option Token, tightenBefore ')'
        (spread openGap last tokens) =
      spread gap last tokens := by
  have hb : isBlank ')' = false := by decide
  induction tokens with
  | nil => exact fun _ => rfl
  | cons t tokens ih =>
    intro last
    obtain ⟨ht, h⟩ := List.forall_mem_cons.1 h
    have hword := tightenBefore_word ht.isWord hb
      (spread openGap (some t) tokens)
    have hspace := tightenBefore_space_word ht.isWord hb (ht.beq_bracket .closing)
      (spread openGap (some t) tokens)
    rw [ih h] at hword hspace
    cases last with
    | none => exact hword
    | some a =>
      by_cases ha : a.kind = .openBracket
      · simpa [spread, lead, openGap, gap, ha] using hword
      · simpa [spread, lead, openGap, gap, ha] using hspace

/-- The text of tokens, told from the tokens. -/
theorem toList_renderTokens {tokens : List Token} (h : ∀ t ∈ tokens, t.Lexed) :
    (renderTokens tokens).toList = spread gap none tokens := by
  have hopen := tightenFrom_spread h none
  rw [renderTokens, String.toList_ofList, tighten, tightenAfter, joined_eq_spread]
  rw [opens] at hopen
  rw [hopen, tightenBefore_spread h]

theorem spread_append (gap : Token → Token → List Char) (last : Option Token)
    (front rest : List Token) :
    spread gap last (front ++ rest) =
      spread gap last front ++ spread gap (front.getLast?.or last) rest := by
  induction front generalizing last with
  | nil => rfl
  | cons t front ih =>
    rw [List.cons_append, spread, spread, ih (some t)]
    cases front with
    | nil => simp
    | cons b front => simp [List.getLast?_cons]

/-! ### What the text holds -/

theorem lead_gap_cases (last : Option Token) (t : Token) :
    lead gap last t = [] ∨ lead gap last t = [' '] := by
  cases last with
  | none => exact Or.inl rfl
  | some a =>
    rw [lead, gap]
    split
    · exact Or.inl rfl
    · exact Or.inr rfl

theorem filter_lead (last : Option Token) (t : Token) :
    (lead gap last t).filter (fun c => !isBlank c) = [] := by
  rcases lead_gap_cases last t with h | h
  · rw [h]
    rfl
  · rw [h]
    decide

/-- The lexemes are what the text holds besides white space. -/
theorem filter_spread {tokens : List Token} (h : ∀ t ∈ tokens, t.Lexed) (last : Option Token) :
    (spread gap last tokens).filter (fun c => !isBlank c) =
      tokens.flatMap (·.lexeme.toList) := by
  induction tokens generalizing last with
  | nil => rfl
  | cons t tokens ih =>
    obtain ⟨ht, h⟩ := List.forall_mem_cons.1 h
    have hword : t.lexeme.toList.filter (fun c => !isBlank c) = t.lexeme.toList :=
      List.filter_eq_self.2 fun c hc => by rw [ht.isWord.not_blank c hc]; rfl
    rw [spread, List.filter_append, List.filter_append, filter_lead, hword, ih h, List.nil_append,
      List.flatMap_cons]

/-- The only white space in the text of tokens is the plain space. -/
theorem eq_space_of_mem_spread {c : Char} (hc : isBlank c = true) {tokens : List Token}
    (h : ∀ t ∈ tokens, t.Lexed) {last : Option Token} (hmem : c ∈ spread gap last tokens) :
    c = ' ' := by
  induction tokens generalizing last with
  | nil => cases hmem
  | cons t tokens ih =>
    obtain ⟨ht, h⟩ := List.forall_mem_cons.1 h
    rw [spread, List.mem_append, List.mem_append] at hmem
    rcases hmem with hlead | hword | hrest
    · rcases lead_gap_cases last t with hnone | hspace
      · rw [hnone] at hlead
        cases hlead
      · rw [hspace] at hlead
        exact List.mem_singleton.1 hlead
    · rw [ht.isWord.not_blank c hword] at hc
      cases hc
    · exact ih h hrest

end Calculator
