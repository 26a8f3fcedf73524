import Calculator.Proofs.Reading
import Calculator.Proofs.Report
import Calculator.Proofs.Spacing

/-!
# The place of the caret

The caret of a report is put one column past the text of the tokens before the
error, as if a space always followed them.  On the inner side of a bracket none
does, and there the caret stands one column too far to the right.

## Main definitions

* `StartsAt tokens index column` — the column in which a token starts.
* `Hugs tokens index` — no space separates a token from the one before it.

## Main results

* `startsAt_iff` — a token starts in one column.
* `caretColumn_of_not_hugs`, `caretColumn_of_hugs` — the column of the caret.
* `caret_startsAt_iff` — when the caret stands under the start of the wrong token.
-/

namespace Calculator

/-- The token at `index` starts in `column` of the text of the tokens: what stands
before it there is, white space apart, the lexemes of the tokens before it. -/
def StartsAt (tokens : List Token) (index column : Nat) : Prop :=
  ∃ t before after, tokens[index]? = some t ∧
    (renderTokens tokens).toList = before ++ (t.lexeme.toList ++ after) ∧
    before.length = column ∧
    before.filter (fun c => !isBlank c) = (tokens.take index).flatMap (·.lexeme.toList)

/-- The token at `index` follows another without a space: that one opens a bracket,
or it closes one itself. -/
def Hugs (tokens : List Token) (index : Nat) : Prop :=
  ∃ a t, tokens[index - 1]? = some a ∧ tokens[index]? = some t ∧ 0 < index ∧
    (a.kind = .openBracket ∨ t.kind = .closeBracket)

/-! ### Where a token starts -/

/-- Before a character that is kept, a text is known from what is kept of it. -/
theorem eq_of_filter_eq {p : Char → Bool} {c c' : Char} (hc : p c = true) (hc' : p c' = true) :
    ∀ {before before' rest rest' : List Char}, before ++ c :: rest = before' ++ c' :: rest' →
      before.filter p = before'.filter p → before = before'
  | [], [], _, _, _, _ => rfl
  | [], d :: before', _, _, h, hfilter => by
    obtain ⟨rfl, -⟩ := List.cons.inj h
    simp [hc] at hfilter
  | d :: before, [], _, _, h, hfilter => by
    obtain ⟨rfl, -⟩ := List.cons.inj h
    simp [hc'] at hfilter
  | d :: before, d' :: before', rest, rest', h, hfilter => by
    obtain ⟨rfl, htail⟩ := List.cons.inj h
    have hkept : before.filter p = before'.filter p := by
      cases hd : p d with
      | true => simpa [hd] using hfilter
      | false => simpa [hd] using hfilter
    rw [eq_of_filter_eq hc hc' htail hkept]

/-- What the text of tokens holds before a token. -/
def textBefore (tokens : List Token) (index : Nat) (t : Token) : List Char :=
  spread gap none (tokens.take index) ++ lead gap (tokens.take index).getLast? t

theorem toList_renderTokens_split {tokens : List Token} (h : ∀ t ∈ tokens, t.Lexed) {index : Nat}
    {t : Token} (ht : tokens[index]? = some t) :
    (renderTokens tokens).toList = textBefore tokens index t ++
      (t.lexeme.toList ++ spread gap (some t) (tokens.drop (index + 1))) := by
  obtain ⟨hlt, rfl⟩ := List.getElem?_eq_some_iff.1 ht
  have hsplit : tokens = tokens.take index ++ tokens[index] :: tokens.drop (index + 1) := by
    rw [List.getElem_cons_drop, List.take_append_drop]
  have hspread := congrArg (spread gap none) hsplit
  rw [spread_append, spread, Option.or_none] at hspread
  rw [toList_renderTokens h, hspread, textBefore, List.append_assoc]

theorem filter_textBefore {tokens : List Token} (h : ∀ t ∈ tokens, t.Lexed) {index : Nat}
    (t : Token) : (textBefore tokens index t).filter (fun c => !isBlank c) =
      (tokens.take index).flatMap (·.lexeme.toList) := by
  have hfront : ∀ a ∈ tokens.take index, a.Lexed := fun a ha => h a (List.mem_of_mem_take ha)
  rw [textBefore, List.filter_append, filter_spread hfront, filter_lead, List.append_nil]

/-- A token starts in one column. -/
theorem startsAt_iff {tokens : List Token} (h : ∀ t ∈ tokens, t.Lexed) {index : Nat}
    {t : Token} (ht : tokens[index]? = some t) (column : Nat) :
    StartsAt tokens index column ↔ column = (textBefore tokens index t).length := by
  have htext := toList_renderTokens_split h ht
  constructor
  · rintro ⟨t', before, after, ht', htext', rfl, hfilter⟩
    obtain rfl : t = t' := Option.some_inj.1 (ht.symm.trans ht')
    have hword := (h t (List.mem_of_getElem? ht)).isWord
    obtain ⟨c, w, hw⟩ := List.exists_cons_of_ne_nil hword.ne_nil
    have hc : (!isBlank c) = true := by
      rw [hword.not_blank c (by rw [hw]; exact List.mem_cons_self)]
      rfl
    rw [htext, hw] at htext'
    -- the same lexemes stand before the same character in both readings of the text
    rw [eq_of_filter_eq hc hc htext'.symm (hfilter.trans (filter_textBefore h t).symm)]
  · rintro rfl
    exact ⟨t, _, _, ht, htext, rfl, filter_textBefore h t⟩

/-! ### Where the caret stands -/

theorem caretColumn_zero (tokens : List Token) : caretColumn tokens (0 : Nat) = 0 := by
  rw [caretColumn, slice_zero_natCast, List.take_zero, renderTokens_nil]
  rfl

theorem caretColumn_pos {tokens : List Token} (h : ∀ t ∈ tokens, t.Lexed) {index : Nat}
    (hindex : 0 < index) (hlt : index < tokens.length) :
    caretColumn tokens index = (spread gap none (tokens.take index)).length + 1 := by
  have hfront : ∀ a ∈ tokens.take index, a.Lexed := fun a ha => h a (List.mem_of_mem_take ha)
  have htext := toList_renderTokens hfront
  -- the tokens before the place have a text, for the first of them has one
  have hne : renderTokens (tokens.take index) ≠ "" := by
    obtain ⟨a, front, hcons⟩ : ∃ a front, tokens.take index = a :: front :=
      List.exists_cons_of_length_pos (by rw [List.length_take]; omega)
    intro hempty
    rw [hempty, hcons, spread, lead] at htext
    have hword := (hfront a (by rw [hcons]; exact List.mem_cons_self)).isWord
    simp [hword.ne_nil] at htext
  rw [caretColumn, slice_zero_natCast, if_neg hne, ← htext, String.length_toList]

theorem lead_eq {tokens : List Token} {index : Nat} {t : Token} (hindex : 0 < index)
    (hlt : index < tokens.length) :
    ∃ a, tokens[index - 1]? = some a ∧ lead gap (tokens.take index).getLast? t = gap a t := by
  have ha : tokens[index - 1]? = some tokens[index - 1] := List.getElem?_eq_getElem (by omega)
  refine ⟨_, ha, ?_⟩
  rw [List.getLast?_take, if_neg (by omega), ha]
  rfl

/-- Where a space separates the tokens, the caret stands under the start. -/
theorem caretColumn_of_not_hugs {tokens : List Token} (h : ∀ t ∈ tokens, t.Lexed) {index : Nat}
    {t : Token} (ht : tokens[index]? = some t) (hhugs : ¬ Hugs tokens index) :
    caretColumn tokens index = (textBefore tokens index t).length := by
  obtain ⟨hlt, -⟩ := List.getElem?_eq_some_iff.1 ht
  rcases Nat.eq_zero_or_pos index with rfl | hindex
  · exact caretColumn_zero tokens
  · obtain ⟨a, ha, hlead⟩ := @lead_eq tokens index t hindex hlt
    have hgap : gap a t = [' '] := if_neg fun hinner => hhugs ⟨a, t, ha, ht, hindex, hinner⟩
    rw [caretColumn_pos h hindex hlt, textBefore, hlead, hgap, List.length_append]
    rfl

/-- On the inner side of a bracket, it stands one column further to the right. -/
theorem caretColumn_of_hugs {tokens : List Token} (h : ∀ t ∈ tokens, t.Lexed) {index : Nat}
    {t : Token} (ht : tokens[index]? = some t) (hhugs : Hugs tokens index) :
    caretColumn tokens index = (textBefore tokens index t).length + 1 := by
  obtain ⟨hlt, -⟩ := List.getElem?_eq_some_iff.1 ht
  obtain ⟨a, t', ha, ht', hindex, hinner⟩ := hhugs
  obtain rfl : t = t' := Option.some_inj.1 (ht.symm.trans ht')
  obtain ⟨a', ha', hlead⟩ := @lead_eq tokens index t hindex hlt
  obtain rfl : a = a' := Option.some_inj.1 (ha.symm.trans ha')
  have hgap : gap a t = [] := if_pos hinner
  rw [caretColumn_pos h hindex hlt, textBefore, hlead, hgap, List.append_nil]

/-! ### Reports on tokens that were found -/

theorem newline_not_mem_renderTokens {tokens : List Token} (h : ∀ t ∈ tokens, t.Lexed) :
    '\n' ∉ (renderTokens tokens).toList := by
  rw [toList_renderTokens h]
  intro hmem
  exact absurd (eq_space_of_mem_spread (by decide) h hmem) (by decide)

/-- **The caret stands under the wrong token, except on the inner side of a bracket.**
There it stands one column too far to the right. -/
theorem caret_startsAt_iff {source : String} {tokens : List Token} {error : ParseError}
    (hscan : scan source = .ok tokens) (hparse : parse tokens = .error (.error error))
    (hlt : error.index < tokens.length) :
    ∃ column start,
      error.report.toList.splitOn '\n' = [("[Parser error] " ++ error.message).toList,
        (renderTokens tokens).toList, Window.caretAt column] ∧
      (∀ place, StartsAt tokens error.index place ↔ place = start) ∧
      (column = start ↔ ¬ Hugs tokens error.index) ∧
      (Hugs tokens error.index → column = start + 1) := by
  have h := scan_lexed hscan
  have ht : tokens[error.index]? = some tokens[error.index] := List.getElem?_eq_getElem hlt
  have hlines := splitOn_parseReport (newline_not_mem_message error.kind)
    (newline_not_mem_renderTokens h) error.index
  refine ⟨caretColumn tokens error.index, (textBefore tokens error.index _).length,
    ?_, startsAt_iff h ht, ?_, ?_⟩
  · rw [ParseError.report, tokens_of_parseWithin hparse]
    exact hlines
  · constructor
    · intro hcolumn hhugs
      rw [caretColumn_of_hugs h ht hhugs] at hcolumn
      omega
    · exact caretColumn_of_not_hugs h ht
  · exact caretColumn_of_hugs h ht

/-- The tokens of `(+*`. -/
def signedTimesTokens : List Token :=
  [⟨.openBracket, "(", 0⟩, ⟨.operator, "+", 1⟩, ⟨.operator, "*", 2⟩]

theorem caret_startsAt_signedTimes :
    scan "(+*" = .ok signedTimesTokens ∧
    parse signedTimesTokens = .error (.error ⟨signedTimesTokens, .unexpectedToken "*", 2⟩) ∧
    2 < signedTimesTokens.length ∧
    ∃ column,
      (ParseError.mk signedTimesTokens (.unexpectedToken "*") 2).report.toList.splitOn '\n' =
        ["[Parser error] Unexpected token: \x27*\x27".toList,
          (renderTokens signedTimesTokens).toList, Window.caretAt column] ∧
      StartsAt signedTimesTokens 2 column := by
  have hscan : scan "(+*" = .ok signedTimesTokens := by
    have hopen : symbolKind? '(' = some .openBracket := by decide
    have hplus : symbolKind? '+' = some .operator := by decide
    have htimes : symbolKind? '*' = some .operator := by decide
    rw [scan, mapError_eq_ok]
    show scanFrom 0 ['(', '+', '*'] = _
    rw [scanFrom_cons_symbol hopen, scanFrom_cons_symbol hplus, scanFrom_cons_symbol htimes,
      scanFrom_nil]
    rfl
  have hparse : parse signedTimesTokens =
      .error (.error ⟨signedTimesTokens, .unexpectedToken "*", 2⟩) := by cbv
  have hhugs : ¬ Hugs signedTimesTokens 2 := by
    rintro ⟨a, t, ⟨⟩, ⟨⟩, -, h | h⟩ <;> cases h
  have hlt : 2 < signedTimesTokens.length := by decide
  obtain ⟨column, start, hlines, hstart, hcolumn, -⟩ := caret_startsAt_iff hscan hparse hlt
  exact ⟨hscan, hparse, hlt, column, hlines, (hstart column).2 (hcolumn.2 hhugs)⟩

/-- The tokens of `()`. -/
def emptyBracketTokens : List Token := [⟨.openBracket, "(", 0⟩, ⟨.closeBracket, ")", 1⟩]

/-- The caret of `()` stands behind the text of the tokens, and so under none of them. -/
theorem caret_not_startsAt_emptyBracket :
    scan "()" = .ok emptyBracketTokens ∧
    parse emptyBracketTokens =
      .error (.error ⟨emptyBracketTokens, .unexpectedToken ")", 1⟩) ∧
    1 < emptyBracketTokens.length ∧
    (ParseError.mk emptyBracketTokens (.unexpectedToken ")") 1).report =
      "[Parser error] Unexpected token: \x27)\x27\n()\n  ^" ∧
    "  ^".toList = Window.caretAt 2 ∧
    StartsAt emptyBracketTokens 1 1 ∧ ¬ StartsAt emptyBracketTokens 1 2 := by
  have htext : (renderTokens emptyBracketTokens).toList = ['(', ')'] := by decide +kernel
  have hscan : scan "()" = .ok emptyBracketTokens := by
    have hopen : symbolKind? '(' = some .openBracket := by decide
    have hclose : symbolKind? ')' = some .closeBracket := by decide
    rw [scan, mapError_eq_ok]
    show scanFrom 0 ['(', ')'] = _
    rw [scanFrom_cons_symbol hopen, scanFrom_cons_symbol hclose, scanFrom_nil]
    rfl
  refine ⟨hscan, by cbv, by decide, by decide +kernel, by decide +kernel, ?_, ?_⟩
  · exact ⟨_, ['('], [], rfl, htext, rfl, by decide +kernel⟩
  · rintro ⟨t, before, after, ht, hsplit, hlength, -⟩
    cases ht
    -- two characters before the bracket leave no room for it
    have hfit := congrArg List.length (htext.symm.trans hsplit)
    simp [hlength] at hfit

end Calculator
