import Calculator.Proofs.Spacing
import Calculator.Proofs.Unplaced

/-!
# The text of tokens, scanned again

The text of tokens that scanning found is a plain form of the text they were found in:
it has the same tokens in other places, and it is its own plain form.  Two numbers are
never run together, since the only tokens that stand next to each other without a space
are brackets and what is inside of them.

## Main results

* `exists_scanFrom_spread` — all tokens are found again.
* `scan_renderTokens` — **the plain form of a text has its tokens and its answers**.
-/

namespace Calculator

variable {tokens : List Token} {t : Token}

/-- What stands before a token is passed over. -/
theorem scanFrom_lead (position : Nat) (last : Option Token) (t : Token) (rest : List Char) :
    scanFrom position (lead gap last t ++ rest) =
      scanFrom (position + (lead gap last t).length) rest := by
  rcases lead_gap_cases last t with hnone | hspace
  · rw [hnone]
    rfl
  · rw [hspace, List.singleton_append, scanFrom_cons_of_isBlank (by decide)]
    rfl

/-- Behind a token that opens no bracket, no digit or point stands next to it. -/
theorem isLiteralChar_behind (ht : t.kind ≠ .openBracket) (h : ∀ a ∈ tokens, a.Lexed) :
    ∀ c ∈ (spread gap (some t) tokens).head?, isLiteralChar c = false := by
  intro c hc
  cases tokens with
  | nil => cases hc
  | cons b tokens =>
    obtain ⟨hb, -⟩ := List.forall_mem_cons.1 h
    by_cases hclose : b.kind = .closeBracket
    · -- a closing bracket stands right behind the token
      have hgap : gap t b = [] := if_pos (Or.inr hclose)
      rw [spread, lead, hgap, List.nil_append] at hc
      cases hb with
      | number hne hrun hvalue => cases hclose
      | @symbol d kind _ hd =>
        rw [String.toList_singleton, List.singleton_append, List.head?_cons] at hc
        obtain rfl := Option.some.inj hc
        exact (isLiteralChar_of_symbolKind? hd).1
    · have hgap : gap t b = [' '] := if_neg (not_or.2 ⟨ht, hclose⟩)
      rw [spread, lead, hgap, List.singleton_append, List.head?_cons] at hc
      obtain rfl := Option.some.inj hc
      decide

/-- All tokens are found again, in other places. -/
theorem exists_scanFrom_spread (h : ∀ t ∈ tokens, t.Lexed) (last : Option Token)
    (position : Nat) :
    ∃ found, scanFrom position (spread gap last tokens) = .ok found ∧
      found.map Token.unplaced = tokens.map Token.unplaced := by
  induction tokens generalizing last position with
  | nil => exact ⟨[], scanFrom_nil position, rfl⟩
  | cons t tokens ih =>
    obtain ⟨ht, h⟩ := List.forall_mem_cons.1 h
    have hbehind : ∀ value, t.kind = .number value →
        ∀ c ∈ (spread gap (some t) tokens).head?, isLiteralChar c = false := by
      intro value hkind
      apply isLiteralChar_behind _ h
      rw [hkind]
      nofun
    obtain ⟨found, hfound, hsame⟩ := ih h (some t)
      (position + (lead gap last t).length + t.lexeme.length)
    refine ⟨⟨t.kind, t.lexeme, position + (lead gap last t).length⟩ :: found, ?_, ?_⟩
    · rw [spread, scanFrom_lead, ht.scanFrom_append _ hbehind, hfound]
      rfl
    · rw [List.map_cons, List.map_cons, hsame]
      rfl

/-- **The plain form of a text has its tokens and its answers.**  If a text is scanned,
then so is the text of its tokens, with the same kinds, values and lexemes in the same
order; that text is the text of its own tokens; and whatever the settings, the answer to
it is the answer to the first text. -/
theorem scan_renderTokens {source : String} (h : scan source = .ok tokens) :
    ∃ found, scan (renderTokens tokens) = .ok found ∧
      found.map Token.unplaced = tokens.map Token.unplaced ∧
      renderTokens found = renderTokens tokens ∧
      ∀ settings, (answer settings (renderTokens tokens)).value = (answer settings source).value := by
  have hlexed := scan_lexed h
  obtain ⟨found, hfound, hsame⟩ := exists_scanFrom_spread hlexed none 0
  have hscan : scan (renderTokens tokens) = .ok found := by
    rw [scan, mapError_eq_ok, toList_renderTokens hlexed]
    exact hfound
  refine ⟨found, hscan, hsame, ?_, ?_⟩
  · rw [← renderTokens_unplaced found, hsame, renderTokens_unplaced]
  · exact answer_congr h hscan hsame

/-- The tokens of `( 1 .5)`, where a space is all that keeps two numbers apart. -/
def twoNumberTokens : List Token :=
  [⟨.openBracket, "(", 0⟩, ⟨.number (literalValue ['1']).toFloat, "1", 2⟩,
    ⟨.number (literalValue ['.', '5']).toFloat, ".5", 4⟩, ⟨.closeBracket, ")", 6⟩]

theorem scan_renderTokens_twoNumbers :
    scan "( 1 .5)" = .ok twoNumberTokens ∧
    ∃ found, scan "(1 .5)" = .ok found ∧
      found.map Token.unplaced = twoNumberTokens.map Token.unplaced ∧
      renderTokens found = "(1 .5)" ∧
      ∀ settings, (answer settings "(1 .5)").value = (answer settings "( 1 .5)").value := by
  have hscan : scan "( 1 .5)" = .ok twoNumberTokens := by
    have hopen : symbolKind? '(' = some .openBracket := by decide
    have hclose : symbolKind? ')' = some .closeBracket := by decide
    have hspace : isBlank ' ' = true := by decide
    have hone : Token.Lexed ⟨.number (literalValue ['1']).toFloat, "1", 2⟩ :=
      @Token.Lexed.number ['1'] _ _ (List.cons_ne_nil _ _) (List.forall_mem_singleton.2 rfl)
        (literal?_eq_some (by decide))
    have hhalf : Token.Lexed ⟨.number (literalValue ['.', '5']).toFloat, ".5", 4⟩ :=
      @Token.Lexed.number ['.', '5'] _ _ (List.cons_ne_nil _ _)
        (List.forall_mem_cons.2 ⟨rfl, List.forall_mem_singleton.2 rfl⟩)
        (literal?_eq_some (by decide))
    rw [scan, mapError_eq_ok]
    show scanFrom 0 ('(' :: ' ' :: ("1".toList ++ ' ' :: (".5".toList ++ [')']))) = _
    rw [scanFrom_cons_symbol hopen, scanFrom_cons_of_isBlank hspace, hone.scanFrom_append _ ?_,
      scanFrom_cons_of_isBlank hspace, hhalf.scanFrom_append _ ?_, scanFrom_cons_symbol hclose,
      scanFrom_nil]
    · rfl
    · rintro _ _ c ⟨⟩
      decide
    · rintro _ _ c ⟨⟩
      decide
  have htext : renderTokens twoNumberTokens = "(1 .5)" := by decide +kernel
  have hround := scan_renderTokens hscan
  rw [htext] at hround
  exact ⟨hscan, hround⟩

end Calculator
