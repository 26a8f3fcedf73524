import Calculator.Expr.ParseError
import Calculator.Token.Scan
import Mathlib.Tactic.SplitIfs

/-!
# Reports, line by line

A report on tokens has three lines, whatever the message quotes: the message, the
text of the tokens, and the caret.  Quoted text never breaks a line.  A report on a text
does not quote the text but shows a window of it as it is, and the window may take more
than one line.

## Main results

* `newline_not_mem_quoted` — quoted text stays on its line.
* `splitOn_parseReport`, `splitOn_scanReport` — the lines of a report.
-/

namespace Calculator

theorem newline_not_mem_toDigits (n : Nat) : '\n' ∉ Nat.toDigits 16 n := by
  have hdigit : ∀ m < 16, Nat.digitChar m ≠ '\n' := by decide
  induction n using Nat.strongRecOn with
  | ind n ih =>
    rcases Nat.lt_or_ge n 16 with hlt | hge
    · rw [Nat.toDigits_of_lt_base hlt, List.mem_singleton]
      exact Ne.symm (hdigit n hlt)
    · rw [Nat.toDigits_of_base_le (by omega) hge, List.mem_append, List.mem_singleton, not_or]
      exact ⟨ih (n / 16) (by omega), Ne.symm (hdigit _ (Nat.mod_lt n (by omega)))⟩

theorem newline_not_mem_hexDigits (width n : Nat) : '\n' ∉ hexDigits width n := by
  rw [hexDigits, List.mem_append, not_or]
  refine ⟨fun h => ?_, newline_not_mem_toDigits n⟩
  exact absurd (List.eq_of_mem_replicate h) (by decide)

theorem newline_not_mem_escapeCode (n : Nat) : '\n' ∉ escapeCode n := by
  have hhex := newline_not_mem_hexDigits
  unfold escapeCode
  split_ifs <;> simp [hhex, backslash]

theorem newline_not_mem_escape {quote : Char} (hquote : quote ≠ '\n') (c : Char) :
    '\n' ∉ escape quote c := by
  unfold escape
  split_ifs with hquoted htab hnewline hreturn hprint
  · rcases hquoted with rfl | rfl
    · decide
    · simp [backslash, Ne.symm hquote]
  · decide
  · decide
  · decide
  · simpa using Ne.symm hnewline
  · exact newline_not_mem_escapeCode c.toNat

/-- Quoted text stays on its line. -/
theorem newline_not_mem_quoted (text : String) : '\n' ∉ (quoted text).toList := by
  have hquote : quoteFor text.toList ≠ '\n' := by
    rcases quoteFor_eq_or text.toList with h | h <;> rw [h] <;> decide
  rw [quoted, String.toList_ofList, List.mem_append, List.mem_cons, List.mem_flatMap,
    List.mem_singleton]
  rintro ((h | ⟨c, -, hc⟩) | h)
  · exact hquote h.symm
  · exact newline_not_mem_escape hquote c hc
  · exact hquote h.symm

theorem newline_not_mem_append_quoted {text : String} (htext : '\n' ∉ text.toList)
    (lexeme : String) : '\n' ∉ (text ++ quoted lexeme).toList := by
  rw [String.toList_append, List.mem_append, not_or]
  exact ⟨htext, newline_not_mem_quoted lexeme⟩

theorem newline_not_mem_defectMessage (kind : DefectKind) : '\n' ∉ kind.message.toList := by
  cases kind with
  | invalidCharacter c => exact newline_not_mem_append_quoted (by decide +kernel) _
  | malformedNumber run => exact newline_not_mem_append_quoted (by decide +kernel) _

theorem newline_not_mem_message (kind : ParseErrorKind) : '\n' ∉ kind.message.toList := by
  cases kind with
  | unexpectedEnd => decide +kernel
  | unexpectedToken lexeme => exact newline_not_mem_append_quoted (by decide +kernel) lexeme
  | missingBracket => decide +kernel
  | trailingInput lexeme => exact newline_not_mem_append_quoted (by decide +kernel) lexeme

theorem newline_not_mem_caretAt (column : Nat) : '\n' ∉ Window.caretAt column := by
  rw [Window.caretAt, List.mem_append, not_or]
  exact ⟨fun h => absurd (List.eq_of_mem_replicate h) (by decide), by decide⟩

/-- The lines of a report on tokens. -/
theorem splitOn_parseReport {message : String} {tokens : List Token}
    (hmessage : '\n' ∉ message.toList) (htext : '\n' ∉ (renderTokens tokens).toList)
    (index : Int) :
    (parseReport message tokens index).toList.splitOn '\n' =
      [("[Parser error] " ++ message).toList, (renderTokens tokens).toList,
        Window.caretAt (caretColumn tokens index)] := by
  have hlines : (parseReport message tokens index).toList = ['\n'].intercalate
      [("[Parser error] " ++ message).toList, (renderTokens tokens).toList,
        Window.caretAt (caretColumn tokens index)] := by
    simp [parseReport]
  rw [hlines, List.splitOn_intercalate]
  · simp [hmessage, htext, newline_not_mem_caretAt]
  · simp

/-- The lines of a report on a text: those of the window stand between the message and the
caret. -/
theorem splitOn_scanReport {message : String} (hmessage : '\n' ∉ message.toList)
    (source : String) (index : Int) :
    let w := Window.around index defaultContext source.toList
    (scanReport message source index).toList.splitOn '\n' =
      ("[Tokenizer error] " ++ message).toList ::
        (w.line.splitOn '\n' ++ [Window.caretAt w.column]) := by
  intro w
  have hhead : '\n' ∉ ("[Tokenizer error] " ++ message).toList := by
    rw [String.toList_append, List.mem_append, not_or]
    exact ⟨by decide +kernel, hmessage⟩
  have htext : (scanReport message source index).toList =
      ("[Tokenizer error] " ++ message).toList ++
        '\n' :: (w.line ++ '\n' :: Window.caretAt w.column) := by
    simp [scanReport, Window.lines, Window.caretLine, w]
  rw [htext, List.splitOn_append_cons_self_of_not_mem hhead, List.splitOn_append_cons_self,
    List.splitOn_eq_singleton (newline_not_mem_caretAt w.column)]

end Calculator
