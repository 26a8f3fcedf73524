import Calculator.Proofs.LeftmostDefect
import Calculator.Proofs.Report
import Calculator.Proofs.Window

/-!
# The caret under the offending character

The report on a text that cannot be scanned shows a window of the text and, on the line below,
a caret.  White space is passed over before a defect is met, and line ends are white space; but
a window with a line end in it is written on more than one line, while the column of the caret
is counted as if it were one.  So the caret stands under the offending character exactly as
long as no line ends in the window.

## Main definitions

* `PointsOut source e` — a report has three lines, and the caret is under the character.
* `LineEndsNear text index reach` — a line ends in the neighbourhood of a place.

## Main results

* `ScanError.lines_report` — the lines of a report, and the character over its caret.
* `pointsOut_iff_not_lineEndsNear` — **when the caret stands under the offending character**.
-/

namespace Calculator

/-- The report on an error has three lines, the message, a window of the text and a caret, and
over the caret there is the character at which the error is. -/
def PointsOut (source : String) (e : ScanError) : Prop :=
  ∃ window column c,
    e.report.toList.splitOn '\n' =
      [("[Tokenizer error] " ++ e.message).toList, window, Window.caretAt column] ∧
    source.toList[e.defect.index]? = some c ∧ window[column]? = some c

/-- A line ends less than `reach` characters behind a place, or up to `reach` before it. -/
def LineEndsNear (text : List Char) (index reach : Nat) : Prop :=
  ∃ k, index ≤ k + reach ∧ k < index + reach ∧ text[k]? = some '\n'

variable {source : String} {e : ScanError}

/-! ### The place of an error -/

/-- An error is about the text that was scanned. -/
theorem source_of_scan (h : scan source = .error e) : e.source = source := by
  rw [scan, mapError_eq_error] at h
  obtain ⟨d, -, rfl⟩ := h
  rfl

/-- An error stands at a character of the text. -/
theorem index_lt_of_scan (h : scan source = .error e) :
    e.defect.index < source.toList.length := by
  rw [scan, mapError_eq_error] at h
  obtain ⟨d, hscan, rfl⟩ := h
  have hreports : ReportsLeftmost source.toList 0 (scanFrom 0 source.toList) :=
    scanFrom_reports rfl (cut_zero source.toList)
  rw [hscan] at hreports
  have hleft : LeftmostDefect source.toList 0 d.index d.kind.message := hreports
  obtain ⟨c, hc⟩ := hleft.defect.exists_getElem?
  exact (List.getElem?_eq_some_iff.1 hc).1

/-! ### The lines of a report -/

/-- The lines of a report are the message, those of a window, and the caret.  The window has
the character of the error in the column of the caret, and it has a line end where a line ends
near the error. -/
theorem ScanError.lines_report (h : scan source = .error e) :
    ∃ (window : List Char) (column : Nat) (c : Char),
      e.report.toList.splitOn '\n' = ("[Tokenizer error] " ++ e.message).toList ::
        (window.splitOn '\n' ++ [Window.caretAt column]) ∧
      source.toList[e.defect.index]? = some c ∧ window[column]? = some c ∧
      ('\n' ∈ window ↔ LineEndsNear source.toList e.defect.index 10) := by
  have hlines := splitOn_scanReport (newline_not_mem_defectMessage e.defect.kind) e.source
    e.defect.index
  have hindex := index_lt_of_scan h
  rw [← source_of_scan h] at hindex ⊢
  have hchar := List.getElem?_eq_getElem hindex
  let w := Window.around e.defect.index (10 : Nat) e.source.toList
  refine ⟨w.line, w.column, _, hlines, hchar, ?_, ?_⟩
  · rw [Window.getElem?_line_column hindex (by decide), hchar]
  · rw [Window.mem_line_iff w (by decide), Window.mem_piece_around, LineEndsNear]

/-- A line end makes two lines. -/
theorem one_lt_length_splitOn {line : List Char} (h : '\n' ∈ line) :
    1 < (line.splitOn '\n').length := by
  obtain ⟨front, behind, rfl⟩ := List.append_of_mem h
  have hfront := List.length_pos_iff.2 (List.splitOn_ne_nil '\n' front)
  have hbehind := List.length_pos_iff.2 (List.splitOn_ne_nil '\n' behind)
  rw [List.splitOn_append_cons_self, List.length_append]
  omega

/-- **When the caret stands under the offending character.**  A report has three lines, and the
character over the caret is the one at which the error is, exactly when no line ends in the
window: less than ten characters behind the error, or up to ten before it.  Where a line ends
there, the report has more lines, and the caret has the column of that character in the window
read as one line. -/
theorem pointsOut_iff_not_lineEndsNear (h : scan source = .error e) :
    (PointsOut source e ↔ ¬ LineEndsNear source.toList e.defect.index 10) ∧
    (LineEndsNear source.toList e.defect.index 10 →
      3 < (e.report.toList.splitOn '\n').length) ∧
    ∃ (window : List Char) (column : Nat) (c : Char),
      e.report.toList.splitOn '\n' = ("[Tokenizer error] " ++ e.message).toList ::
        (window.splitOn '\n' ++ [Window.caretAt column]) ∧
      source.toList[e.defect.index]? = some c ∧ window[column]? = some c := by
  obtain ⟨window, column, c, hlines, hchar, hover, hbreak⟩ := ScanError.lines_report h
  have hmore : LineEndsNear source.toList e.defect.index 10 →
      3 < (e.report.toList.splitOn '\n').length := by
    intro hnear
    have htwo := one_lt_length_splitOn (hbreak.2 hnear)
    rw [hlines, List.length_cons, List.length_append, List.length_singleton]
    omega
  refine ⟨⟨?_, ?_⟩, hmore, window, column, c, hlines, hchar, hover⟩
  · rintro ⟨_, _, _, hthree, -⟩ hnear
    have hlength := hmore hnear
    rw [hthree] at hlength
    exact absurd hlength (by simp)
  · intro hfar
    rw [← hbreak] at hfar
    rw [List.splitOn_eq_singleton hfar] at hlines
    exact ⟨window, column, c, hlines, hchar, hover⟩

/-- The error of ` #`. -/
def indentedHashError : ScanError := ⟨" #", ⟨.invalidCharacter '#', 1⟩⟩

theorem pointsOut_indentedHash :
    scan " #" = .error indentedHashError ∧ PointsOut " #" indentedHashError := by
  have hscan : scan " #" = .error indentedHashError := by decide +kernel
  refine ⟨hscan, (pointsOut_iff_not_lineEndsNear hscan).1.2 ?_⟩
  rintro ⟨k, -, -, hk⟩
  exact absurd (List.mem_of_getElem? hk) (by decide)

/-- The error of `#` on a line of its own, below an empty one. -/
def secondLineError : ScanError := ⟨"\n#", ⟨.invalidCharacter '#', 1⟩⟩

/-- The caret of `#` in the second line is in the second column, where its line has ended. -/
theorem not_pointsOut_secondLine :
    scan "\n#" = .error secondLineError ∧
    secondLineError.report =
      "[Tokenizer error] Invalid character in expression: \x27#\x27\n\n#\n ^" ∧
    ¬ PointsOut "\n#" secondLineError := by
  have hreport : secondLineError.report =
      "[Tokenizer error] Invalid character in expression: \x27#\x27\n\n#\n ^" := by
    decide +kernel
  refine ⟨by decide +kernel, hreport, ?_⟩
  rintro ⟨window, column, c, hlines, -⟩
  have hfour : (secondLineError.report.toList.splitOn '\n').length = 4 := by
    rw [hreport]
    decide +kernel
  rw [hlines] at hfour
  exact absurd hfour (by simp)

end Calculator
