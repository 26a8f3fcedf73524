import Calculator.Text.Window

/-!
# What a window shows

The window around a place is clipped at the ends of the text, and dots stand where text was
cut off.  A window clipped on the left begins nearer to the place, and dots move the place to
the right again; the column of the caret makes up for both.  So the caret stands under the
place that is pointed at, wherever the text is cut, as long as the window is one line.

Dots in a line may be the text's own.  What is shown of a text is therefore said of the text
and not read off the line: it is cut in four around the place, in the one way that reaches as
far to either side as it may.

## Main definitions

* `Window.Excerpt text index context` — a text cut in four around a place.
* `Window.dots` — what is written for a part that is left out.

## Main results

* `Window.around_natCast` — the window around a place, counted from the front.
* `Window.mem_piece_around`, `Window.mem_line_iff` — what is shown.
* `Window.Excerpt.unique` — a text is cut around a place in one way.
* `Window.line_around`, `Window.getElem?_line_column` — the line, and what the caret is under.
* `Window.lines_show_excerpt` — **the window and the caret agree**.
-/

namespace Calculator.Window

variable {text : List Char} {index context : Nat} {c : Char}

/-- The window around a place, counted from the front. -/
theorem around_natCast (index context : Nat) (text : List Char) :
    around index context text =
      { piece := (text.take (index + context)).drop (index - context)
        cutBefore := decide (context < index)
        cutAfter := decide (index + context < text.length)
        offset := (min index context : Nat) } := by
  have hstart : max 0 ((index : Int) - context) = (index - context : Nat) := by omega
  have hstop : min (text.length : Int) (index + context) =
      (min (index + context) text.length : Nat) := by omega
  rw [around, hstart, hstop, slice_eq_drop_take, ← List.take_eq_take_min]
  congr 1
  · exact decide_eq_decide.2 (by omega)
  · exact decide_eq_decide.2 (by omega)
  · omega

/-- The places that are shown are those less than `context` to the right and up to `context`
to the left. -/
theorem mem_piece_around : c ∈ (around index context text).piece ↔
    ∃ k, index ≤ k + context ∧ k < index + context ∧ text[k]? = some c := by
  rw [around_natCast, List.mem_iff_getElem?]
  constructor
  · rintro ⟨i, hi⟩
    rw [List.getElem?_drop, List.getElem?_take] at hi
    split at hi
    case isTrue hlt => exact ⟨index - context + i, by omega, hlt, hi⟩
    case isFalse => cases hi
  · rintro ⟨k, hle, hlt, hk⟩
    have hplace : index - context + (k - (index - context)) = k := by omega
    refine ⟨k - (index - context), ?_⟩
    rw [List.getElem?_drop, hplace, List.getElem?_take_of_lt hlt, hk]

/-- Dots apart, the line is the piece of text shown. -/
theorem mem_line_iff (w : Window) (hc : c ≠ '.') : c ∈ w.line ↔ c ∈ w.piece := by
  have hlead : c ∉ w.lead := by
    unfold lead
    split <;> simp [ellipsis, hc]
  have htrail : c ∉ w.trail := by
    unfold trail
    split <;> simp [ellipsis, hc]
  rw [line, List.mem_append, List.mem_append]
  simp [hlead, htrail]

/-! ### The one excerpt around a place -/

/-- A text cut in four around the place `index`.  The two parts in the middle are shown, and
each has at most `context` characters, fewer only where the text ends. -/
@[ext]
structure Excerpt (text : List Char) (index context : Nat) where
  /-- What is left out before the excerpt. -/
  before : List Char
  /-- What is shown before the place. -/
  left : List Char
  /-- What is shown from the place on. -/
  right : List Char
  /-- What is left out after the excerpt. -/
  after : List Char
  /-- Together they are the text. -/
  whole : before ++ left ++ right ++ after = text
  /-- The place is the border of the two parts that are shown. -/
  place : (before ++ left).length = index
  left_le : left.length ≤ context
  right_le : right.length ≤ context
  /-- Less is shown before the place only where nothing is left out before it. -/
  before_eq_nil : left.length < context → before = []
  /-- Less is shown from the place on only where nothing is left out after it. -/
  after_eq_nil : right.length < context → after = []

/-- What is written for a part of the text that is left out: dots, if there is any. -/
def dots (hidden : List Char) : List Char := if hidden = [] then [] else ['.', '.', '.']

namespace Excerpt

/-- The excerpt around a place in a text. -/
def around (context : Nat) (hindex : index ≤ text.length) : Excerpt text index context where
  before := text.take (index - context)
  left := (text.take index).drop (index - context)
  right := (text.drop index).take context
  after := text.drop (index + context)
  whole := by
    have hfront : text.take (index - context) = (text.take index).take (index - context) := by
      rw [List.take_take, Nat.min_eq_left (Nat.sub_le index context)]
    rw [hfront, List.take_append_drop, ← List.take_add, List.take_append_drop]
  place := by
    rw [List.length_append, List.length_drop, List.length_take, List.length_take]
    omega
  left_le := by
    rw [List.length_drop, List.length_take]
    omega
  right_le := List.length_take_le context _
  before_eq_nil := by
    intro hless
    rw [List.length_drop, List.length_take] at hless
    rw [Nat.sub_eq_zero_of_le (by omega), List.take_zero]
  after_eq_nil := by
    intro hless
    rw [List.length_take, List.length_drop] at hless
    exact List.drop_eq_nil_of_le (by omega)

theorem length_before (e : Excerpt text index context) : e.before.length = index - context := by
  have hplace := e.place
  have hle := e.left_le
  rw [List.length_append] at hplace
  rcases Nat.lt_or_ge e.left.length context with hless | hfull
  · rw [e.before_eq_nil hless, List.length_nil] at hplace ⊢
    omega
  · omega

theorem length_left (e : Excerpt text index context) : e.left.length = min index context := by
  have hplace := e.place
  rw [List.length_append, e.length_before] at hplace
  omega

theorem length_after (e : Excerpt text index context) :
    e.after.length = text.length - (index + context) := by
  have hwhole := congrArg List.length e.whole
  have hle := e.right_le
  rw [List.length_append, List.length_append, e.place] at hwhole
  rcases Nat.lt_or_ge e.right.length context with hless | hfull
  · rw [e.after_eq_nil hless, List.length_nil] at hwhole ⊢
    omega
  · omega

/-- A text is cut around a place in one way. -/
theorem unique (e e' : Excerpt text index context) : e = e' := by
  have hwhole := e.whole.trans e'.whole.symm
  have hafterLength := e.length_after.trans e'.length_after.symm
  have hleftLength := e.length_left.trans e'.length_left.symm
  obtain ⟨hshown, hafter⟩ := List.append_inj' hwhole hafterLength
  obtain ⟨hfront, hright⟩ := List.append_inj hshown (e.place.trans e'.place.symm)
  obtain ⟨hbefore, hleft⟩ := List.append_inj' hfront hleftLength
  exact Excerpt.ext hbefore hleft hright hafter

theorem drop_index (e : Excerpt text index context) : text.drop index = e.right ++ e.after := by
  have hwhole : text = e.before ++ e.left ++ (e.right ++ e.after) := by
    rw [← List.append_assoc, e.whole]
  exact (congrArg (List.drop index) hwhole).trans (List.drop_left' e.place)

/-- The excerpt has the place in it. -/
theorem head?_right (e : Excerpt text index context) (hindex : index < text.length)
    (hcontext : 0 < context) : e.right.head? = text[index]? := by
  rw [← List.head?_drop]
  cases hright : e.right with
  | nil =>
    -- with nothing to show from the place on, the text would end before it
    have hafter := e.after_eq_nil (by rw [hright]; exact hcontext)
    have hlength := congrArg List.length e.drop_index
    rw [hright, hafter, List.length_drop, List.length_append, List.length_nil] at hlength
    omega
  | cons c rest => rw [e.drop_index, hright, List.cons_append, List.head?_cons, List.head?_cons]

end Excerpt

/-! ### The lines around a place -/

/-- Dots stand where something is left out. -/
theorem dots_eq_ite {hidden : List Char} {cut : Bool} (hcut : cut = true ↔ 0 < hidden.length) :
    dots hidden = if cut then ellipsis else [] := by
  cases hidden with
  | nil => rw [if_neg fun h => Nat.lt_irrefl 0 (hcut.1 h)]; rfl
  | cons c rest => rw [if_pos (hcut.2 (Nat.succ_pos _))]; rfl

theorem lead_around (e : Excerpt text index context) :
    (around index context text).lead = dots e.before := by
  rw [around_natCast, lead, dots_eq_ite]
  rw [decide_eq_true_iff, e.length_before]
  omega

theorem trail_around (e : Excerpt text index context) :
    (around index context text).trail = dots e.after := by
  rw [around_natCast, trail, dots_eq_ite]
  rw [decide_eq_true_iff, e.length_after]
  omega

theorem piece_around (e : Excerpt text index context) (hindex : index ≤ text.length) :
    (around index context text).piece = e.left ++ e.right := by
  have hfront : index - context ≤ (text.take index).length := by
    rw [List.length_take]
    omega
  rw [e.unique (Excerpt.around context hindex), around_natCast]
  show (text.take (index + context)).drop (index - context) = _
  rw [List.take_add, List.drop_append_of_le_length hfront]
  rfl

/-- The line is the excerpt, with dots for what is left out. -/
theorem line_around (e : Excerpt text index context) (hindex : index ≤ text.length) :
    (around index context text).line = dots e.before ++ (e.left ++ e.right) ++ dots e.after := by
  rw [line, lead_around e, piece_around e hindex, trail_around e]

/-- As many columns are passed over as there are characters in the line before the place. -/
theorem column_around (e : Excerpt text index context) :
    (around index context text).column = (dots e.before ++ e.left).length := by
  have hoffset : (around index context text).offset = (min index context : Nat) := by
    rw [around_natCast]
  rw [column, hoffset, lead_around e, List.length_append, e.length_left]
  omega

/-- The caret stands under the place that is pointed at. -/
theorem getElem?_line_column (hindex : index < text.length) (hcontext : 0 < context) :
    (around index context text).line[(around index context text).column]? = text[index]? := by
  let e : Excerpt text index context := Excerpt.around context (Nat.le_of_lt hindex)
  have hline : (around index context text).line =
      dots e.before ++ e.left ++ (e.right ++ dots e.after) := by
    rw [line_around e (Nat.le_of_lt hindex)]
    simp only [List.append_assoc]
  rw [hline, column_around e, List.getElem?_append_right (Nat.le_refl _), Nat.sub_self,
    ← List.head?_eq_getElem?, List.head?_append, e.head?_right hindex hcontext,
    List.getElem?_eq_getElem hindex, Option.some_or]

/-- **The window and the caret agree.**  There is one excerpt of the text around a place that
reaches `context` characters to either side, as far as the text goes, and the place is in it.
The first line is that excerpt, with dots on a side where text is left out.  The second one has
a caret behind as many blanks as characters stand before the place in the first, so the caret
stands under the character at the place, whether or not the text has dots and carets itself. -/
theorem lines_show_excerpt (hindex : index < text.length) (hcontext : 0 < context) :
    ∃ e : Excerpt text index context, (∀ e', e' = e) ∧ e.right.head? = some text[index] ∧
      ∃ (window caret : String) (column : Nat),
        (around index context text).lines = [window, caret] ∧
        window.toList = dots e.before ++ (e.left ++ e.right) ++ dots e.after ∧
        caret.toList = List.replicate column ' ' ++ ['^'] ∧
        column = (dots e.before ++ e.left).length ∧
        window.toList[column]? = some text[index] := by
  have hchar : text[index]? = some text[index] := List.getElem?_eq_getElem hindex
  let e : Excerpt text index context := Excerpt.around context (Nat.le_of_lt hindex)
  let w := around index context text
  refine ⟨e, fun e' => e'.unique e, (e.head?_right hindex hcontext).trans hchar,
    String.ofList w.line, String.ofList w.caretLine, w.column, rfl, ?_, ?_, column_around e, ?_⟩
  · rw [String.toList_ofList, line_around e (Nat.le_of_lt hindex)]
  · rw [String.toList_ofList, caretLine, caretAt]
  · rw [String.toList_ofList, getElem?_line_column hindex hcontext, hchar]

/-- A text of dots and carets. -/
def dottedText : List Char := ['^', '.', '.', '^', '.', '.', '.', '^']

/-- Two characters to either side of its second caret. -/
def dottedExcerpt : Excerpt dottedText 3 2 where
  before := ['^']
  left := ['.', '.']
  right := ['^', '.']
  after := ['.', '.', '^']
  whole := rfl
  place := rfl
  left_le := Nat.le_refl 2
  right_le := Nat.le_refl 2
  before_eq_nil hless := absurd hless (Nat.lt_irrefl 2)
  after_eq_nil hless := absurd hless (Nat.lt_irrefl 2)

theorem lines_show_excerpt_dotted :
    3 < dottedText.length ∧ 0 < 2 ∧ (∀ e : Excerpt dottedText 3 2, e = dottedExcerpt) ∧
    (around (3 : Nat) (2 : Nat) dottedText).lines = [".....^....", "     ^"] ∧
    ".....^....".toList[5]? = some '^' := by
  obtain ⟨e, hunique, -, window, caret, column, hlines, hwindow, hcaret, hcolumn, hchar⟩ :=
    @lines_show_excerpt dottedText 3 2 (by decide) (by decide)
  obtain rfl : e = dottedExcerpt := (hunique dottedExcerpt).symm
  obtain rfl : column = 5 := hcolumn
  have hfirst : window = ".....^...." := String.toList_inj.1 hwindow
  have hsecond : caret = "     ^" := String.toList_inj.1 hcaret
  rw [hfirst] at hlines hchar
  rw [hsecond] at hlines
  exact ⟨by decide, by decide, hunique, hlines, hchar⟩

end Calculator.Window
