import Calculator.Slice

/-!
# Pointing at a place in a text

A report shows the neighbourhood of a place: a window of the text around it,
with dots on a side where text was cut off, and below it a line with a caret
under the place.

## Main definitions

* `Window` — what is shown of a text.
* `Window.around index context text` — the window that reaches `context`
  characters to either side of `index`.
* `Window.line`, `Window.caretLine` — the two lines shown.
-/

namespace Calculator

/-- What is shown of a text. -/
structure Window where
  /-- The characters shown. -/
  piece : List Char
  /-- Whether text was cut off before them. -/
  cutBefore : Bool
  /-- Whether text was cut off after them. -/
  cutAfter : Bool
  /-- How many characters of the piece stand before the place pointed at. -/
  offset : Int
  deriving DecidableEq, Repr

/-- What stands for the text that was cut off. -/
def ellipsis : List Char := ['.', '.', '.']

namespace Window

/-- The window that reaches `context` characters to either side of `index`.  An
index far outside the text leaves nothing to show; one further before its start
than `context` makes the window end that far before the end of the text. -/
def around (index context : Int) (text : List Char) : Window :=
  let start := max 0 (index - context)
  let stop := min (text.length : Int) (index + context)
  { piece := slice start stop text
    cutBefore := decide (0 < start)
    cutAfter := decide (stop < text.length)
    offset := index - start }

/-- What is written before the piece. -/
def lead (w : Window) : List Char := if w.cutBefore then ellipsis else []

/-- What is written after the piece. -/
def trail (w : Window) : List Char := if w.cutAfter then ellipsis else []

/-- The window as a line of text. -/
def line (w : Window) : List Char := w.lead ++ w.piece ++ w.trail

/-- The column under which the caret stands; the first one when the place lies
before the line. -/
def column (w : Window) : Nat := (w.offset + w.lead.length).toNat

/-- Blanks up to a column, and a caret in it. -/
def caretAt (column : Nat) : List Char := List.replicate column ' ' ++ ['^']

/-- The line below the window, with the caret. -/
def caretLine (w : Window) : List Char := caretAt w.column

/-- Both lines, the window first. -/
def lines (w : Window) : List String := [String.ofList w.line, String.ofList w.caretLine]

end Window

/-- How far to either side a report shows the text. -/
def defaultContext : Int := 10

end Calculator
