import Calculator.Text.Printable

/-!
# Quoted text

A message quotes text on one line: between quotes, with every character that
cannot be shown written as an escape.  The quotes are single ones, unless the
text holds a single quote and no double quote.

## Main definitions

* `quoteFor cs` — the quote put around `cs`.
* `escape quote c` — how one character is written between two such quotes.
* `quoted text` — the whole quoted form.
-/

namespace Calculator

/-- The single quote. -/
def singleQuote : Char := '\x27'

/-- The double quote. -/
def doubleQuote : Char := '\x22'

/-- The backslash, which begins an escape. -/
def backslash : Char := '\x5c'

/-- The quote put around a text: double only where single quotes would need
escapes and double ones would not. -/
def quoteFor (cs : List Char) : Char :=
  if singleQuote ∈ cs ∧ doubleQuote ∉ cs then doubleQuote else singleQuote

/-- The number `n` in lower-case hexadecimal, filled up with zeros to `width`
places. -/
def hexDigits (width n : Nat) : List Char :=
  let digits := Nat.toDigits 16 n
  List.replicate (width - digits.length) '0' ++ digits

/-- The escape of a character that cannot be shown: its code point, in two, four
or eight places. -/
def escapeCode (n : Nat) : List Char :=
  if n < 0x100 then backslash :: 'x' :: hexDigits 2 n
  else if n < 0x10000 then backslash :: 'u' :: hexDigits 4 n
  else backslash :: 'U' :: hexDigits 8 n

/-- How one character is written between two `quote` characters. -/
def escape (quote c : Char) : List Char :=
  if c = backslash ∨ c = quote then [backslash, c]
  else if c = '\t' then [backslash, 't']
  else if c = '\n' then [backslash, 'n']
  else if c = '\r' then [backslash, 'r']
  else if isPrintable c then [c]
  else escapeCode c.toNat

/-- A text between quotes, on one line. -/
def quoted (text : String) : String :=
  let quote := quoteFor text.toList
  String.ofList (quote :: text.toList.flatMap (escape quote) ++ [quote])

theorem quoteFor_eq_or (cs : List Char) :
    quoteFor cs = singleQuote ∨ quoteFor cs = doubleQuote := by
  unfold quoteFor
  split
  · exact Or.inr rfl
  · exact Or.inl rfl

example : quoteFor ['i', 't', singleQuote, 's'] = doubleQuote ∧
    quoteFor [singleQuote, doubleQuote] = singleQuote := by decide

end Calculator
