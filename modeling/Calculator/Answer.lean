import Calculator.Calculation
import Calculator.Display
import Calculator.Validity

/-!
# Answering a line of input

A line of input is answered with the value of the expression in it, or with the
reason why there is none.  On request the tokens of the expression come first.

## Main definitions

* `Settings` — what can be chosen about answers.
* `answer settings source` — the answer to a line.
-/

namespace Calculator

/-- What can be chosen about answers. -/
structure Settings where
  /-- The places that results are rounded to. -/
  places : Int
  /-- Whether tokens are shown. -/
  showTokens : Bool
  deriving DecidableEq, Repr

/-- The settings used unless told otherwise. -/
def Settings.default : Settings := ⟨defaultPlaces, false⟩

/-- Why a line cannot be answered at all. -/
inductive Crash
  /-- The value cannot be rounded to the places asked for. -/
  | display (failure : Decimal.Failure)
  /-- The tree was not well formed. -/
  | broken (fault : Fault)
  deriving DecidableEq, Repr

/-- The line that shows the tokens, if it is wanted and there are tokens. -/
def tokenLines (settings : Settings) (source : String) : List String :=
  if settings.showTokens then
    match scan source with
    | .error _ => []
    | .ok tokens => ["tokens: " ++ renderTokens tokens]
  else []

/-- Lines as one text. -/
def joinLines (lines : List String) : String := "\n".intercalate lines

/-- What is said of an expression that is not valid. -/
def invalidText : String := "Invalid expression"

/-- The lines about an expression that is not valid: what its evaluation reports. -/
def invalidLines : Except Failure Float → Except Crash (List String)
  | .ok _ => .ok [invalidText]
  | .error (.reported e) => .ok [invalidText, e.report]
  | .error (.broken fault) => .error (.broken fault)

/-- The lines about an expression that is valid: its value, or its error. -/
def validLines (settings : Settings) : Except Failure Float → Except Crash (List String)
  | .ok x =>
    match display settings.places x with
    | .error failure => .error (.display failure)
    | .ok text => .ok [text]
  | .error (.reported e) => .ok [e.text]
  | .error (.broken fault) => .error (.broken fault)

/-- The answer to a line of input. -/
def answer (settings : Settings) (source : String) : Logged (Except Crash String) := do
  let valid ← isValid source
  let value ← calculate source
  let lines := if valid then validLines settings value else invalidLines value
  pure (lines.map fun lines => joinLines (tokenLines settings source ++ lines))

end Calculator
