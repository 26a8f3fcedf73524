import Calculator.Expr.Eval
import Calculator.Expr.Parse
import Calculator.Log
import Calculator.Token.Scan

/-!
# Calculating

To calculate is to read the tokens of an expression, then the tree of the
tokens, then the value of the tree.  The first of these steps that fails decides
the error.  White space alone has the value zero.

## Main definitions

* `ExpressionError` — why an expression has no value.
* `valueOf source` — the value of an expression.
* `calculate source` — the same, with a record of failure in the log.
-/

namespace Calculator

/-- Why an expression has no value. -/
inductive ExpressionError
  /-- It has no tokens. -/
  | scan (e : ScanError)
  /-- Its tokens have no tree. -/
  | parse (e : ParseError)
  /-- Its nesting is too deep. -/
  | tooDeep
  /-- Its tree divides by zero. -/
  | divisionByZero
  deriving DecidableEq, Repr

/-- A message as it is shown in place of a result. -/
def calculationText (message : String) : String := "Calculation error: " ++ message

/-- What is reported where nesting is too deep.  No place in the expression is given; behind
these words the report may tell what was being done when the depth was reached, which depends
on the surroundings and is left out here. -/
def depthReport : String := "maximum recursion depth exceeded"

namespace ExpressionError

/-- The message about an error: that of the step that failed. -/
def message : ExpressionError → String
  | .scan e => e.message
  | .parse e => e.message
  | .tooDeep => "Expression is nested too deeply"
  | .divisionByZero => Fault.divisionByZero.message

/-- The error as it is shown in place of a result. -/
def text (e : ExpressionError) : String := calculationText e.message

/-- What the step that failed reports, with the place of the error if it has one. -/
def report : ExpressionError → String
  | .scan e => e.report
  | .parse e => e.report
  | .tooDeep => depthReport
  | .divisionByZero => Fault.divisionByZero.message

/-- The record that an error leaves. -/
def record (source : String) : ExpressionError → Record
  | .tooDeep => .tooDeep source
  | e => .failed source e.message

end ExpressionError

/-- How a calculation can end without a value. -/
inductive Failure
  /-- There is an error in the expression. -/
  | reported (e : ExpressionError)
  /-- The tree was not well formed. -/
  | broken (fault : Fault)
  deriving DecidableEq, Repr

/-- The failure that a fault of the tree amounts to. -/
def Failure.ofFault : Fault → Failure
  | .divisionByZero => .reported .divisionByZero
  | fault => .broken fault

/-- The failure that a failure to read the tree amounts to. -/
def Failure.ofParse : ParseFailure → Failure
  | .error e => .reported (.parse e)
  | .tooDeep => .reported .tooDeep

/-- The value of an expression. -/
def valueOf (source : String) : Except Failure Float :=
  if allBlank source.toList then .ok 0
  else
    match scan source with
    | .error e => .error (.reported (.scan e))
    | .ok tokens =>
      match parse tokens with
      | .error failure => .error (.ofParse failure)
      | .ok tree => (evaluateExpr tree).mapError Failure.ofFault

/-- The value of an expression, with a record in the log if it has none. -/
def calculate (source : String) : Logged (Except Failure Float) :=
  match valueOf source with
  | .error (.reported e) => .noting (e.record source) (.error (.reported e))
  | result => .quiet result

/-- The value is that of `valueOf`. -/
@[simp] theorem value_calculate (source : String) :
    (calculate source).value = valueOf source := by
  unfold calculate
  split
  · next e h => rw [Logged.value_noting, h]
  · rw [Logged.value_quiet]

end Calculator
