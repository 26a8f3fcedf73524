import Calculator.Expr.Basic

/-!
# The value of an expression

Operands are evaluated before their operator, the left one first, and the first
fault met ends the evaluation.  Besides division by zero there are faults that
only a tree that is not well formed can have.

There are two evaluators.  `Expr.value` follows the tree.  `run` works off a
stack of tasks, so that a tree of any depth needs no more than a loop; it is the
one that `evaluateExpr` uses.

## Main definitions

* `Fault` — why an expression has no value.
* `applyUnary`, `applyBinary` — one operation.
* `Expr.value e` — the value by recursion on the tree.
* `Task`, `run` — the value by a stack of tasks and a stack of results.
* `evaluateExpr e` — the value of an expression.
-/

namespace Calculator

/-- Why an expression has no value. -/
inductive Fault
  /-- The right operand of a division is zero, of either sign. -/
  | divisionByZero
  /-- An operator other than negation stands in front of its operand. -/
  | unexpectedUnary (op : Operator)
  /-- An operator that does not take two operands stands between two. -/
  | unsupportedBinary (op : Operator)
  /-- A leaf is no expression. -/
  | notAnExpression (text : String)
  /-- An operator found fewer results than it takes. -/
  | missingOperand
  deriving DecidableEq, Repr

/-- The message about a fault. -/
def Fault.message : Fault → String
  | .divisionByZero => "Division by zero"
  | .unexpectedUnary op => "Unexpected unary operator: " ++ op.name
  | .unsupportedBinary op => op.name
  | .notAnExpression text => "Unexpected expression type: " ++ text
  | .missingOperand => "Missing operand"

/-- An operator applied to one operand. -/
def applyUnary (op : Operator) (x : Float) : Except Fault Float :=
  match op with
  | .neg => .ok (-x)
  | op => .error (.unexpectedUnary op)

/-- An operator applied to two operands. -/
def applyBinary (op : Operator) (x y : Float) : Except Fault Float :=
  match op with
  | .add => .ok (x + y)
  | .sub => .ok (x - y)
  | .mul => .ok (x * y)
  | .div => if y == 0 then .error .divisionByZero else .ok (x / y)
  | .neg => .error (.unsupportedBinary .neg)

/-- The value of an expression, by recursion on the tree. -/
def Expr.value : Expr → Except Fault Float
  | .number value => .ok value
  | .unary op operand =>
    match operand.value with
    | .error fault => .error fault
    | .ok x => applyUnary op x
  | .binary op left right =>
    match left.value with
    | .error fault => .error fault
    | .ok x =>
      match right.value with
      | .error fault => .error fault
      | .ok y => applyBinary op x y
  | .foreign text => .error (.notAnExpression text)

/-- Something still to be done in an evaluation. -/
inductive Task
  /-- To find the value of an expression. -/
  | visit (e : Expr)
  /-- To apply an operator to the last result. -/
  | unary (op : Operator)
  /-- To apply an operator to the last two results. -/
  | binary (op : Operator)
  deriving DecidableEq, Repr

/-- How many tasks the evaluation of an expression comes to. -/
def Expr.taskCount : Expr → Nat
  | .number _ => 1
  | .unary _ operand => operand.taskCount + 2
  | .binary _ left right => left.taskCount + right.taskCount + 2
  | .foreign _ => 1

/-- How many tasks a task comes to. -/
def Task.weight : Task → Nat
  | .visit e => e.taskCount
  | .unary _ => 1
  | .binary _ => 1

/-- How many tasks a list of tasks comes to. -/
def totalWeight : List Task → Nat
  | [] => 0
  | task :: tasks => task.weight + totalWeight tasks

/-- The last result, once all tasks are done in turn.  Results stand with the
last one first. -/
def run (tasks : List Task) (results : List Float) : Except Fault Float :=
  match tasks with
  | [] =>
    match results with
    | [] => .error .missingOperand
    | x :: _ => .ok x
  | .visit (.number value) :: tasks => run tasks (value :: results)
  | .visit (.unary op operand) :: tasks =>
    run (.visit operand :: .unary op :: tasks) results
  | .visit (.binary op left right) :: tasks =>
    run (.visit left :: .visit right :: .binary op :: tasks) results
  | .visit (.foreign text) :: _ => .error (.notAnExpression text)
  | .unary op :: tasks =>
    match results with
    | [] => .error .missingOperand
    | x :: results =>
      match applyUnary op x with
      | .error fault => .error fault
      | .ok z => run tasks (z :: results)
  | .binary op :: tasks =>
    match results with
    | [] => .error .missingOperand
    | [_] => .error .missingOperand
    | y :: x :: results =>
      match applyBinary op x y with
      | .error fault => .error fault
      | .ok z => run tasks (z :: results)
termination_by totalWeight tasks
decreasing_by
  all_goals simp only [totalWeight, Task.weight, Expr.taskCount]; omega

/-- The value of an expression. -/
def evaluateExpr (e : Expr) : Except Fault Float := run [.visit e] []

/-- A task list that begins with an expression goes on with its value. -/
theorem run_visit (e : Expr) (tasks : List Task) (results : List Float) :
    run (.visit e :: tasks) results =
      match e.value with
      | .error fault => .error fault
      | .ok x => run tasks (x :: results) := by
  induction e generalizing tasks results with
  | number value => rw [run, Expr.value]
  | unary op operand ih =>
    rw [run, ih, Expr.value]
    cases operand.value with
    | error fault => rfl
    | ok x => simp only [run]
  | binary op left right ihl ihr =>
    rw [run, ihl, Expr.value]
    cases left.value with
    | error fault => rfl
    | ok x =>
      simp only [ihr]
      cases right.value with
      | error fault => rfl
      | ok y => simp only [run]
  | foreign text => rw [run, Expr.value]

end Calculator
