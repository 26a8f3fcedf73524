import Calculator.Proofs.Bits
import Calculator.Proofs.Evaluation

/-!
# Evaluation, step by step

An evaluation is a machine with two stacks: the tasks still to be done, and the
results so far.  It is followed here one task at a time.  However deep the tree,
and whether or not it is well formed, the machine comes to what the rules of
evaluation say, in a number of steps that is known beforehand, and no task ever
finds fewer results than it takes.

What makes the second part true is a count.  How many results a list of tasks will
leave does not depend on the values, and no step changes that number; at the start
it is one.

## Main definitions

* `Expr.Evaluates e outcome` — the rules of evaluation, operands first, from left to
  right.
* `Machine`, `Machine.step`, `Machine.steps` — the two stacks, and work on them.
* `resultsLeft tasks count` — how many results the tasks will leave.

## Main results

* `Expr.value_eq_iff` — recursion on the tree follows the rules.
* `Machine.run_of_step` — `run` does one step after another.
* `Machine.steps_visit` — the steps that an expression takes.
* `Machine.Balanced.step` — no step changes how many results will be left.
* `evaluateExpr_follows_rules` — the evaluation of every tree.
-/

namespace Calculator

/-! ### The rules of evaluation -/

/-- `e.Evaluates outcome` says that the value of `e` is the outcome, or that the first
fault met is: the operands of an operator are evaluated before it, the left one
first. -/
inductive Expr.Evaluates : Expr → Except Fault Float → Prop
  -- a number has its value
  | number {value : Float} : Evaluates (.number value) (.ok value)
  -- what is no expression has none
  | foreign {text : String} : Evaluates (.foreign text) (.error (.notAnExpression text))
  -- a fault in an operand is a fault of the whole
  | operandFault {op : Operator} {operand : Expr} {fault : Fault}
      (h : Evaluates operand (.error fault)) : Evaluates (.unary op operand) (.error fault)
  | leftFault {op : Operator} {left right : Expr} {fault : Fault}
      (hl : Evaluates left (.error fault)) : Evaluates (.binary op left right) (.error fault)
  | rightFault {op : Operator} {left right : Expr} {x : Float} {fault : Fault}
      (hl : Evaluates left (.ok x)) (hr : Evaluates right (.error fault)) :
      Evaluates (.binary op left right) (.error fault)
  -- one operand
  | neg {operand : Expr} {x : Float} (h : Evaluates operand (.ok x)) :
      Evaluates (.unary .neg operand) (.ok (-x))
  | notUnary {op : Operator} {operand : Expr} {x : Float} (hop : op ≠ .neg)
      (h : Evaluates operand (.ok x)) :
      Evaluates (.unary op operand) (.error (.unexpectedUnary op))
  -- two operands
  | add {left right : Expr} {x y : Float} (hl : Evaluates left (.ok x))
      (hr : Evaluates right (.ok y)) : Evaluates (.binary .add left right) (.ok (x + y))
  | sub {left right : Expr} {x y : Float} (hl : Evaluates left (.ok x))
      (hr : Evaluates right (.ok y)) : Evaluates (.binary .sub left right) (.ok (x - y))
  | mul {left right : Expr} {x y : Float} (hl : Evaluates left (.ok x))
      (hr : Evaluates right (.ok y)) : Evaluates (.binary .mul left right) (.ok (x * y))
  | div {left right : Expr} {x y : Float} (hl : Evaluates left (.ok x))
      (hr : Evaluates right (.ok y)) (hy : y ≠ 0 ∧ y ≠ -0) :
      Evaluates (.binary .div left right) (.ok (x / y))
  | divZero {left right : Expr} {x y : Float} (hl : Evaluates left (.ok x))
      (hr : Evaluates right (.ok y)) (hy : y = 0 ∨ y = -0) :
      Evaluates (.binary .div left right) (.error .divisionByZero)
  | notBinary {left right : Expr} {x y : Float} (hl : Evaluates left (.ok x))
      (hr : Evaluates right (.ok y)) :
      Evaluates (.binary .neg left right) (.error (.unsupportedBinary .neg))

theorem applyUnary_of_ne {op : Operator} (hop : op ≠ .neg) (x : Float) :
    applyUnary op x = .error (.unexpectedUnary op) := by
  cases op with
  | neg => exact absurd rfl hop
  | _ => rfl

theorem applyBinary_div_zero {y : Float} (hy : y = 0 ∨ y = -0) (x : Float) :
    applyBinary .div x y = .error .divisionByZero :=
  if_pos ((Binary64.beq_zero_iff y).2 hy)

theorem applyBinary_div {y : Float} (hy : y ≠ 0 ∧ y ≠ -0) (x : Float) :
    applyBinary .div x y = .ok (x / y) :=
  if_neg fun h => ((Binary64.beq_zero_iff y).1 h).elim hy.1 hy.2

/-- An operator behind its operand is evaluated by the rules. -/
theorem Expr.Evaluates.unary {operand : Expr} {x : Float} (h : operand.Evaluates (.ok x))
    (op : Operator) : (Expr.unary op operand).Evaluates (applyUnary op x) := by
  by_cases hop : op = .neg
  · subst hop
    exact .neg h
  · rw [applyUnary_of_ne hop]
    exact .notUnary hop h

/-- An operator behind its two operands is evaluated by the rules. -/
theorem Expr.Evaluates.binary {left right : Expr} {x y : Float} (hl : left.Evaluates (.ok x))
    (hr : right.Evaluates (.ok y)) (op : Operator) :
    (Expr.binary op left right).Evaluates (applyBinary op x y) := by
  cases op with
  | add => exact .add hl hr
  | sub => exact .sub hl hr
  | mul => exact .mul hl hr
  | div =>
    by_cases hy : y = 0 ∨ y = -0
    · rw [applyBinary_div_zero hy]
      exact .divZero hl hr hy
    · rw [applyBinary_div (not_or.1 hy)]
      exact .div hl hr (not_or.1 hy)
  | neg => exact .notBinary hl hr

/-- Recursion on the tree obeys the rules. -/
theorem Expr.evaluates_value (e : Expr) : e.Evaluates e.value := by
  induction e with
  | number value => exact .number
  | unary op operand ih =>
    rw [Expr.value]
    cases hoperand : operand.value with
    | error fault => exact .operandFault (hoperand ▸ ih)
    | ok x => exact (hoperand ▸ ih).unary op
  | binary op left right ihl ihr =>
    rw [Expr.value]
    cases hleft : left.value with
    | error fault => exact .leftFault (hleft ▸ ihl)
    | ok x =>
      cases hright : right.value with
      | error fault => exact .rightFault (hleft ▸ ihl) (hright ▸ ihr)
      | ok y => exact (hleft ▸ ihl).binary (hright ▸ ihr) op
  | foreign text => exact .foreign

/-- The rules leave no choice. -/
theorem Expr.Evaluates.value_eq {e : Expr} {outcome : Except Fault Float}
    (h : e.Evaluates outcome) : e.value = outcome := by
  induction h with
  | number => rfl
  | foreign => rfl
  | operandFault h ih => rw [Expr.value, ih]
  | leftFault hl ih => rw [Expr.value, ih]
  | rightFault hl hr ihl ihr => simp only [Expr.value, ihl, ihr]
  | neg h ih => simp only [Expr.value, ih, applyUnary]
  | notUnary hop h ih => simp only [Expr.value, ih, applyUnary_of_ne hop]
  | add hl hr ihl ihr => simp only [Expr.value, ihl, ihr, applyBinary]
  | sub hl hr ihl ihr => simp only [Expr.value, ihl, ihr, applyBinary]
  | mul hl hr ihl ihr => simp only [Expr.value, ihl, ihr, applyBinary]
  | div hl hr hy ihl ihr => simp only [Expr.value, ihl, ihr, applyBinary_div hy]
  | divZero hl hr hy ihl ihr => simp only [Expr.value, ihl, ihr, applyBinary_div_zero hy]
  | notBinary hl hr ihl ihr => simp only [Expr.value, ihl, ihr, applyBinary]

/-- Recursion on the tree follows the rules. -/
theorem Expr.value_eq_iff {e : Expr} {outcome : Except Fault Float} :
    e.value = outcome ↔ e.Evaluates outcome := by
  constructor
  · rintro rfl
    exact e.evaluates_value
  · exact Expr.Evaluates.value_eq

/-! ### The machine -/

/-- The two stacks of an evaluation. -/
structure Machine where
  /-- The tasks still to be done, the next one first. -/
  tasks : List Task
  /-- The results so far, the last one first. -/
  results : List Float
  deriving DecidableEq, Repr

namespace Machine

/-- The machine that is to evaluate an expression. -/
def start (e : Expr) : Machine := ⟨[.visit e], []⟩

/-- The machine with one more result on its stack, and the tasks that are left. -/
def push (tasks : List Task) (results : List Float) (x : Float) : Machine :=
  ⟨tasks, x :: results⟩

/-- The machine after its next task.  Where there is none, nothing changes. -/
def step : Machine → Except Fault Machine
  | ⟨[], results⟩ => .ok ⟨[], results⟩
  | ⟨.visit (.number value) :: tasks, results⟩ => .ok (push tasks results value)
  | ⟨.visit (.unary op operand) :: tasks, results⟩ =>
    .ok ⟨.visit operand :: .unary op :: tasks, results⟩
  | ⟨.visit (.binary op left right) :: tasks, results⟩ =>
    .ok ⟨.visit left :: .visit right :: .binary op :: tasks, results⟩
  | ⟨.visit (.foreign text) :: _, _⟩ => .error (.notAnExpression text)
  | ⟨.unary op :: tasks, x :: results⟩ => (applyUnary op x).map (push tasks results)
  | ⟨.binary op :: tasks, y :: x :: results⟩ => (applyBinary op x y).map (push tasks results)
  | ⟨.unary _ :: _, _⟩ => .error .missingOperand
  | ⟨.binary _ :: _, _⟩ => .error .missingOperand

/-- The machine after a number of steps, or the fault that one of them met. -/
def steps : Nat → Machine → Except Fault Machine
  | 0, m => .ok m
  | n + 1, m => m.step.bind (steps n)

theorem steps_succ (n : Nat) (m : Machine) : steps (n + 1) m = m.step.bind (steps n) := rfl

@[simp] theorem step_number (value : Float) (tasks : List Task) (results : List Float) :
    step ⟨.visit (.number value) :: tasks, results⟩ = .ok (push tasks results value) := rfl

@[simp] theorem step_visit_unary (op : Operator) (operand : Expr) (tasks : List Task)
    (results : List Float) : step ⟨.visit (.unary op operand) :: tasks, results⟩ =
      .ok ⟨.visit operand :: .unary op :: tasks, results⟩ := rfl

@[simp] theorem step_visit_binary (op : Operator) (left right : Expr) (tasks : List Task)
    (results : List Float) : step ⟨.visit (.binary op left right) :: tasks, results⟩ =
      .ok ⟨.visit left :: .visit right :: .binary op :: tasks, results⟩ := rfl

@[simp] theorem step_foreign (text : String) (tasks : List Task) (results : List Float) :
    step ⟨.visit (.foreign text) :: tasks, results⟩ = .error (.notAnExpression text) := rfl

@[simp] theorem step_unary (op : Operator) (x : Float) (tasks : List Task)
    (results : List Float) : step ⟨.unary op :: tasks, x :: results⟩ =
      (applyUnary op x).map (push tasks results) := rfl

@[simp] theorem step_binary (op : Operator) (x y : Float) (tasks : List Task)
    (results : List Float) : step ⟨.binary op :: tasks, y :: x :: results⟩ =
      (applyBinary op x y).map (push tasks results) := rfl

/-- `run` does one step after another. -/
theorem run_of_step (m : Machine) :
    run m.tasks m.results = m.step.bind fun m' => run m'.tasks m'.results := by
  obtain ⟨tasks, results⟩ := m
  match tasks, results with
  | [], results => rfl
  | .visit (.number value) :: tasks, results => rw [step_number, run]; rfl
  | .visit (.unary op operand) :: tasks, results => rw [step_visit_unary, run]; rfl
  | .visit (.binary op left right) :: tasks, results => rw [step_visit_binary, run]; rfl
  | .visit (.foreign text) :: tasks, results => rw [step_foreign, run]; rfl
  | .unary op :: tasks, [] => rw [run]; rfl
  | .unary op :: tasks, x :: results =>
    rw [step_unary, run]
    cases applyUnary op x <;> rfl
  | .binary op :: tasks, [] => rw [run]; rfl
  | .binary op :: tasks, [x] => rw [run]; rfl
  | .binary op :: tasks, y :: x :: results =>
    rw [step_binary, run]
    cases applyBinary op x y <;> rfl

/-- `run` goes on from wherever the steps have come to. -/
theorem run_of_steps (n : Nat) (m : Machine) :
    run m.tasks m.results = (steps n m).bind fun m' => run m'.tasks m'.results := by
  induction n generalizing m with
  | zero => rfl
  | succ n ih =>
    rw [run_of_step, steps_succ]
    cases m.step with
    | error fault => rfl
    | ok m' => exact ih m'

/-- Steps after steps are steps. -/
theorem steps_add (n k : Nat) (m : Machine) : steps (n + k) m = (steps n m).bind (steps k) := by
  induction n generalizing m with
  | zero => rw [Nat.zero_add]; rfl
  | succ n ih =>
    rw [Nat.succ_add, steps_succ, steps_succ]
    cases m.step with
    | error fault => rfl
    | ok m' => exact ih m'

/-- A machine without tasks has come to its end. -/
theorem steps_done (n : Nat) (results : List Float) :
    steps n ⟨[], results⟩ = .ok ⟨[], results⟩ := by
  induction n with
  | zero => rfl
  | succ n ih => exact ih

/-- An expression on top of the tasks takes as many steps as it has tasks, and leaves
its value on top of the results. -/
theorem steps_visit (e : Expr) (tasks : List Task) (results : List Float) :
    steps e.taskCount ⟨.visit e :: tasks, results⟩ = e.value.map (push tasks results) := by
  induction e generalizing tasks results with
  | number value => rfl
  | unary op operand ih =>
    -- the visit, the operand, the operator
    have hcount : (Expr.unary op operand).taskCount = 1 + operand.taskCount + 1 := by
      rw [Expr.taskCount]
      omega
    have hoperand : steps (1 + operand.taskCount) ⟨.visit (.unary op operand) :: tasks, results⟩ =
        operand.value.map (push (.unary op :: tasks) results) := by
      rw [steps_add]
      exact ih (.unary op :: tasks) results
    rw [hcount, steps_add, hoperand, Expr.value]
    cases operand.value with
    | error fault => rfl
    | ok x => exact bind_pure (applyUnary op x |>.map (push tasks results))
  | binary op left right ihl ihr =>
    -- the visit, the two operands, the operator
    have hcount : (Expr.binary op left right).taskCount =
        1 + left.taskCount + right.taskCount + 1 := by
      rw [Expr.taskCount]
      omega
    have hleft : steps (1 + left.taskCount) ⟨.visit (.binary op left right) :: tasks, results⟩ =
        left.value.map (push (.visit right :: .binary op :: tasks) results) := by
      rw [steps_add]
      exact ihl (.visit right :: .binary op :: tasks) results
    rw [hcount, steps_add, steps_add, hleft, Expr.value]
    cases left.value with
    | error fault => rfl
    | ok x =>
      have hright : steps right.taskCount (push (.visit right :: .binary op :: tasks) results x) =
          right.value.map (push (.binary op :: tasks) (x :: results)) :=
        ihr (.binary op :: tasks) (x :: results)
      show ((steps right.taskCount _).bind (steps 1)) = _
      rw [hright]
      cases right.value with
      | error fault => rfl
      | ok y => exact bind_pure (applyBinary op x y |>.map (push tasks results))
  | foreign text => rfl

/-- The steps that an expression takes are all there is to do. -/
theorem steps_start {e : Expr} {n : Nat} (hn : e.taskCount ≤ n) :
    steps n (start e) = e.value.map (push [] []) := by
  obtain ⟨k, rfl⟩ := Nat.exists_eq_add_of_le hn
  rw [steps_add, start, steps_visit]
  cases e.value with
  | error fault => rfl
  | ok x => exact steps_done k [x]

end Machine

/-! ### How many results are left -/

/-- How many results will be left when the tasks are done, if there are `count` before;
`none` where some task finds fewer than it takes. -/
def resultsLeft : List Task → Nat → Option Nat
  | [], count => some count
  | .visit _ :: tasks, count => resultsLeft tasks (count + 1)
  | .unary _ :: tasks, count + 1 => resultsLeft tasks (count + 1)
  | .binary _ :: tasks, count + 2 => resultsLeft tasks (count + 1)
  | _, _ => none

namespace Machine

/-- The tasks of the machine will leave one result. -/
def Balanced (m : Machine) : Prop := resultsLeft m.tasks m.results.length = some 1

theorem balanced_start (e : Expr) : (start e).Balanced := rfl

/-- A task that is an operator leaves one result in place of those it takes. -/
theorem Balanced.push {tasks : List Task} {results : List Float} {o : Except Fault Float}
    {m : Machine} (h : resultsLeft tasks (results.length + 1) = some 1)
    (hm : o.map (push tasks results) = .ok m) : m.Balanced := by
  cases o with
  | error fault => cases hm
  | ok x =>
    obtain rfl : Machine.push tasks results x = m := by simpa [Except.map] using hm
    exact h

/-- **No step changes how many results will be left.** -/
theorem Balanced.step {m m' : Machine} (h : m.Balanced) (hm : m.step = .ok m') :
    m'.Balanced := by
  obtain ⟨tasks, results⟩ := m
  match tasks, results, h with
  | [], results, h => cases hm; exact h
  | .visit (.number value) :: tasks, results, h => cases hm; exact h
  | .visit (.unary op operand) :: tasks, results, h => cases hm; exact h
  | .visit (.binary op left right) :: tasks, results, h => cases hm; exact h
  | .visit (.foreign text) :: tasks, results, h => cases hm
  | .unary op :: tasks, x :: results, h =>
    have hleft : resultsLeft tasks (results.length + 1) = some 1 := h
    exact Balanced.push hleft hm
  | .binary op :: tasks, y :: x :: results, h =>
    have hleft : resultsLeft tasks (results.length + 1) = some 1 := h
    exact Balanced.push hleft hm

/-- What applies an operator is never short of operands. -/
theorem applyUnary_ne_missingOperand (op : Operator) (x : Float) :
    applyUnary op x ≠ .error .missingOperand := by
  cases op <;> nofun

theorem applyBinary_ne_missingOperand (op : Operator) (x y : Float) :
    applyBinary op x y ≠ .error .missingOperand := by
  intro h
  cases op with
  | div =>
    rw [applyBinary] at h
    split at h <;> cases h
  | _ => cases h

theorem map_eq_error {ε α β : Type} {o : Except ε α} {f : α → β} {fault : ε}
    (h : o.map f = .error fault) : o = .error fault := by
  cases o with
  | error fault' => cases h; rfl
  | ok a => cases h

/-- While one result will be left, every task finds the results it takes. -/
theorem Balanced.step_ne_missingOperand {m : Machine} (h : m.Balanced) :
    m.step ≠ .error .missingOperand := by
  obtain ⟨tasks, results⟩ := m
  intro hm
  match tasks, results, h with
  | [], results, _ => cases hm
  | .visit e :: tasks, results, _ => cases e <;> cases hm
  | .unary op :: tasks, x :: results, _ =>
    exact applyUnary_ne_missingOperand op x (map_eq_error hm)
  | .binary op :: tasks, y :: x :: results, _ =>
    exact applyBinary_ne_missingOperand op x y (map_eq_error hm)

/-- In every machine that the steps come to, one result will be left. -/
theorem Balanced.steps {m m' : Machine} (h : m.Balanced) {n : Nat}
    (hm : steps n m = .ok m') : m'.Balanced := by
  induction n generalizing m with
  | zero => cases hm; exact h
  | succ n ih =>
    rw [steps_succ] at hm
    cases hstep : m.step with
    | error fault => rw [hstep] at hm; cases hm
    | ok next =>
      rw [hstep] at hm
      exact ih (h.step hstep) hm

theorem Balanced.results_of_done {m : Machine} (h : m.Balanced) (hm : m.tasks = []) :
    ∃ x, m.results = [x] := by
  rw [Balanced, hm] at h
  exact List.length_eq_one_iff.1 (Option.some_inj.1 h)

end Machine

/-- **The evaluation of every tree follows the rules.**  Its outcome is the one that the
rules give; the stacks come to it within as many steps as the tree has tasks, with
exactly the value left; and on the way no task finds fewer results than it takes. -/
theorem evaluateExpr_follows_rules (e : Expr) :
    (∀ outcome, evaluateExpr e = outcome ↔ e.Evaluates outcome) ∧
    (∀ n, e.taskCount ≤ n →
      (Machine.start e).steps n = (evaluateExpr e).map fun x => ⟨[], [x]⟩) ∧
    (∀ n m, (Machine.start e).steps n = .ok m →
      run m.tasks m.results = evaluateExpr e ∧ m.step ≠ .error .missingOperand ∧
        (m.tasks = [] → ∃ x, m.results = [x])) ∧
    Fault.divisionByZero.message = "Division by zero" := by
  refine ⟨fun outcome => ?_, fun n hn => ?_, fun n m hm => ?_, rfl⟩
  · rw [evaluateExpr_eq_value]
    exact Expr.value_eq_iff
  · rw [evaluateExpr_eq_value]
    exact Machine.steps_start hn
  · have hbalanced : m.Balanced := (Machine.balanced_start e).steps hm
    have hrun := Machine.run_of_steps n (Machine.start e)
    rw [hm] at hrun
    exact ⟨hrun.symm, hbalanced.step_ne_missingOperand, hbalanced.results_of_done⟩

end Calculator
