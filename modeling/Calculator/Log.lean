import Calculator.Text.Quoted

/-!
# The log

Calculations that fail leave a record in a log.  A computation that may do so
carries its records along with its result.

## Main definitions

* `Record` — one record.
* `Logged α` — a result of type `α` and the records made on the way to it.
-/

namespace Calculator

/-- A record in the log. -/
inductive Record
  /-- An expression has no value, for the reason given. -/
  | failed (source reason : String)
  /-- An expression is nested too deeply to be evaluated. -/
  | tooDeep (source : String)
  /-- An expression was found invalid, for the reason given. -/
  | rejected (source reason : String)
  deriving DecidableEq, Repr

/-- The text of a record. -/
def Record.text : Record → String
  | .failed source reason => "Evaluation of " ++ quoted source ++ " failed: " ++ reason
  | .tooDeep source => "Evaluation of " ++ quoted source ++ " exceeded recursion limit"
  | .rejected source reason => "Rejected " ++ quoted source ++ ": " ++ reason

/-- A record as a line of the log, with its severity. -/
def Record.line (r : Record) : String := "DEBUG: " ++ r.text

/-- A result and the records made on the way to it, the first one first. -/
structure Logged (α : Type) where
  /-- The result. -/
  value : α
  /-- The records. -/
  records : List Record
  deriving DecidableEq, Repr

namespace Logged

/-- A result without a record. -/
def quiet {α : Type} (value : α) : Logged α := ⟨value, []⟩

/-- A result with one record. -/
def noting {α : Type} (record : Record) (value : α) : Logged α := ⟨value, [record]⟩

/-- One computation after another: the records of the first come first. -/
def andThen {α β : Type} (x : Logged α) (f : α → Logged β) : Logged β :=
  ⟨(f x.value).value, x.records ++ (f x.value).records⟩

@[simp] theorem value_quiet {α : Type} (a : α) : (quiet a).value = a := rfl

@[simp] theorem records_quiet {α : Type} (a : α) : (quiet a).records = [] := rfl

@[simp] theorem value_noting {α : Type} (r : Record) (a : α) : (noting r a).value = a := rfl

@[simp] theorem records_noting {α : Type} (r : Record) (a : α) :
    (noting r a).records = [r] := rfl

instance : Monad Logged where
  pure := quiet
  bind := andThen

@[simp] theorem value_pure {α : Type} (a : α) : (pure a : Logged α).value = a := rfl

@[simp] theorem records_pure {α : Type} (a : α) : (pure a : Logged α).records = [] := rfl

@[simp] theorem value_bind {α β : Type} (x : Logged α) (f : α → Logged β) :
    (x >>= f).value = (f x.value).value := rfl

@[simp] theorem records_bind {α β : Type} (x : Logged α) (f : α → Logged β) :
    (x >>= f).records = x.records ++ (f x.value).records := rfl

end Logged
end Calculator
