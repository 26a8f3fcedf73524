import Calculator.Options

/-!
# Sessions

A session is a dialogue: the program prompts, reads a line, answers it, and so
on to the end of the input.  A line that cannot be answered ends the session at
once.  Unacceptable arguments keep it from beginning, and so does a request for
help, which is printed instead.

## Main definitions

* `Ending`, `Session` — how a session ends, and what it prints.
* `converse settings lines` — the session over some lines.
* `session args lines` — the session that arguments and lines make.
-/

namespace Calculator

/-- How a session ends. -/
inductive Ending
  /-- The input came to its end. -/
  | finished
  /-- A line could not be answered. -/
  | crashed (crash : Crash)
  /-- Help was asked for. -/
  | helped
  /-- The arguments were not acceptable. -/
  | refused
  deriving DecidableEq, Repr

/-- The exit code that tells how a session ended. -/
def Ending.exitCode : Ending → Nat
  | .finished => 0
  | .crashed _ => 1
  | .helped => 0
  | .refused => 2

/-- What a session prints, and how it ends. -/
structure Session where
  /-- All that is printed. -/
  output : String
  /-- How it ends. -/
  ending : Ending
  deriving DecidableEq, Repr

/-- The prompt. -/
def prompt : String := "> "

/-- A session that goes on after the text of an answer. -/
def Session.after (text : String) (s : Session) : Session :=
  { s with output := prompt ++ text ++ "\n" ++ s.output }

/-- The session over some lines. -/
def converse (settings : Settings) : List String → Logged Session
  | [] => pure ⟨prompt ++ "\n", .finished⟩
  | line :: lines => do
    match ← answer settings line with
    | .error crash => pure ⟨prompt, .crashed crash⟩
    | .ok text =>
      let rest ← converse settings lines
      pure (rest.after text)

/-- The session that arguments and lines make. -/
def session (args lines : List String) : Logged Session :=
  match Request.ofArgs args with
  | .session settings => converse settings lines
  | .help => pure ⟨helpText, .helped⟩
  | .refused => pure ⟨"", .refused⟩

end Calculator
