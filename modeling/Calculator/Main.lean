import Calculator.Session

/-!
# The program

The program holds a session over the standard input: it prompts, reads a line,
prints the answer, and ends with the input.  Asked for help, it prints that instead.
-/

namespace Calculator

/-- A line of input without the line end. -/
def withoutLineEnd (line : String) : String :=
  let cs := line.toList
  if cs.getLast? = some '\n' then String.ofList cs.dropLast else line

/-- Answers the lines that are still to be read, and tells how the session ended. -/
partial def answerLines (settings : Settings) (input output : IO.FS.Stream) : IO Ending := do
  output.putStr prompt
  output.flush
  let line ← input.getLine
  if line.isEmpty then
    output.putStrLn ""
    return .finished
  match (answer settings (withoutLineEnd line)).value with
  | .error crash => return .crashed crash
  | .ok text =>
    output.putStrLn text
    answerLines settings input output

/-- The program, with its command line arguments: the exit code tells how the
session ended. -/
def program (args : List String) : IO UInt32 := do
  let ending ← match Request.ofArgs args with
    | .session settings => answerLines settings (← IO.getStdin) (← IO.getStdout)
    | .help => do
      (← IO.getStdout).putStr helpText
      pure Ending.helped
    | .refused => pure Ending.refused
  return UInt32.ofNat ending.exitCode

end Calculator

/-- The program starts here. -/
def main (args : List String) : IO UInt32 := Calculator.program args
