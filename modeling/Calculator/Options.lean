import Calculator.Answer
import Calculator.Text.WholeNumber

/-!
# The command line

Two options choose the settings: `--max-decimals N`, also written
`--max-decimals=N`, and `--tokens`.  A third one, `--help` or `-h`, asks for help
in place of a session.  A long name may be cut short as long as only one name
begins like it.  Of two numbers of decimals the last one counts.

A number that stands as an argument of its own must not look like an option.  An
argument that begins with a dash does, unless there are only digits behind the
dash, or a space is in it.

Arguments are read from left to right.  An option that is used wrongly ends the
reading, and so does one that asks for help; an argument that is no option is
only held against the others when all have been read.  So help is given behind
an unknown argument, but not behind a wrong number.

## Main definitions

* `Switch` — the options.
* `Argument.ofText arg` — what an argument is.
* `Request.ofArgs args` — what arguments ask for.
* `Settings.ofArgs? args` — the settings chosen by arguments; `none` where they
  do not ask for a session.
-/

namespace Calculator

/-- The options. -/
inductive Switch
  /-- Help about the program. -/
  | help
  /-- The places that results are rounded to. -/
  | maxDecimals
  /-- Whether tokens are shown. -/
  | tokens
  deriving DecidableEq, Repr

/-- The name of an option. -/
def Switch.name : Switch → String
  | .help => "--help"
  | .maxDecimals => "--max-decimals"
  | .tokens => "--tokens"

/-- All options. -/
def Switch.all : List Switch := [.help, .maxDecimals, .tokens]

/-- The options whose names begin with the given characters. -/
def Switch.startingWith (start : List Char) : List Switch :=
  Switch.all.filter fun s => start.isPrefixOf s.name.toList

/-- What an argument names, and what it gives as its value behind an equals sign. -/
def splitArgument (arg : String) : List Char × Option String :=
  let cs := arg.toList
  let name := cs.takeWhile (· ≠ '=')
  match cs.dropWhile (· ≠ '=') with
  | [] => (name, none)
  | _ :: value => (name, some (String.ofList value))

/-- What an argument is. -/
inductive Argument
  /-- An option, with the value that is given to it in the same argument. -/
  | option (switch : Switch) (value : Option String)
  /-- The beginning of more than one option. -/
  | ambiguous
  /-- The mark behind which nothing is an option. -/
  | mark
  /-- Nothing that is known. -/
  | unknown
  deriving DecidableEq, Repr

/-- The value that is given to `-h` by the characters behind it.  The letter may be
repeated, and other letters behind it are not looked at before help is given; an
equals sign or another dash gives a value. -/
def valueBehindLetter (rest : List Char) : Option String :=
  match rest.dropWhile (· == 'h') with
  | '=' :: _ => some (String.ofList rest)
  | '-' :: _ => some (String.ofList rest)
  | _ => none

/-- What an argument is, told from its text. -/
def Argument.ofText (arg : String) : Argument :=
  match arg.toList with
  | ['-', '-'] => .mark
  | '-' :: '-' :: _ =>
    match Switch.startingWith (splitArgument arg).1 with
    | [] => .unknown
    | [switch] => .option switch (splitArgument arg).2
    | _ => .ambiguous
  | '-' :: 'h' :: rest => .option .help (valueBehindLetter rest)
  | _ => .unknown

/-- Whether the characters behind a dash make a negative number: digits only, and
perhaps an end of line. -/
def looksNegative (cs : List Char) : Bool :=
  let digits := if cs.getLast? = some '\n' then cs.dropLast else cs
  !digits.isEmpty && digits.all fun c => (digitValue? c).isSome

/-- Whether an argument can stand as the value of an option. -/
def isOperand (arg : String) : Bool :=
  match arg.toList with
  | '-' :: rest => looksNegative rest || rest.contains ' '
  | _ => true

/-- The number that an argument of its own gives. -/
def operandNumber? (arg : String) : Option Int :=
  if isOperand arg then wholeNumber? arg else none

/-- What arguments ask for. -/
inductive Request
  /-- A session with some settings. -/
  | session (settings : Settings)
  /-- Help. -/
  | help
  /-- Nothing, since they are not acceptable. -/
  | refused
  deriving DecidableEq, Repr

/-- What is asked for by some arguments, where `settings` are those chosen before, and
`known` tells whether all the arguments before are known. -/
def Settings.readArgs (settings : Settings) (known : Bool) : List String → Request
  | [] => if known then .session settings else .refused
  | arg :: args =>
    match Argument.ofText arg, args with
    | .option .help none, _ => .help
    | .option .tokens none, args => readArgs { settings with showTokens := true } known args
    | .option .maxDecimals (some value), args =>
      match wholeNumber? value with
      | none => .refused
      | some n => readArgs { settings with places := n } known args
    | .option .maxDecimals none, value :: args =>
      match operandNumber? value with
      | none => .refused
      | some n => readArgs { settings with places := n } known args
    | .unknown, args => readArgs settings false args
    | _, _ => .refused

/-- What arguments ask for.  Before any of them is read, an ambiguous one is found. -/
def Request.ofArgs (args : List String) : Request :=
  if (args.takeWhile (· ≠ "--")).any fun arg => Argument.ofText arg = .ambiguous then .refused
  else Settings.default.readArgs true args

/-- The settings chosen by arguments that ask for a session. -/
def Settings.ofArgs? (args : List String) : Option Settings :=
  match Request.ofArgs args with
  | .session settings => some settings
  | _ => none

theorem Settings.ofArgs?_eq_some_iff {args : List String} {settings : Settings} :
    Settings.ofArgs? args = some settings ↔ Request.ofArgs args = .session settings := by
  rw [Settings.ofArgs?]
  cases Request.ofArgs args with
  | session chosen => rw [Option.some_inj, Request.session.injEq]
  | help => exact iff_of_false nofun nofun
  | refused => exact iff_of_false nofun nofun

/-- The name by which help speaks of the program, whatever file it is started from. -/
def programName : String := "calculator"

/-- What is printed as help, laid out for lines of eighty columns. -/
def helpText : String :=
  "usage: " ++ programName ++ " [-h] [--max-decimals MAX_DECIMALS] [--tokens]\n" ++
  "\n" ++
  "Evaluate arithmetic expressions interactively\n" ++
  "\n" ++
  "options:\n" ++
  "  -h, --help            show this help message and exit\n" ++
  "  --max-decimals MAX_DECIMALS\n" ++
  "  --tokens              echo the tokenized input\n"

end Calculator
