import Calculator.Expr.Parse
import Calculator.Log
import Calculator.Token.Scan

/-!
# Valid expressions

An expression is valid when its tokens and their tree can be read.  Brackets are
counted before the tree is read, since a count gives the better diagnosis: the
bracket that closes nothing, or how many brackets stay open.  White space alone
is valid.

## Main definitions

* `Rejection` — why an expression is not valid.
* `openAfter depth tokens` — how many brackets are open behind the tokens.
* `validate source` — whether an expression is valid, and why not.
* `isValid source` — the same, with a record of rejection in the log.
-/

namespace Calculator

/-- Why an expression is not valid. -/
inductive Rejection
  /-- It has no tokens. -/
  | scan (e : ScanError)
  /-- The closing bracket at this place closes nothing. -/
  | closesNothing (position : Nat)
  /-- This many brackets are not closed. -/
  | unclosed (count : Nat)
  /-- Its tokens have no tree. -/
  | parse (e : ParseError)
  /-- Its nesting is too deep. -/
  | tooDeep
  deriving DecidableEq, Repr

/-- The reason given for a rejection. -/
def Rejection.reason : Rejection → String
  | .scan e => e.message
  | .closesNothing position => "\x27)\x27 at " ++ toString position ++ " closes nothing"
  | .unclosed count => toString count ++ " unclosed parenthesis"
  | .parse e => e.message
  | .tooDeep => "nested too deeply"

/-- How many brackets are open behind the tokens, if `depth` of them are open
before; the position of the first bracket that closes nothing, if there is one. -/
def openAfter : Nat → List Token → Except Nat Nat
  | depth, [] => .ok depth
  | depth, t :: tokens =>
    match t.kind, depth with
    | .openBracket, depth => openAfter (depth + 1) tokens
    | .closeBracket, 0 => .error t.position
    | .closeBracket, depth + 1 => openAfter depth tokens
    | _, depth => openAfter depth tokens

/-- Whether the brackets among tokens match. -/
def checkBrackets (tokens : List Token) : Except Rejection Unit :=
  match openAfter 0 tokens with
  | .error position => .error (.closesNothing position)
  | .ok 0 => .ok ()
  | .ok (n + 1) => .error (.unclosed (n + 1))

/-- The rejection that a failure to read the tree amounts to. -/
def Rejection.ofParse : ParseFailure → Rejection
  | .error e => .parse e
  | .tooDeep => .tooDeep

/-- Whether tokens have a tree. -/
def checkTree (tokens : List Token) : Except Rejection Unit :=
  match parse tokens with
  | .error failure => .error (.ofParse failure)
  | .ok _ => .ok ()

/-- Whether an expression is valid. -/
def validate (source : String) : Except Rejection Unit :=
  if allBlank source.toList then .ok ()
  else
    match scan source with
    | .error e => .error (.scan e)
    | .ok tokens =>
      match checkBrackets tokens with
      | .error rejection => .error rejection
      | .ok () => checkTree tokens

/-- Whether an expression is valid, with a record in the log if it is not. -/
def isValid (source : String) : Logged Bool :=
  match validate source with
  | .error rejection => .noting (.rejected source rejection.reason) false
  | .ok () => .quiet true

/-- The verdict is that of `validate`. -/
theorem value_isValid (source : String) :
    (isValid source).value = true ↔ validate source = .ok () := by
  unfold isValid
  split
  · next rejection h => simp [h]
  · next h => simp [h]

end Calculator
