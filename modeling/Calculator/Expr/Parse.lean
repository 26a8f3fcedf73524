import Calculator.Expr.Level
import Calculator.Expr.ParseError

/-!
# Reading expressions

Tokens are read by recursive descent.  A *sum* is a chain of products with `+`
and `-` between them, a *product* a chain of primaries with `*` and `/` between
them, and chains are grouped from the left.  A *primary* is a number, a sum in
brackets, or a sign and a primary.  All tokens together have to make one sum.

Reading stops at the first token that cannot go on, and where nesting gets too
deep.  Nesting has a cost: every open bracket and every sign whose operand is
still being read counts, a bracket more than a sign.  Chains cost nothing.

## Main definitions

* `Parsed bound` — what has been read of a list of `bound` tokens.
* `primary`, `chain` — the expression at the front of a list of tokens.
* `ParseFailure` — why tokens are no expression.
* `parseWithin limit tokens`, `parse tokens` — the expression that all tokens
  make.
-/

namespace Calculator

/-- Why the reading of an expression stopped. -/
inductive Halt
  /-- The first of the tokens `rest`, or their absence, is wrong. -/
  | wrong (kind : ParseErrorKind) (rest : List Token)
  /-- The nesting is too deep. -/
  | tooDeep
  deriving DecidableEq, Repr

/-- An expression read from the front of fewer than `bound` tokens, and the tokens
behind it. -/
structure Parsed (bound : Nat) where
  /-- The expression. -/
  tree : Expr
  /-- The tokens behind it. -/
  rest : List Token
  /-- Something was read. -/
  shorter : rest.length < bound
  deriving DecidableEq, Repr

namespace Parsed

/-- The same reading, seen from a longer list. -/
def weaken {m n : Nat} (h : m ≤ n) (p : Parsed m) : Parsed n :=
  ⟨p.tree, p.rest, Nat.lt_of_lt_of_le p.shorter h⟩

/-- The reading with a sign in front. -/
def signed {n : Nat} (s : Sign) (p : Parsed n) : Parsed n :=
  ⟨s.apply p.tree, p.rest, p.shorter⟩

/-- The reading up to a closing bracket, and on past the bracket. -/
def close {n : Nat} (p : Parsed n) : Except Halt (Parsed n) :=
  match p with
  | ⟨_, [], _⟩ => .error (.wrong .missingBracket [])
  | ⟨tree, t :: rest, shorter⟩ =>
    match t.kind with
    | .closeBracket => .ok ⟨tree, rest, Nat.lt_of_succ_lt shorter⟩
    | _ => .error (.wrong .missingBracket (t :: rest))

end Parsed

/-- What an open bracket costs. -/
def bracketCost : Nat := 3

/-- What a sign costs while its operand is read. -/
def signCost : Nat := 1

/-- Whether a cost reaches the limit, if there is one. -/
def reaches (limit : Option Nat) (cost : Nat) : Bool :=
  match limit with
  | none => false
  | some n => decide (n ≤ cost)

mutual

/-- The primary at the front of the tokens, read at a given cost. -/
def primary (limit : Option Nat) (cost : Nat) (tokens : List Token) :
    Except Halt (Parsed tokens.length) :=
  match tokens with
  | [] => .error (.wrong .unexpectedEnd [])
  | t :: rest =>
    match t.kind with
    | .number value => .ok ⟨.number value, rest, Nat.lt_succ_self _⟩
    | .openBracket =>
      if reaches limit (cost + bracketCost) then .error .tooDeep
      else
        match chain limit (cost + bracketCost) .sum rest with
        | .error halt => .error halt
        | .ok inner => (inner.weaken (Nat.le_succ _)).close
    | .operator =>
      match Sign.ofLexeme? t.lexeme with
      | none => .error (.wrong (.unexpectedToken t.lexeme) (t :: rest))
      | some s =>
        if reaches limit (cost + signCost) then .error .tooDeep
        else
          match primary limit (cost + signCost) rest with
          | .error halt => .error halt
          | .ok operand => .ok ((operand.weaken (Nat.le_succ _)).signed s)
    | .closeBracket => .error (.wrong (.unexpectedToken t.lexeme) (t :: rest))
termination_by (tokens.length, 0)

/-- The operand of a chain at the front of the tokens. -/
def operand (limit : Option Nat) (cost : Nat) (level : Level) (tokens : List Token) :
    Except Halt (Parsed tokens.length) :=
  match level with
  | .product => primary limit cost tokens
  | .sum => chain limit cost .product tokens
termination_by (tokens.length, 2 * level.rank + 1)

/-- The chain at the front of the tokens. -/
def chain (limit : Option Nat) (cost : Nat) (level : Level) (tokens : List Token) :
    Except Halt (Parsed tokens.length) :=
  match operand limit cost level tokens with
  | .error halt => .error halt
  | .ok ⟨tree, rest, shorter⟩ => chainFrom limit cost level tokens.length tree rest shorter
termination_by (tokens.length, 2 * level.rank + 2)

/-- The chain that begins with the expression `left` and goes on with the tokens. -/
def chainFrom (limit : Option Nat) (cost : Nat) (level : Level) (bound : Nat) (left : Expr)
    (tokens : List Token) (shorter : tokens.length < bound) :
    Except Halt (Parsed bound) :=
  match tokens, shorter with
  | [], shorter => .ok ⟨left, [], shorter⟩
  | t :: rest, shorter =>
    match level.operator? t with
    | none => .ok ⟨left, t :: rest, shorter⟩
    | some op =>
      match operand limit cost level rest with
      | .error halt => .error halt
      | .ok ⟨right, rest', shorter'⟩ =>
        chainFrom limit cost level bound (.binary op left right) rest'
          (Nat.lt_trans shorter' (Nat.lt_of_succ_lt shorter))
termination_by (tokens.length, 0)

end

/-- Why tokens are no expression. -/
inductive ParseFailure
  /-- Some token, or the end, is wrong. -/
  | error (e : ParseError)
  /-- The nesting is too deep. -/
  | tooDeep
  deriving DecidableEq, Repr

/-- An error at the first of the last tokens `rest`. -/
def ParseFailure.at (tokens : List Token) (kind : ParseErrorKind) (rest : List Token) :
    ParseFailure :=
  .error ⟨tokens, kind, tokens.length - rest.length⟩

/-- The expression that all tokens make, read within a limit of cost. -/
def parseWithin (limit : Option Nat) (tokens : List Token) : Except ParseFailure Expr :=
  match chain limit 0 .sum tokens with
  | .error .tooDeep => .error .tooDeep
  | .error (.wrong kind rest) => .error (.at tokens kind rest)
  | .ok ⟨tree, [], _⟩ => .ok tree
  | .ok ⟨_, t :: rest, _⟩ => .error (.at tokens (.trailingInput t.lexeme) (t :: rest))

/-- The cost at which nesting is too deep. -/
def nestingLimit : Nat := 1000

/-- The expression that all tokens make. -/
def parse (tokens : List Token) : Except ParseFailure Expr :=
  parseWithin (some nestingLimit) tokens

end Calculator
