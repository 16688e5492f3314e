import Orchestration.Binary64.Written
import Orchestration.Expression.Error
import Orchestration.Text.Blank
import Orchestration.Value.Basic

/-!
# Arithmetic

Sums of products of signed numerals and parentheses, over doubles:

    sum     = product (('+' | '-') product)*
    product = signed (('*' | '/' | '%') signed)*
    signed  = ('-' | '+') signed | numeral | '(' sum ')'

Reading goes from the text over its tokens to a tree. The tree has a value without further conditions,
so everything that can go wrong is found while reading, at the first token that fits nowhere. Signs and
parentheses may enclose one another up to the nesting limit, which is noticed before the token after
the last admissible one is looked at.
-/

namespace Orchestration.Arithmetic

/-- A token. -/
inductive Token where
  | numeral (value : Float)
  | plus
  | minus
  | times
  | divided
  | modulo
  | opening
  | closing

/-- How a token is written in an error. -/
def Token.describe : Token → String
  | .numeral value => Binary64.text .plain value
  | .plus => "+"
  | .minus => "-"
  | .times => "*"
  | .divided => "/"
  | .modulo => "%"
  | .opening => "("
  | .closing => ")"

/-- The token that a single sign spells. -/
def Token.ofSign? : Char → Option Token
  | '+' => some .plus
  | '-' => some .minus
  | '*' => some .times
  | '/' => some .divided
  | '%' => some .modulo
  | '(' => some .opening
  | ')' => some .closing
  | _ => none

/-- True of the characters that a numeral is a longest run of. -/
def isNumeralCharacter (character : Char) : Bool :=
  character.isDigit || character = '.'

/-- The token of a run of digits and points. -/
def ofRun (run : List Char) : Except ExpressionError Token :=
  match Binary64.read? run with
  | some value => .ok (.numeral value)
  | none => .error (.invalidNumber (String.ofList run))

/-- Reads the tokens of a text. The run of digits and points that has been read so far is held back
until a character ends it. -/
def tokensAfter : List Char → List Char → Except ExpressionError (List Token)
  | run, [] => if run.isEmpty then .ok [] else (ofRun run).map fun token => [token]
  | run, character :: rest =>
      if isNumeralCharacter character then tokensAfter (run ++ [character]) rest
      else do
        let held ← if run.isEmpty then .ok [] else (ofRun run).map fun token => [token]
        if Text.isBlank character then
          return held ++ (← tokensAfter [] rest)
        else
          match Token.ofSign? character with
          | some token => return held ++ token :: (← tokensAfter [] rest)
          | none => .error (.unexpectedCharacter character)

/-- The tokens of a text. -/
def tokens (text : List Char) : Except ExpressionError (List Token) :=
  tokensAfter [] text

/-- The operations with two operands. -/
inductive Operation where
  | add
  | subtract
  | multiply
  | divide
  | remainder
  deriving DecidableEq, Repr

/-- The result of an operation. -/
def Operation.apply : Operation → Float → Float → Float
  | .add, left, right => left + right
  | .subtract, left, right => left - right
  | .multiply, left, right => left * right
  | .divide, left, right => left / right
  | .remainder, left, right => Binary64.remainder left right

/-- An arithmetic expression as a tree. Parentheses leave no trace but the shape of the tree. -/
inductive Tree where
  | numeral (value : Float)
  | negated (inner : Tree)
  | combined (operation : Operation) (left right : Tree)

/-- The value of a tree. -/
def Tree.value : Tree → Float
  | .numeral value => value
  | .negated inner => -inner.value
  | .combined operation left right => operation.apply left.value right.value

/-- The operation of a sum that a token stands for. -/
def Token.additive? : Token → Option Operation
  | .plus => some .add
  | .minus => some .subtract
  | _ => none

/-- The operation of a product that a token stands for. -/
def Token.multiplicative? : Token → Option Operation
  | .times => some .multiply
  | .divided => some .divide
  | .modulo => some .remainder
  | _ => none

/-- What reading a part of the tokens gives: its tree and the tokens after it. -/
abbrev Reading := Except ExpressionError (Tree × List Token)

/-- Extends a tree by the operations that follow it, from left to right. Each takes at least one token,
so the count of tokens bounds their number. -/
def chain (operation? : Token → Option Operation) (operand : List Token → Reading) :
    Nat → Tree → List Token → Reading
  | 0, tree, tokens => .ok (tree, tokens)
  | bound + 1, tree, tokens =>
      match tokens with
      | [] => .ok (tree, [])
      | token :: rest =>
          match operation? token with
          | none => .ok (tree, tokens)
          | some operation => do
              let (right, rest) ← operand rest
              chain operation? operand bound (.combined operation tree right) rest

/-- Reads operands with operations between them. -/
def chained (operation? : Token → Option Operation) (operand : List Token → Reading)
    (tokens : List Token) : Reading := do
  let (first, rest) ← operand tokens
  chain operation? operand rest.length first rest

/-- Reads a sum, given how its signed operands are read. -/
def readSum (signed : List Token → Reading) : List Token → Reading :=
  chained Token.additive? (chained Token.multiplicative? signed)

/-- Reads a signed operand under fewer signs and parentheses than the given number of levels. -/
def readSigned : Nat → List Token → Reading
  | 0, _ => .error (.tooDeep maximumNesting)
  | levels + 1, tokens =>
      match tokens with
      | [] => .error .unexpectedEnd
      | .numeral value :: rest => .ok (.numeral value, rest)
      | .minus :: rest => do
          let (inner, rest) ← readSigned levels rest
          return (.negated inner, rest)
      | .plus :: rest => readSigned levels rest
      | .opening :: rest => do
          let (inner, rest) ← readSum (readSigned levels) rest
          match rest with
          | .closing :: rest => return (inner, rest)
          | token :: _ => .error (.unexpectedToken token.describe)
          | [] => .error .unexpectedEnd
      | token :: _ => .error (.unexpectedToken token.describe)

/-- Reads a whole list of tokens. -/
def ofTokens (tokens : List Token) : Except ExpressionError Tree := do
  let (tree, rest) ← readSum (readSigned maximumNesting) tokens
  match rest with
  | [] => return tree
  | token :: _ => .error (.unexpectedToken token.describe)

/-- The tree of a text. -/
def ofText (text : List Char) : Except ExpressionError Tree := do
  ofTokens (← tokens text)

/-- The value of a text. -/
def evaluate (text : List Char) : Except ExpressionError Float :=
  (ofText text).map Tree.value

/-- A result as a value: whole numbers of less than fifty-four bits become whole numbers, and what is
not finite is refused. -/
def toValue (result : Float) : Except ExpressionError Value :=
  if Binary64.isFinite result then
    match Binary64.toInt? result with
    | some integer =>
        if integer.natAbs < 2 * Binary64.fractionCount then .ok (.integer integer)
        else .ok (.double result)
    | none => .ok (.double result)
  else .error .nonFinite

end Orchestration.Arithmetic
