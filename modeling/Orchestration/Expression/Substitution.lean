import Orchestration.Expression.Arithmetic
import Orchestration.Text.Digit
import Orchestration.Text.Word
import Orchestration.Value.Path
import Orchestration.Value.Written

/-!
# Expressions over a bag

An expression is text with references in it. A reference is a name of ASCII letters, digits and
underscores that does not begin with a digit and is not the middle of a longer word, with further such
names, each perhaps beginning with a digit, attached by points. Which parts of a text are references
depends on the text alone.

Every reference that leads somewhere is replaced by the text of what it leads to. When the outcome is
made of digits, blanks, points, signs and parentheses it is evaluated, else it stands for itself.
-/

namespace Orchestration.Expression

/-- A part of an expression. -/
inductive Piece where
  | plain (character : Char)
  | reference (path : List Char)
  deriving DecidableEq, Repr

/-- The text of a piece. -/
def Piece.text : Piece → List Char
  | .plain character => [character]
  | .reference path => path

/-- True of the characters a reference can begin with. -/
def startsReference (character : Char) : Bool :=
  character.isAlpha || character = '_'

/-- Where the search for references stands. -/
inductive Cursor where
  /-- Outside of a reference, right after a word character or not. -/
  | outside (afterWord : Bool)
  /-- In a reference, after one of its names. -/
  | inside (path : List Char)
  /-- In a reference, after a point that belongs to it only if another name follows. -/
  | afterPoint (path : List Char)

/-- The pieces of a text, given where the search stands. -/
def piecesFrom : Cursor → List Char → List Piece
  | .outside _, [] => []
  | .inside path, [] => [.reference path]
  | .afterPoint path, [] => [.reference path, .plain '.']
  | .outside afterWord, character :: rest =>
      if startsReference character && !afterWord then piecesFrom (.inside [character]) rest
      else .plain character :: piecesFrom (.outside (Text.isWord character)) rest
  | .inside path, character :: rest =>
      if Text.isPlainWord character then piecesFrom (.inside (path ++ [character])) rest
      else if character = '.' then piecesFrom (.afterPoint path) rest
      else
        .reference path :: .plain character :: piecesFrom (.outside (Text.isWord character)) rest
  | .afterPoint path, character :: rest =>
      if Text.isPlainWord character then piecesFrom (.inside (path ++ ['.', character])) rest
      else
        .reference path :: .plain '.' :: .plain character ::
          piecesFrom (.outside (Text.isWord character)) rest

/-- The pieces of a text. -/
def pieces (text : List Char) : List Piece :=
  piecesFrom (.outside false) text

/-- What a piece becomes in a bag. -/
def Piece.substitute (bag : Bag) : Piece → List Char
  | .plain character => [character]
  | .reference path =>
      match bag.get? (String.ofList path) with
      | some value => value.spliced.toList
      | none => path

/-- A text with its references replaced. -/
def substitute (text : List Char) (bag : Bag) : List Char :=
  (pieces text).flatMap (Piece.substitute bag)

/-- True of the characters that arithmetic is made of. -/
def isArithmeticCharacter (character : Char) : Bool :=
  Text.isDecimalDigit character || Text.isBlank character ||
    ['+', '-', '*', '/', '%', '(', ')', '.'].contains character

/-- True of a text that is to be evaluated: it is made of arithmetic characters and has an ASCII digit. -/
def isArithmetic (text : List Char) : Bool :=
  text.all isArithmeticCharacter && text.any Char.isDigit

/-- The value of an expression in a bag. -/
def evaluate (text : String) (bag : Bag) : Except ExpressionError Value :=
  let substituted := substitute text.toList bag
  if isArithmetic substituted then do
    Arithmetic.toValue (← Arithmetic.evaluate substituted)
  else .ok (.text (String.ofList substituted))

end Orchestration.Expression
