import Orchestration.Binary64.Written
import Orchestration.Text.Blank
import Orchestration.Value.Basic

/-!
# Comparing operands

An operand is a value or undefined. Strict equality converts nothing but lets whole numbers and
doubles meet; loose equality also lets texts, numbers and Booleans meet as numbers, and lets `null`
meet undefined. Two texts are ordered by their characters and every other two values as numbers, so
that an operand which is no number is neither less nor greater than anything.
-/

namespace Orchestration

/-- An operand of a comparison; `none` is undefined. -/
abbrev Operand := Option Value

namespace Value

/-- Whether a value counts as true: all but `null`, `false`, zero, an undefined double and the empty
text do. -/
def isTruthy : Value → Bool
  | .null => false
  | .boolean value => value
  | .number held => held.toFloat != 0.0 && held.toFloat == held.toFloat
  | .text written => !written.isEmpty
  | .list _ => true
  | .record _ => true

/-- The number a value counts as. A text is read without its outer blanks, and a blank one counts as
zero; what is no number counts as an undefined double. -/
def toNumber : Value → Float
  | .null => 0.0
  | .boolean true => 1.0
  | .boolean false => 0.0
  | .number held => held.toFloat
  | .text written =>
      match Text.trim written.toList with
      | [] => 0.0
      | trimmed => (Binary64.read? trimmed).getD (0.0 / 0.0)
  | .list _ => 0.0 / 0.0
  | .record _ => 0.0 / 0.0

/-- Equality without conversion, except that two numbers are compared as doubles. -/
def strictlyEqual : Value → Value → Bool
  | .number left, .number right => left.toFloat == right.toFloat
  | left, right => left.same right

/-- Equality with conversion: a Boolean, a number and a text of different kinds meet as numbers, and
`null` equals only itself. -/
def looselyEqual : Value → Value → Bool
  | .null, .null => true
  | .null, _ => false
  | _, .null => false
  | left@(.boolean _), right@(.number _) => left.toNumber == right.toNumber
  | left@(.boolean _), right@(.text _) => left.toNumber == right.toNumber
  | left@(.number _), right@(.boolean _) => left.toNumber == right.toNumber
  | left@(.text _), right@(.boolean _) => left.toNumber == right.toNumber
  | left@(.number _), right@(.text _) => left.toNumber == right.toNumber
  | left@(.text _), right@(.number _) => left.toNumber == right.toNumber
  | left, right => strictlyEqual left right

/-- The order of two values: of texts by their characters, of everything else as numbers. Values that
do not count as numbers have no order. -/
def order? : Value → Value → Option Ordering
  | .text left, .text right => some (compare left right)
  | left, right =>
      if left.toNumber < right.toNumber then some .lt
      else if left.toNumber == right.toNumber then some .eq
      else if left.toNumber > right.toNumber then some .gt
      else none

end Value

namespace Operand

/-- Strict equality of operands: undefined equals only itself. -/
def strictlyEqual : Operand → Operand → Bool
  | some left, some right => left.strictlyEqual right
  | none, none => true
  | _, _ => false

/-- Loose equality of operands: undefined equals itself and `null`. -/
def looselyEqual : Operand → Operand → Bool
  | some left, some right => left.looselyEqual right
  | none, none => true
  | none, some .null => true
  | some .null, none => true
  | _, _ => false

/-- The order of operands; undefined has none. -/
def order? : Operand → Operand → Option Ordering
  | some left, some right => left.order? right
  | _, _ => none

end Operand

/-- The comparison operators. -/
inductive Comparison where
  | identical
  | notIdentical
  | atLeast
  | atMost
  | different
  | equal
  | greater
  | less
  deriving DecidableEq, Repr

namespace Comparison

/-- The sign of an operator. -/
def sign : Comparison → String
  | .identical => "==="
  | .notIdentical => "!=="
  | .atLeast => ">="
  | .atMost => "<="
  | .different => "!="
  | .equal => "=="
  | .greater => ">"
  | .less => "<"

/-- Every operator, a longer sign before the signs that occur inside it. -/
def all : List Comparison :=
  [.identical, .notIdentical, .atLeast, .atMost, .different, .equal, .greater, .less]

/-- Whether a comparison holds of two operands. -/
def holds (comparison : Comparison) (left right : Operand) : Bool :=
  match comparison with
  | .identical => left.strictlyEqual right
  | .notIdentical => !left.strictlyEqual right
  | .equal => left.looselyEqual right
  | .different => !left.looselyEqual right
  | .atLeast => left.order? right == some .gt || left.order? right == some .eq
  | .atMost => left.order? right == some .lt || left.order? right == some .eq
  | .greater => left.order? right == some .gt
  | .less => left.order? right == some .lt

end Comparison

end Orchestration
