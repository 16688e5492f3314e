import Orchestration.Expression.Error
import Orchestration.Value.Comparison
import Orchestration.Value.Path

/-!
# Conditions and their meaning

A condition is a tree whose every node has an operand as its value, relative to a bag. Where the text
of a condition is faulty the tree holds the cause, and the fault comes to light only when evaluation
arrives there: a term that is decided by what stands before it is never looked at.
-/

namespace Orchestration

/-- A condition as a tree. -/
inductive Condition where
  /-- A place where the text is faulty. -/
  | refused (error : ExpressionError)
  /-- A value that is written out; undefined is one of them. -/
  | literal (operand : Operand)
  /-- The value that a path leads to, undefined when it leads nowhere. -/
  | stored (path : String)
  | compared (comparison : Comparison) (left right : Condition)
  | negated (inner : Condition)
  /-- True when no term is false. -/
  | conjunction (terms : List Condition)
  /-- True when some term is true. -/
  | disjunction (terms : List Condition)

namespace Operand

/-- Whether an operand counts as true; undefined does not. -/
def isTruthy (operand : Operand) : Bool :=
  operand.any Value.isTruthy

/-- A Boolean as an operand. -/
def ofBool (value : Bool) : Operand := some (.boolean value)

end Operand

namespace Condition

mutual

/-- The operand that a condition stands for in a bag. -/
def value (bag : Bag) : Condition → Except ExpressionError Operand
  | .refused error => .error error
  | .literal operand => .ok operand
  | .stored path => .ok (bag.get? path)
  | .compared comparison left right =>
      match value bag left with
      | .error error => .error error
      | .ok leftOperand =>
          match value bag right with
          | .error error => .error error
          | .ok rightOperand => .ok (.ofBool (comparison.holds leftOperand rightOperand))
  | .negated inner =>
      match value bag inner with
      | .error error => .error error
      | .ok operand => .ok (.ofBool (!operand.isTruthy))
  | .conjunction terms => (every bag terms).map .ofBool
  | .disjunction terms => (any bag terms).map .ofBool

/-- Whether all of a list of terms are true. The terms after the first false one are not looked at. -/
def every (bag : Bag) : List Condition → Except ExpressionError Bool
  | [] => .ok true
  | term :: terms =>
      match value bag term with
      | .error error => .error error
      | .ok operand => if operand.isTruthy then every bag terms else .ok false

/-- Whether one of a list of terms is true. The terms after the first true one are not looked at. -/
def any (bag : Bag) : List Condition → Except ExpressionError Bool
  | [] => .ok false
  | term :: terms =>
      match value bag term with
      | .error error => .error error
      | .ok operand => if operand.isTruthy then .ok true else any bag terms

end

/-- Whether a condition is true in a bag. -/
def holds (condition : Condition) (bag : Bag) : Except ExpressionError Bool :=
  (condition.value bag).map Operand.isTruthy

end Condition

end Orchestration
