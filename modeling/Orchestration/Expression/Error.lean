/-!
# What can be wrong with an expression

Conditions, arithmetic and loop bounds share their causes of failure and the nesting limit.
-/

namespace Orchestration

/-- Why a condition or an expression has no result. -/
inductive ExpressionError where
  | unexpectedCharacter (character : Char)
  | unexpectedEnd
  | unexpectedToken (token : String)
  | invalidNumber (literal : String)
  | nonFinite
  | notAnInteger (expression : String)
  | emptyTerm (condition : String)
  | tooDeep (limit : Nat)
  deriving DecidableEq, Repr

/-- The wording of a failure. -/
def ExpressionError.message : ExpressionError → String
  | .unexpectedCharacter character =>
      s!"unexpected character '{String.singleton character}' in arithmetic expression"
  | .unexpectedEnd => "unexpected end of arithmetic expression"
  | .unexpectedToken token => s!"unexpected token '{token}' in arithmetic expression"
  | .invalidNumber literal => s!"invalid number literal '{literal}'"
  | .nonFinite => "arithmetic result is not a finite number"
  | .notAnInteger expression => s!"expression '{expression}' does not evaluate to an integer"
  | .emptyTerm condition => s!"empty condition term in '{condition}'"
  | .tooDeep limit => s!"arithmetic expression nests deeper than {limit} levels"

/-- How many parentheses and signs may enclose one another. -/
def maximumNesting : Nat := 256

end Orchestration
