import Orchestration.Condition.Basic
import Orchestration.Condition.Scan
import Orchestration.Text.Digit

/-!
# Reading conditions

The operators bind, from the loosest to the tightest: `||`, `&&`, the comparisons, and `!` in front of
a term without a comparison. Each is looked for at the top level of the text it may stand in, and only
the first comparison of a term is one. Parentheses start again with a whole condition, up to the
nesting limit; a sign `!` uses up one level as well, and the limit is noticed at the next parenthesis.
-/

namespace Orchestration.Condition

/-- A numeral in the digits of any script: perhaps a minus sign, digits, and perhaps a point and more
digits. -/
def isNumeral (token : List Char) : Bool :=
  let magnitude :=
    match token with
    | '-' :: rest => rest
    | _ => token
  let whole := magnitude.takeWhile Text.isDecimalDigit
  match magnitude.dropWhile Text.isDecimalDigit with
  | [] => !whole.isEmpty
  | '.' :: fraction => !whole.isEmpty && !fraction.isEmpty && fraction.all Text.isDecimalDigit
  | _ => false

/-- The value of a numeral: a whole number when it fits a signed word, else the nearest double, and
`null` when that is infinite. A numeral in other digits than those of ASCII has no value. -/
def ofNumeral (token : List Char) : Condition :=
  match Binary64.read? token with
  | none => .refused (.invalidNumber (String.ofList token))
  | some double =>
      match Text.readInteger? token with
      | some integer => .literal (some (.integer integer))
      | none =>
          if Binary64.isFinite double then .literal (some (.double double))
          else .literal (some .null)

/-- What a token without outer blanks and parentheses stands for: one of four words, a numeral, a
quotation, or else a path. -/
def ofToken (token : List Char) : Condition :=
  if token = ['t', 'r', 'u', 'e'] then .literal (.ofBool true)
  else if token = ['f', 'a', 'l', 's', 'e'] then .literal (.ofBool false)
  else if token = ['n', 'u', 'l', 'l'] then .literal (some .null)
  else if token = ['u', 'n', 'd', 'e', 'f', 'i', 'n', 'e', 'd'] then .literal none
  else if isNumeral token then ofNumeral token
  else
    match quotation? token with
    | some quotation => .literal (some (.text (String.ofList quotation)))
    | none => .stored (String.ofList token)

/-- Reads an operand; `nested` reads what parentheses enclose. -/
def readOperand (nested : List Char → Condition) (text : List Char) : Condition :=
  let token := Text.trim text
  if token.isEmpty then .refused (.emptyTerm "")
  else
    match enclosed? token with
    | some inner => nested inner
    | none => ofToken token

/-- Reads a term without a comparison: signs `!` with blanks around them, then an operand. `nested`
is told how many signs came before it, and `whole` is the condition the term belongs to. -/
def readSigned (nested : Nat → List Char → Condition) (whole : List Char) :
    Nat → List Char → Condition
  | _, [] => .refused (.emptyTerm (String.ofList whole))
  | signs, character :: rest =>
      if Text.isBlank character then readSigned nested whole signs rest
      else if character = '!' then .negated (readSigned nested whole (signs + 1) rest)
      else readOperand (nested signs) (character :: rest)

/-- The first operator, in the order of the list of them all, that stands at the top level of a term,
with the texts on its two sides. -/
def comparison? (term : List Char) : Option (Comparison × List Char × List Char) :=
  Comparison.all.findSome? fun comparison =>
    (cut? comparison.sign.toList term).map fun parts => (comparison, parts.1, parts.2)

/-- Reads a term. -/
def readTerm (nested : Nat → List Char → Condition) (whole term : List Char) : Condition :=
  match comparison? term with
  | some (comparison, left, right) =>
      .compared comparison (readOperand (nested 0) left) (readOperand (nested 0) right)
  | none => readSigned nested whole 0 term

/-- The sign between the terms of a disjunction. -/
def orSign : List Char := ['|', '|']

/-- The sign between the terms of a conjunction. -/
def andSign : List Char := ['&', '&']

/-- The terms of a condition: a disjunction of conjunctions. -/
def terms (text : List Char) : List (List (List Char)) :=
  (splitTopLevel orSign text).map (splitTopLevel andSign)

/-- Reads a condition that may nest the given number of levels deep, itself included. Every term is
checked for being empty before any is read. -/
def read (levels : Nat) (text : List Char) : Condition :=
  match levels with
  | 0 => .refused (.tooDeep maximumNesting)
  | deeper + 1 =>
      if (terms text).any (fun conjuncts => conjuncts.any Text.isBlankText) then
        .refused (.emptyTerm (String.ofList text))
      else
        .disjunction ((terms text).map fun conjuncts =>
          .conjunction (conjuncts.map fun term =>
            readTerm (fun signs inner => read (deeper - signs) inner) text term))
  termination_by levels

/-- The condition that a text spells. -/
def ofText (text : String) : Condition :=
  read maximumNesting text.toList

/-- Whether the condition that a text spells is true in a bag. -/
def evaluate (text : String) (bag : Bag) : Except ExpressionError Bool :=
  (ofText text).holds bag

end Orchestration.Condition
