import Orchestration.Binary64.Written
import Orchestration.Text.Integer
import Orchestration.Value.Basic

/-!
# Documents

A document is what the text of a definition spells before anything is known about the fields it fills.
It keeps the order and the repetitions of its keys, and it keeps scalars in the form in which they were
written as far as the field they go into decides what they are: a plain scalar without quotes is a text
in a field for texts and may be a number or a Boolean elsewhere.

A part of a document that no field asks for is never looked into. So a number that fits no number type
and a text that spells half of a character pair stay in the document as such, and only a use of them
fails.
-/

namespace Orchestration

/-- A document without inner structure. -/
inductive Scalar where
  | null
  | boolean (value : Bool)
  /-- A number; `none` when it is beyond the largest double. -/
  | number (value : Option Number)
  /-- A text in quotes; `none` when it spells half of a character pair. -/
  | text (value : Option String)
  /-- A text without quotes, whose meaning depends on where it is used. -/
  | plain (written : String)

/-- A document. -/
inductive Document where
  | scalar (content : Scalar)
  | sequence (items : List Document)
  | mapping (entries : List (Option String × Document))

namespace Scalar

/-- The whole number that a plain scalar spells in decimal digits or, behind a prefix, in another
base. Digits behind a leading zero spell no number. -/
def plainMagnitude? (text : List Char) : Option Nat :=
  let inBase (base : Nat) (digits : List Char) : Option Nat :=
    let value? (digit : Char) : Option Nat :=
      let value :=
        if digit.isDigit then digit.toNat - '0'.toNat
        else if 'a' ≤ digit ∧ digit ≤ 'f' then digit.toNat - 'a'.toNat + 10
        else if 'A' ≤ digit ∧ digit ≤ 'F' then digit.toNat - 'A'.toNat + 10
        else base
      if value < base then some value else none
    if digits.isEmpty then none
    else digits.foldl (fun total? digit =>
      total?.bind fun total => (value? digit).map fun value => total * base + value) (some 0)
  match text with
  | '0' :: 'x' :: digits => inBase 16 digits
  | '0' :: 'o' :: digits => inBase 8 digits
  | '0' :: 'b' :: digits => inBase 2 digits
  | '0' :: _ :: _ => none
  | _ => inBase 10 text

/-- The double that a plain scalar spells. The words for the special values begin with a point, and
a numeral beyond the largest double spells none. -/
def plainDouble? (text : List Char) : Option Float :=
  let magnitude :=
    match text with
    | '+' :: rest => rest
    | _ => text
  let word := String.ofList magnitude
  if word = ".inf" ∨ word = ".Inf" ∨ word = ".INF" then some (1.0 / 0.0)
  else if word = "-.inf" ∨ word = "-.Inf" ∨ word = "-.INF" then some (-(1.0 / 0.0))
  else if word = ".nan" ∨ word = ".NaN" ∨ word = ".NAN" then some (0.0 / 0.0)
  else if text.head? = some '+' ∧ (magnitude.head? = some '+' ∨ magnitude.head? = some '-') then none
  else (Binary64.read? magnitude).filter Binary64.isFinite

/-- True of digits behind a leading zero, which make a text and not a number. -/
def isZeroPadded (text : List Char) : Bool :=
  let digits :=
    match text with
    | '-' :: rest => rest
    | '+' :: rest => rest
    | _ => text
  match digits with
  | '0' :: rest => !rest.isEmpty && rest.all Char.isDigit
  | _ => false

/-- The number that a plain scalar spells, if it spells one: a whole number, or else a double. A whole
number that fits no word gives `some none`. -/
def plainNumber? (written : String) : Option (Option Number) :=
  let text := written.toList
  let magnitude? : Option Nat :=
    match text with
    | '+' :: rest => plainMagnitude? rest
    | '-' :: _ => none
    | _ => plainMagnitude? text
  let negative? : Option Nat :=
    match text with
    | '-' :: rest => plainMagnitude? rest
    | _ => none
  match magnitude?, negative? with
  | some value, _ =>
      if Word.isUnsigned value then some (some (.integer value))
      else if value < Word.count * Word.count then some none
      else (plainDouble? text).map fun double => some (.double double)
  | none, some value =>
      if value ≤ Word.signedLimit then some (some (.integer (-(value : Int))))
      else if value ≤ Word.count * Word.signedLimit then some none
      else (plainDouble? text).map fun double => some (.double double)
  | none, none =>
      if isZeroPadded text then none
      else (plainDouble? text).map fun double => some (.double double)

/-- True of the plain scalars that stand for nothing. -/
def isPlainNull (written : String) : Bool :=
  ["", "~", "null", "Null", "NULL"].contains written

/-- The Boolean that a plain scalar spells. -/
def plainBoolean? (written : String) : Option Bool :=
  if ["true", "True", "TRUE"].contains written then some true
  else if ["false", "False", "FALSE"].contains written then some false
  else none

/-- What a scalar is where any value may stand: for a plain one the first of nothing, Boolean, number
and text that it spells. -/
def resolve : Scalar → Scalar
  | .plain written =>
      if isPlainNull written then .null
      else
        match plainBoolean? written with
        | some value => .boolean value
        | none =>
            match plainNumber? written with
            | some held => .number held
            | none => .text (some written)
  | other => other

/-- The text of a scalar in a field for texts. A plain scalar is taken as it is written. -/
def text? : Scalar → Option String
  | .text value => value
  | .plain written => some written
  | _ => none

/-- The Boolean of a scalar. -/
def boolean? (scalar : Scalar) : Option Bool :=
  match scalar.resolve with
  | .boolean value => some value
  | _ => none

/-- True of a scalar that stands for nothing. -/
def isNull (scalar : Scalar) : Bool :=
  match scalar.resolve with
  | .null => true
  | _ => false

/-- A number as a value; a double that is not finite becomes nothing. -/
def numberValue : Number → Value
  | .integer value => .integer value
  | .double value => if Binary64.isFinite value then .double value else .null

/-- The value of a scalar where any value may stand. -/
def value? (scalar : Scalar) : Option Value :=
  match scalar.resolve with
  | .null => some .null
  | .boolean value => some (.boolean value)
  | .number value => value.map numberValue
  | .text value => value.map Value.text
  | .plain written => some (.text written)

end Scalar

namespace Document

/-- The deepest nesting of containers a document may be used with. -/
def maximumDepth : Nat := 127

mutual

/-- The number of containers around the most deeply nested part of a document. -/
def depth : Document → Nat
  | .scalar _ => 0
  | .sequence items => depthOfItems items + 1
  | .mapping entries => depthOfEntries entries + 1

/-- The greatest depth among the items of a sequence. -/
def depthOfItems : List Document → Nat
  | [] => 0
  | item :: items => max (depth item) (depthOfItems items)

/-- The greatest depth among the entries of a mapping. -/
def depthOfEntries : List (Option String × Document) → Nat
  | [] => 0
  | (_, document) :: entries => max (depth document) (depthOfEntries entries)

end

mutual

/-- The value of a document where any value may stand. Of entries under one key the last one stays. -/
def value? : Document → Option Value
  | .scalar content => content.value?
  | .sequence items => (values? items).map Value.list
  | .mapping entries => (entries? entries).map fun entries => .record (Bag.ofList entries)

/-- The values of the items of a sequence. -/
def values? : List Document → Option (List Value)
  | [] => some []
  | item :: items =>
      match value? item, values? items with
      | some value, some values => some (value :: values)
      | _, _ => none

/-- The values of the entries of a mapping, with their keys. -/
def entries? : List (Option String × Document) → Option (List (String × Value))
  | [] => some []
  | (some key, document) :: rest =>
      match value? document, entries? rest with
      | some value, some entries => some ((key, value) :: entries)
      | _, _ => none
  | (none, _) :: _ => none

end

end Document

end Orchestration
