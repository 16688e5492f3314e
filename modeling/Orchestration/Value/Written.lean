import Orchestration.Binary64.Written
import Orchestration.Value.Basic

/-!
# Values as JSON text

The compact form puts nothing between tokens; the indented form gives every item and entry a line of
its own. Entries are written in the order in which the record has them. A text is escaped no more
than it has to be: the quote, the backslash and the control characters below the space.
-/

namespace Orchestration

/-- A whole number in decimal digits. -/
def integerText : Int → List Char
  | .ofNat magnitude => Nat.toDigits 10 magnitude
  | .negSucc magnitude => '-' :: Nat.toDigits 10 (magnitude + 1)

/-- The text of a number. -/
def Number.json : Number → List Char
  | .integer value => integerText value
  | .double value => (Binary64.text .json value).toList

/-- A character of a text between its quotes. -/
def escapeCharacter (character : Char) : List Char :=
  if character = '"' then ['\\', '"']
  else if character = '\\' then ['\\', '\\']
  else if character = '\x08' then ['\\', 'b']
  else if character = '\x0c' then ['\\', 'f']
  else if character = '\n' then ['\\', 'n']
  else if character = '\r' then ['\\', 'r']
  else if character = '\t' then ['\\', 't']
  else if character.toNat < 0x20 then
    ['\\', 'u', '0', '0', Nat.digitChar (character.toNat / 16),
      Nat.digitChar (character.toNat % 16)]
  else [character]

/-- A text between quotes. -/
def quoted (text : String) : List Char :=
  '"' :: (text.toList.flatMap escapeCharacter ++ ['"'])

mutual

/-- The compact form of a value. -/
def Value.json : Value → List Char
  | .null => ['n', 'u', 'l', 'l']
  | .boolean true => ['t', 'r', 'u', 'e']
  | .boolean false => ['f', 'a', 'l', 's', 'e']
  | .number held => held.json
  | .text written => quoted written
  | .list [] => ['[', ']']
  | .list (item :: items) => '[' :: (Value.json item ++ Value.jsonItems items)
  | .record [] => ['{', '}']
  | .record ((key, value) :: entries) =>
      '{' :: (quoted key ++ ':' :: (Value.json value ++ Value.jsonEntries entries))

/-- The items of a list after its first one, and the bracket that closes it. -/
def Value.jsonItems : List Value → List Char
  | [] => [']']
  | item :: items => ',' :: (Value.json item ++ Value.jsonItems items)

/-- The entries of a record after its first one, and the brace that closes it. -/
def Value.jsonEntries : List (String × Value) → List Char
  | [] => ['}']
  | (key, value) :: entries =>
      ',' :: (quoted key ++ ':' :: (Value.json value ++ Value.jsonEntries entries))

end

/-- A line break and the indentation of a nesting depth, two blanks for each level. -/
def lineBreak (depth : Nat) : List Char :=
  '\n' :: List.replicate (2 * depth) ' '

mutual

/-- The indented form of a value inside containers of the given depth. -/
def Value.indented (depth : Nat) : Value → List Char
  | .list [] => ['[', ']']
  | .list (item :: items) =>
      '[' :: (lineBreak (depth + 1) ++ Value.indented (depth + 1) item ++
        Value.indentedItems depth items)
  | .record [] => ['{', '}']
  | .record ((key, value) :: entries) =>
      '{' :: (lineBreak (depth + 1) ++ quoted key ++ [':', ' '] ++
        Value.indented (depth + 1) value ++ Value.indentedEntries depth entries)
  | .null => ['n', 'u', 'l', 'l']
  | .boolean true => ['t', 'r', 'u', 'e']
  | .boolean false => ['f', 'a', 'l', 's', 'e']
  | .number held => held.json
  | .text written => quoted written

/-- The items of a list after its first one, each on its line. -/
def Value.indentedItems (depth : Nat) : List Value → List Char
  | [] => lineBreak depth ++ [']']
  | item :: items =>
      ',' :: (lineBreak (depth + 1) ++ Value.indented (depth + 1) item ++
        Value.indentedItems depth items)

/-- The entries of a record after its first one, each on its line. -/
def Value.indentedEntries (depth : Nat) : List (String × Value) → List Char
  | [] => lineBreak depth ++ ['}']
  | (key, value) :: entries =>
      ',' :: (lineBreak (depth + 1) ++ quoted key ++ [':', ' '] ++
        Value.indented (depth + 1) value ++ Value.indentedEntries depth entries)

end

/-- The compact form of a value, as a string. -/
def Value.toJson (value : Value) : String :=
  String.ofList value.json

/-- How a value reads inside other text: a text as it is, everything else in its compact form. -/
def Value.spliced : Value → String
  | .text written => written
  | value => value.toJson

end Orchestration
