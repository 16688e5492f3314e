import Orchestration.Document.Basic

/-!
# Documents in JSON

The strict grammar of JSON: no comments, no trailing commas, no text after the value, no raw control
characters in a text. Reading splits the text into tokens first and then builds the document from the
tokens. Nesting is not limited here; a use of the document limits it.
-/

namespace Orchestration.Json

/-- A token. -/
inductive Token where
  | openList
  | closeList
  | openRecord
  | closeRecord
  | comma
  | colon
  | scalar (content : Scalar)

/-- A part of a text between its quotes: a character, or a code unit of sixteen bits. -/
inductive TextPart where
  | character (character : Char)
  | unit (code : Nat)

/-- The character that a short escape stands for. -/
def escaped? : Char → Option Char
  | '"' => some '"'
  | '\\' => some '\\'
  | '/' => some '/'
  | 'b' => some '\x08'
  | 'f' => some '\x0c'
  | 'n' => some '\n'
  | 'r' => some '\r'
  | 't' => some '\t'
  | _ => none

/-- Reads the parts of a text up to its closing quote, and what follows the quote. -/
def textParts? : List Char → Option (List TextPart × List Char)
  | [] => none
  | '"' :: rest => some ([], rest)
  | '\\' :: 'u' :: a :: b :: c :: d :: rest =>
      match Text.readHexadecimal? [a, b, c, d], textParts? rest with
      | some code, some (parts, after) => some (.unit code :: parts, after)
      | _, _ => none
  | '\\' :: character :: rest =>
      match escaped? character, textParts? rest with
      | some meant, some (parts, after) => some (.character meant :: parts, after)
      | _, _ => none
  | character :: rest =>
      if character.toNat < 0x20 then none
      else (textParts? rest).map fun (parts, after) => (.character character :: parts, after)

/-- The characters of the parts of a text. The two units of a pair stand together; a unit of a pair
that stands alone is no character. -/
def characters? : List TextPart → Option (List Char)
  | [] => some []
  | .character character :: rest => (characters? rest).map (character :: ·)
  | .unit high :: rest =>
      if 0xD800 ≤ high ∧ high < 0xDC00 then
        match rest with
        | .unit low :: rest =>
            if 0xDC00 ≤ low ∧ low < 0xE000 then
              (characters? rest).map
                (Char.ofNat (0x10000 + (high - 0xD800) * 0x400 + (low - 0xDC00)) :: ·)
            else none
        | _ => none
      else if 0xDC00 ≤ high ∧ high < 0xE000 then none
      else (characters? rest).map (Char.ofNat high :: ·)

/-- True of the characters that a number is a longest run of. -/
def isNumberCharacter (character : Char) : Bool :=
  character.isDigit || ['+', '-', '.', 'e', 'E'].contains character

/-- True of a whole part: a zero, or digits that do not begin with one. -/
def isWholePart : List Char → Bool
  | [] => false
  | ['0'] => true
  | first :: rest => first != '0' && (first :: rest).all Char.isDigit

/-- Reads a number without its sign. A whole number without fraction and exponent stays whole if it fits
a word of its sign, and everything else becomes the nearest double; minus zero is a double. -/
def magnitude? (negative : Bool) (magnitude : List Char) : Option (Option Number) :=
  let whole := magnitude.takeWhile Char.isDigit
  let double (numeral : Binary64.Numeral) : Option Number :=
    let value := numeral.toFloat negative
    if Binary64.isFinite value then some (.double value) else none
  if !isWholePart whole then none
  else
    match magnitude.dropWhile Char.isDigit with
    | [] =>
        let value := Text.digitsToNat whole
        if !negative && Word.isUnsigned value then some (some (.integer value))
        else if negative && 0 < value && value ≤ Word.signedLimit then
          some (some (.integer (-(value : Int))))
        else some (double ⟨whole, [], 0⟩)
    | '.' :: rest =>
        let fraction := rest.takeWhile Char.isDigit
        if fraction.isEmpty then none
        else
          (Binary64.readExponent? (rest.dropWhile Char.isDigit)).map fun exponent =>
            double ⟨whole, fraction, exponent⟩
    | rest => (Binary64.readExponent? rest).map fun exponent => double ⟨whole, [], exponent⟩

/-- Reads a number. -/
def number? : List Char → Option (Option Number)
  | '-' :: magnitude => magnitude? true magnitude
  | magnitude => magnitude? false magnitude

/-- The token of a single sign. -/
def sign? : Char → Option Token
  | '[' => some .openList
  | ']' => some .closeList
  | '{' => some .openRecord
  | '}' => some .closeRecord
  | ',' => some .comma
  | ':' => some .colon
  | _ => none

/-- The scalar that a word stands for. -/
def word? (word : List Char) : Option Scalar :=
  if word = ['n', 'u', 'l', 'l'] then some .null
  else if word = ['t', 'r', 'u', 'e'] then some (.boolean true)
  else if word = ['f', 'a', 'l', 's', 'e'] then some (.boolean false)
  else none

/-- The blanks of JSON. -/
def isBlank (character : Char) : Bool :=
  character = ' ' || character = '\t' || character = '\n' || character = '\r'

/-- The tokens of a text. Every step takes at least one character, so the length of the text bounds
their number. -/
def tokensWithin : Nat → List Char → Option (List Token)
  | _, [] => some []
  | 0, _ :: _ => none
  | bound + 1, character :: rest =>
      if isBlank character then tokensWithin bound rest
      else if character = '"' then
        match textParts? rest with
        | some (parts, after) =>
            (tokensWithin bound after).map
              (.scalar (.text ((characters? parts).map String.ofList)) :: ·)
        | none => none
      else if character = '-' || character.isDigit then
        match number? ((character :: rest).takeWhile isNumberCharacter) with
        | some number =>
            (tokensWithin bound ((character :: rest).dropWhile isNumberCharacter)).map
              (.scalar (.number number) :: ·)
        | none => none
      else if character.isAlpha then
        match word? ((character :: rest).takeWhile Char.isAlpha) with
        | some scalar =>
            (tokensWithin bound ((character :: rest).dropWhile Char.isAlpha)).map
              (.scalar scalar :: ·)
        | none => none
      else
        match sign? character with
        | some token => (tokensWithin bound rest).map (token :: ·)
        | none => none

/-- The tokens of a text. -/
def tokens? (text : List Char) : Option (List Token) :=
  tokensWithin text.length text

mutual

/-- Reads a document from tokens. The bound counts the tokens that may still be taken. -/
def documentWithin : Nat → List Token → Option (Document × List Token)
  | 0, _ => none
  | bound + 1, tokens =>
      match tokens with
      | .scalar content :: rest => some (.scalar content, rest)
      | .openList :: .closeList :: rest => some (.sequence [], rest)
      | .openList :: rest =>
          (itemsWithin bound rest).map fun (items, rest) => (.sequence items, rest)
      | .openRecord :: .closeRecord :: rest => some (.mapping [], rest)
      | .openRecord :: rest =>
          (entriesWithin bound rest).map fun (entries, rest) => (.mapping entries, rest)
      | _ => none

/-- Reads at least one item, and the bracket that closes the list. -/
def itemsWithin : Nat → List Token → Option (List Document × List Token)
  | 0, _ => none
  | bound + 1, tokens =>
      match documentWithin bound tokens with
      | some (item, .comma :: rest) =>
          (itemsWithin bound rest).map fun (items, rest) => (item :: items, rest)
      | some (item, .closeList :: rest) => some ([item], rest)
      | _ => none

/-- Reads at least one entry, and the brace that closes the record. -/
def entriesWithin : Nat → List Token → Option (List (Option String × Document) × List Token)
  | 0, _ => none
  | bound + 1, tokens =>
      match tokens with
      | .scalar (.text key) :: .colon :: rest =>
          match documentWithin bound rest with
          | some (document, .comma :: rest) =>
              (entriesWithin bound rest).map fun (entries, rest) =>
                ((key, document) :: entries, rest)
          | some (document, .closeRecord :: rest) => some ([(key, document)], rest)
          | _ => none
      | _ => none

end

/-- The document that a text spells, if it is JSON. -/
def read? (text : List Char) : Option Document :=
  match tokens? text with
  | some tokens =>
      match documentWithin (tokens.length + 1) tokens with
      | some (document, []) => some document
      | _ => none
  | none => none

/-- The value that a text spells, if it is JSON within the limits of nesting and of numbers. -/
def value? (text : List Char) : Option Value :=
  (read? text).bind fun document =>
    if document.depth ≤ Document.maximumDepth then document.value? else none

end Orchestration.Json
