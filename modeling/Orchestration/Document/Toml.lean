import Orchestration.Binary64.Written
import Orchestration.Text.Integer
import Orchestration.Timestamp.Basic

/-!
# Tables in TOML

The text of a settings file: tables of keys and values, and tables within tables. Reading goes in two
steps. The text is first cut into statements, which are headers and assignments, and the statements are
then carried out one after another on the table that they build up. It is the second step that knows
which tables may still be added to: a table under a header of its own is complete with the header, and a
table between braces is complete with its last brace.
-/

namespace Orchestration

/-- How a table came to be. -/
inductive TableOrigin where
  /-- It has a header of its own, or is the whole text. -/
  | header
  /-- It lies on the way to the header of another one. -/
  | implied
  /-- It lies on the way to the last part of a dotted key. -/
  | dotted
  /-- It stands between braces. -/
  | inline
  deriving DecidableEq, Repr

/-- A value in a table. -/
inductive TableValue where
  | text (value : String)
  | integer (value : Int)
  | double (value : Float)
  | boolean (value : Bool)
  /-- A date, a time of day or both; nobody asks which. -/
  | moment
  | list (items : List TableValue)
  | table (origin : TableOrigin) (entries : List (String × TableValue))
  /-- Tables under repeated headers with one path. -/
  | tables (elements : List (List (String × TableValue)))

/-- The entries of a table. -/
abbrev Table := List (String × TableValue)

/-- A statement of a text. -/
inductive TableStatement where
  /-- The header of a table. -/
  | header (path : List String)
  /-- The header of one more table under a path. -/
  | element (path : List String)
  | assignment (path : List String) (value : TableValue)

namespace Table

/-- The value under a key. -/
def find? (key : String) (table : Table) : Option TableValue :=
  (List.find? (fun entry : String × TableValue => entry.1 = key) table).map Prod.snd

/-- Puts a value under a key, at its place if it is present and at the end if not. -/
def put (key : String) (value : TableValue) : Table → Table
  | [] => [(key, value)]
  | (present, old) :: rest =>
      if present = key then (present, value) :: rest else (present, old) :: put key value rest

/-- Changes the last of a list of tables. -/
def changeLast (change : Table → Option Table) : List Table → Option (List Table)
  | [] => none
  | [last] => (change last).map ([·])
  | first :: rest => (changeLast change rest).map (first :: ·)

/-- Changes the table at a path, with the tables on the way to it made where they are missing. A dotted
path does not lead through tables that have a header, and no path leads through a value. -/
def changeAt (dotted : Bool) (change : TableOrigin → Table → Option Table) :
    List String → TableOrigin → Table → Option Table
  | [], origin, table => change origin table
  | key :: path, _, table =>
      let made := if dotted then TableOrigin.dotted else .implied
      let inner? :=
        match find? key table with
        | none => (changeAt dotted change path made []).map (TableValue.table made)
        | some (.table origin inner) =>
            if origin = TableOrigin.inline || (dotted && origin = TableOrigin.header) then none
            else (changeAt dotted change path origin inner).map (.table origin)
        | some (.tables elements) =>
            (changeLast (changeAt dotted change path .header) elements).map .tables
        | some _ => none
      inner?.map fun inner => put key inner table

/-- Adds an assignment to a table. A key is assigned once, and the last table on the way of a dotted key
is one that dotted keys made. -/
def assign (path : List String) (value : TableValue) (origin : TableOrigin) (table : Table) :
    Option Table :=
  changeAt true (fun last inner =>
    match path.getLast? with
    | none => none
    | some key =>
        if (last = .dotted) = (path.length = 1) || (inner.find? key).isSome then none
        else some (inner.put key value)) path.dropLast origin table

/-- Makes a table for a header. There may be one that lies on the way to other headers, and no other. -/
def open? (path : List String) (root : Table) : Option Table :=
  changeAt false (fun _ parent =>
    match path.getLast? with
    | none => none
    | some key =>
        match parent.find? key with
        | none => some (parent.put key (.table .header []))
        | some (.table .implied inner) => some (parent.put key (.table .header inner))
        | some _ => none) path.dropLast .header root

/-- Adds a table to those under a path. -/
def openElement? (path : List String) (root : Table) : Option Table :=
  changeAt false (fun _ parent =>
    match path.getLast? with
    | none => none
    | some key =>
        match parent.find? key with
        | none => some (parent.put key (.tables [[]]))
        | some (.tables elements) => some (parent.put key (.tables (elements ++ [[]])))
        | some _ => none) path.dropLast .header root

/-- Carries out statements on a table, with assignments going to the table at a path. -/
def perform (path : List String) (root : Table) : List TableStatement → Option Table
  | [] => some root
  | .header next :: rest => (open? next root).bind fun root => perform next root rest
  | .element next :: rest => (openElement? next root).bind fun root => perform next root rest
  | .assignment key value :: rest =>
      (changeAt false (assign key value) path .header root).bind fun root => perform path root rest

/-- The table of assignments between braces. -/
def ofAssignments (table : Table) : List (List String × TableValue) → Option Table
  | [] => some table
  | (path, value) :: rest =>
      (assign path value .inline table).bind fun table => ofAssignments table rest

end Table

namespace Toml

/-- True of the blanks within a line. -/
def isSpace (character : Char) : Bool := character = ' ' || character = '\t'

/-- The text behind the blanks of a line. -/
def skipSpaces (text : List Char) : List Char := text.dropWhile isSpace

/-- True of the characters that a line may have beside blanks. -/
def isPrintable (character : Char) : Bool :=
  0x20 ≤ character.toNat && character.toNat != 0x7F

/-- True of the characters of a comment. -/
def isCommentCharacter (character : Char) : Bool := isPrintable character || character = '\t'

/-- The text behind the end of a line. -/
def lineEnd? : List Char → Option (List Char)
  | '\n' :: rest => some rest
  | '\r' :: '\n' :: rest => some rest
  | _ => none

/-- The text behind a comment, if one stands here. -/
def skipComment (text : List Char) : List Char :=
  match text with
  | '#' :: rest => rest.dropWhile isCommentCharacter
  | _ => text

/-- The text behind the blanks, the comment and the end of a line. -/
def finishLine? (text : List Char) : Option (List Char) :=
  match skipComment (skipSpaces text) with
  | [] => some []
  | rest => lineEnd? rest

/-- The text behind blanks, comments and line ends. -/
def skipLines : Nat → List Char → List Char
  | 0, text => text
  | bound + 1, text =>
      let rest := skipComment (skipSpaces text)
      match lineEnd? rest with
      | some rest => skipLines bound rest
      | none => rest

/-! ## Texts -/

/-- The character of a short escape. -/
def escaped? : Char → Option Char
  | '"' => some '"'
  | '\\' => some '\\'
  | 'b' => some '\x08'
  | 'f' => some '\x0c'
  | 'n' => some '\n'
  | 'r' => some '\r'
  | 't' => some '\t'
  | _ => none

/-- Reads the character of an escape, from behind the backslash. -/
def readEscape? : List Char → Option (Char × List Char)
  | 'u' :: rest =>
      if rest.length < 4 then none
      else (Text.readCodePoint? (rest.take 4)).map fun character => (character, rest.drop 4)
  | 'U' :: rest =>
      if rest.length < 8 then none
      else (Text.readCodePoint? (rest.take 8)).map fun character => (character, rest.drop 8)
  | letter :: rest => (escaped? letter).map fun character => (character, rest)
  | [] => none

/-- Puts a character in front of what was read. -/
def withFirst (character : Char) (read : Option (List Char × List Char)) :
    Option (List Char × List Char) :=
  read.map fun (characters, rest) => (character :: characters, rest)

/-- Reads a text in double quotes, from behind the first one. -/
def readQuoted? : Nat → List Char → Option (List Char × List Char)
  | 0, _ => none
  | _ + 1, [] => none
  | bound + 1, character :: rest =>
      if character = '"' then some ([], rest)
      else if character = '\\' then
        (readEscape? rest).bind fun (character, rest) =>
          withFirst character (readQuoted? bound rest)
      else if isCommentCharacter character then withFirst character (readQuoted? bound rest)
      else none

/-- Reads a text in single quotes, from behind the first one. -/
def readLiteral? (text : List Char) : Option (List Char × List Char) :=
  let content := text.takeWhile fun character => isCommentCharacter character && character != '\''
  match text.drop content.length with
  | '\'' :: rest => some (content, rest)
  | _ => none

/-- The text behind an escaped line end and the blanks and line ends that follow it. -/
def skipEscapedLineEnd? (text : List Char) : Option (List Char) :=
  (lineEnd? (skipSpaces text)).map fun rest =>
    rest.dropWhile fun character => isSpace character || character = '\n' || character = '\r'

/-- Reads a text of several lines up to three quotes, two more of which may belong to it. Escapes count
in double quotes only. -/
def readLines? (quote : Char) : Nat → List Char → Option (List Char × List Char)
  | 0, _ => none
  | _ + 1, [] => none
  | bound + 1, character :: rest =>
      if character = quote then
        let count := ((character :: rest).takeWhile (· = quote)).length
        let read := min count 5
        if count < 3 then withFirst character (readLines? quote bound rest)
        else some (List.replicate (read - 3) quote, (character :: rest).drop read)
      else if character = '\\' && quote = '"' then
        match readEscape? rest with
        | some (character, rest) => withFirst character (readLines? quote bound rest)
        | none => (skipEscapedLineEnd? rest).bind (readLines? quote bound)
      else
        match lineEnd? (character :: rest) with
        | some rest => withFirst '\n' (readLines? quote bound rest)
        | none =>
            if isCommentCharacter character then withFirst character (readLines? quote bound rest)
            else none

/-- The text behind the line end that may follow three quotes. -/
def skipFirstLineEnd (text : List Char) : List Char :=
  (lineEnd? text).getD text

/-- Reads a text, if one stands here. -/
def readText? (text : List Char) : Option (List Char × List Char) :=
  match text with
  | '"' :: '"' :: '"' :: rest => readLines? '"' text.length (skipFirstLineEnd rest)
  | '"' :: rest => readQuoted? text.length rest
  | '\'' :: '\'' :: '\'' :: rest => readLines? '\'' text.length (skipFirstLineEnd rest)
  | '\'' :: rest => readLiteral? rest
  | _ => none

/-! ## Keys -/

/-- True of the characters of a key without quotes. -/
def isKeyCharacter (character : Char) : Bool :=
  character.isAlphanum || character = '_' || character = '-'

/-- Reads one part of a key. -/
def readKeyPart? (text : List Char) : Option (String × List Char) :=
  match text with
  | '"' :: rest => (readQuoted? text.length rest).map fun (key, rest) => (String.ofList key, rest)
  | '\'' :: rest => (readLiteral? rest).map fun (key, rest) => (String.ofList key, rest)
  | _ =>
      let key := text.takeWhile isKeyCharacter
      if key.isEmpty then none else some (String.ofList key, text.drop key.length)

/-- Reads a key: parts with dots between them. -/
def readKey? : Nat → List Char → Option (List String × List Char)
  | 0, _ => none
  | bound + 1, text =>
      (readKeyPart? (skipSpaces text)).bind fun (part, rest) =>
        match skipSpaces rest with
        | '.' :: rest => (readKey? bound rest).map fun (parts, rest) => (part :: parts, rest)
        | rest => some ([part], rest)

/-! ## Numbers and moments -/

/-- Reads digits, with single underscores between them, and drops the underscores. -/
def readDigits? (isDigit : Char → Bool) : List Char → Option (List Char × List Char)
  | [] => none
  | digit :: rest =>
      if isDigit digit then
        match rest with
        | '_' :: next :: after =>
            if isDigit next then withFirst digit (readDigits? isDigit (next :: after)) else none
        | next :: after =>
            if isDigit next then withFirst digit (readDigits? isDigit (next :: after))
            else some ([digit], next :: after)
        | [] => some ([digit], [])
      else none

/-- Takes a sign from the beginning of a text. -/
def takeSign : List Char → List Char × List Char
  | '+' :: rest => ([], rest)
  | '-' :: rest => (['-'], rest)
  | text => ([], text)

/-- Reads a whole number without a sign that does not begin with a zero. -/
def readWhole? (text : List Char) : Option (List Char × List Char) :=
  match text with
  | '0' :: rest => some (['0'], rest)
  | _ => readDigits? Char.isDigit text

/-- The integer of a value that fits a signed word. -/
def integer? (value : Int) : Option TableValue :=
  if Word.isSigned value then some (.integer value) else none

/-- Reads an integer to a base, from behind the mark of the base. -/
def readBased? (base : Nat) (text : List Char) : Option (TableValue × List Char) :=
  (readDigits? (fun digit => ((Text.hexadecimalValue? digit).filter (· < base)).isSome) text).bind
    fun (digits, rest) => ((Text.readBase? base digits).bind fun value => integer? value).map (·, rest)

/-- Reads an integer. -/
def readInteger? (text : List Char) : Option (TableValue × List Char) :=
  match text with
  | '0' :: 'x' :: rest => readBased? 16 rest
  | '0' :: 'o' :: rest => readBased? 8 rest
  | '0' :: 'b' :: rest => readBased? 2 rest
  | _ =>
      let (sign, rest) := takeSign text
      (readWhole? rest).bind fun (digits, rest) =>
        let value : Int := Text.digitsToNat digits
        (integer? (if sign.isEmpty then value else -value)).map (·, rest)

/-- Reads an exponent, if one stands here. -/
def readExponent? : List Char → Option (List Char × List Char)
  | 'e' :: rest => exponent rest
  | 'E' :: rest => exponent rest
  | _ => none
where
  exponent (text : List Char) : Option (List Char × List Char) :=
    let (sign, rest) := takeSign text
    (readDigits? Char.isDigit rest).map fun (digits, rest) => ('e' :: sign ++ digits, rest)

/-- Reads a double, which has a fraction or an exponent or is one of the special values. -/
def readDouble? (text : List Char) : Option (TableValue × List Char) :=
  let (sign, rest) := takeSign text
  match rest with
  | 'i' :: 'n' :: 'f' :: rest =>
      some (.double (if sign.isEmpty then 1.0 / 0.0 else -(1.0 / 0.0)), rest)
  | 'n' :: 'a' :: 'n' :: rest => some (.double (0.0 / 0.0), rest)
  | _ =>
      (readWhole? rest).bind fun (whole, rest) =>
        let fraction : Option (List Char × List Char) :=
          match rest with
          | '.' :: rest => withFirst '.' (readDigits? Char.isDigit rest)
          | _ => readExponent? rest
        fraction.bind fun (fraction, rest) =>
          let (exponent, rest) :=
            if fraction.head? = some '.' then (readExponent? rest).getD ([], rest) else ([], rest)
          ((Binary64.read? (sign ++ whole ++ fraction ++ exponent)).filter Binary64.isFinite).map
            fun value => (.double value, rest)

/-- Reads a number of so many digits that lies between two bounds. -/
def readBounded? (width least most : Nat) (text : List Char) : Option (Nat × List Char) :=
  let digits := text.take width
  if digits.length = width && digits.all Char.isDigit then
    let value := Text.digitsToNat digits
    if least ≤ value ∧ value ≤ most then some (value, text.drop width) else none
  else none

/-- The text behind a character that has to stand here. -/
def expect? (character : Char) : List Char → Option (List Char)
  | [] => none
  | present :: rest => if present = character then some rest else none

/-- The text behind a date. -/
def skipDate? (text : List Char) : Option (List Char) := do
  let (year, rest) ← readBounded? 4 0 9999 text
  let (month, rest) ← readBounded? 2 1 12 (← expect? '-' rest)
  let (_, rest) ← readBounded? 2 1 (Timestamp.daysInMonth year month) (← expect? '-' rest)
  some rest

/-- The text behind a time of day. -/
def skipTime? (text : List Char) : Option (List Char) := do
  let (_, rest) ← readBounded? 2 0 23 text
  let (_, rest) ← readBounded? 2 0 59 (← expect? ':' rest)
  let (_, rest) ← readBounded? 2 0 60 (← expect? ':' rest)
  match rest with
  | '.' :: fraction =>
      if (fraction.takeWhile Char.isDigit).isEmpty then none
      else some (fraction.dropWhile Char.isDigit)
  | _ => some rest

/-- The text behind a distance from universal time. -/
def skipOffset? : List Char → Option (List Char)
  | 'Z' :: rest => some rest
  | 'z' :: rest => some rest
  | '+' :: rest => distance rest
  | '-' :: rest => distance rest
  | _ => none
where
  distance (text : List Char) : Option (List Char) := do
    let (_, rest) ← readBounded? 2 0 23 text
    let (_, rest) ← readBounded? 2 0 59 (← expect? ':' rest)
    some rest

/-- Reads a moment: a date, with a time behind it if wanted, or a time of day alone. -/
def readMoment? (text : List Char) : Option (TableValue × List Char) :=
  match skipDate? text with
  | none => (skipTime? text).map (.moment, ·)
  | some rest =>
      let time? :=
        match rest with
        | 'T' :: rest => skipTime? rest
        | 't' :: rest => skipTime? rest
        | ' ' :: rest => skipTime? rest
        | _ => none
      match time? with
      | none => some (.moment, rest)
      | some rest => some (.moment, (skipOffset? rest).getD rest)

/-! ## Values -/

/-- Reads a value without parts. -/
def readScalar? (text : List Char) : Option (TableValue × List Char) :=
  match text with
  | [] => none
  | 't' :: 'r' :: 'u' :: 'e' :: rest => some (.boolean true, rest)
  | 'f' :: 'a' :: 'l' :: 's' :: 'e' :: rest => some (.boolean false, rest)
  | first :: _ =>
      if first = '"' || first = '\'' then
        (readText? text).map fun (content, rest) => (.text (String.ofList content), rest)
      else (readMoment? text).or ((readDouble? text).or (readInteger? text))

mutual

/-- Reads a value. -/
def readValue? : Nat → List Char → Option (TableValue × List Char)
  | 0, _ => none
  | bound + 1, text =>
      match text with
      | '[' :: rest =>
          (readItems? bound (skipLines text.length rest)).map fun (items, rest) =>
            (.list items, rest)
      | '\x7b' :: rest => do
          let (assignments, rest) ←
            match skipSpaces rest with
            | '\x7d' :: rest => some ([], rest)
            | rest => readAssignments? bound rest
          let table ← Table.ofAssignments [] assignments
          some (.table .inline table, rest)
      | _ => readScalar? text

/-- Reads the items of a list and its closing bracket. A comma may follow the last item. -/
def readItems? : Nat → List Char → Option (List TableValue × List Char)
  | 0, _ => none
  | bound + 1, text =>
      match text with
      | ']' :: rest => some ([], rest)
      | _ => do
          let (item, rest) ← readValue? bound text
          match skipLines text.length rest with
          | ',' :: rest =>
              let (items, rest) ← readItems? bound (skipLines text.length rest)
              some (item :: items, rest)
          | ']' :: rest => some ([item], rest)
          | _ => none

/-- Reads the assignments between braces and the closing one. No comma follows the last of them. -/
def readAssignments? : Nat → List Char → Option (List (List String × TableValue) × List Char)
  | 0, _ => none
  | bound + 1, text => do
      let (key, rest) ← readKey? text.length text
      let (value, rest) ← readValue? bound (skipSpaces (← expect? '=' rest))
      match skipSpaces rest with
      | ',' :: rest =>
          let (assignments, rest) ← readAssignments? bound rest
          some ((key, value) :: assignments, rest)
      | '\x7d' :: rest => some ([(key, value)], rest)
      | _ => none

end

/-! ## Statements -/

/-- Reads a statement without the end of its line. -/
def readStatement? (text : List Char) : Option (TableStatement × List Char) :=
  match text with
  | '[' :: '[' :: rest => do
      let (path, rest) ← readKey? text.length rest
      some (.element path, ← expect? ']' (← expect? ']' rest))
  | '[' :: rest => do
      let (path, rest) ← readKey? text.length rest
      some (.header path, ← expect? ']' rest)
  | _ => do
      let (key, rest) ← readKey? text.length text
      let (value, rest) ← readValue? (text.length + 1) (skipSpaces (← expect? '=' rest))
      some (.assignment key value, rest)

/-- Reads every statement of a text. -/
def readStatements? : Nat → List Char → Option (List TableStatement)
  | 0, _ => none
  | bound + 1, text =>
      match skipLines text.length text with
      | [] => some []
      | text => do
          let (statement, rest) ← readStatement? text
          (← readStatements? bound (← finishLine? rest)) |> (statement :: ·) |> some

/-- Reads a text, with a byte order mark in front if there is one. -/
def read? (text : List Char) : Option Table :=
  let text :=
    match text with
    | '\uFEFF' :: rest => rest
    | _ => text
  (readStatements? (text.length + 1) text).bind (Table.perform [] [])

end Toml

end Orchestration
