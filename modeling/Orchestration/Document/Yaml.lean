import Orchestration.Document.Json
import Orchestration.Text.Separated

/-!
# Documents in YAML

A part of YAML: mappings and sequences by indentation and in brackets, scalars without quotes and in
both kinds of quotes, comments, and one document with its optional marks. Anchors, tags, block scalars,
directives and keys that are no scalars are not part of it.

Reading moves a cursor through the text. The cursor knows its line and column, because a collection
without brackets is held together by the column of its first character.
-/

namespace Orchestration.Yaml

/-- A place in a text: what follows it, and its line and column. -/
structure Cursor where
  rest : List Char
  line : Nat
  column : Nat

/-- The cursor behind one more character. -/
def Cursor.pass (cursor : Cursor) (character : Char) : Cursor :=
  if character = '\n' then ⟨cursor.rest.tail, cursor.line + 1, 0⟩
  else ⟨cursor.rest.tail, cursor.line, cursor.column + 1⟩

/-- The cursor behind the characters that it stands in front of. -/
def Cursor.advance (cursor : Cursor) (passed : List Char) : Cursor :=
  passed.foldl Cursor.pass cursor

/-- A blank within a line. -/
def isBlank (character : Char) : Bool :=
  character = ' ' || character = '\t'

/-- A blank or the end of a line. -/
def isSpace (character : Char) : Bool :=
  isBlank character || character = '\n'

/-- True where a blank, the end of a line or the end of the text follows. -/
def endsWord (text : List Char) : Bool :=
  match text with
  | [] => true
  | character :: _ => isSpace character

/-- The brackets and the comma, which end a plain scalar inside brackets. -/
def isFlowSign (character : Char) : Bool :=
  [',', '[', ']', '{', '}'].contains character

/-- True at a mark that begins or ends a document. -/
def Cursor.atMark (cursor : Cursor) : Bool :=
  cursor.column = 0 &&
    match cursor.rest with
    | '-' :: '-' :: '-' :: rest => endsWord rest
    | '.' :: '.' :: '.' :: rest => endsWord rest
    | _ => false

/-- Passes over blanks, comments and ends of lines. Outside of brackets a tab may not stand at the
beginning of a line, nor where `tabs` forbids it. -/
def skipWithin (flow : Bool) : Nat → Bool → Cursor → Cursor
  | 0, _, cursor => cursor
  | bound + 1, tabs, cursor =>
      match cursor.rest with
      | ' ' :: _ => skipWithin flow bound tabs (cursor.pass ' ')
      | '\t' :: _ => if tabs then skipWithin flow bound tabs (cursor.pass '\t') else cursor
      | '\n' :: _ => skipWithin flow bound flow (cursor.pass '\n')
      | '#' :: rest =>
          skipWithin flow bound tabs
            (cursor.advance ('#' :: rest.takeWhile fun character => character != '\n'))
      | _ => cursor

/-- Passes over blanks, comments and ends of lines. -/
def Cursor.skip (flow tabs : Bool) (cursor : Cursor) : Cursor :=
  skipWithin flow (cursor.rest.length + 1) tabs cursor

/-- What a run of spaces inside a scalar stands for: itself within a line, one blank for one end of a
line, and one line break less than there are ends of lines for more. -/
def folded (run : List Char) : List Char :=
  match run.count '\n' with
  | 0 => run
  | 1 => [' ']
  | breaks + 2 => List.replicate (breaks + 1) '\n'

/-- Reads a text in single quotes, from behind the first one. A mark of a document may not stand in
it. -/
def singleQuotedWithin : Nat → Cursor → Option (List Char × Cursor)
  | 0, _ => none
  | bound + 1, cursor =>
      match cursor.rest with
      | [] => none
      | '\'' :: '\'' :: _ =>
          (singleQuotedWithin bound (cursor.advance ['\'', '\''])).map fun (text, after) =>
            ('\'' :: text, after)
      | '\'' :: _ => some ([], cursor.pass '\'')
      | character :: rest =>
          if cursor.atMark then none
          else if isSpace character then
            let run := (character :: rest).takeWhile isSpace
            (singleQuotedWithin bound (cursor.advance run)).map fun (text, after) =>
              (folded run ++ text, after)
          else
            (singleQuotedWithin bound (cursor.pass character)).map fun (text, after) =>
              (character :: text, after)

/-- The character that a short escape stands for. -/
def escaped? : Char → Option Char
  | '0' => some '\x00'
  | 'a' => some '\x07'
  | 'b' => some '\x08'
  | 't' => some '\t'
  | '\t' => some '\t'
  | 'n' => some '\n'
  | 'v' => some '\x0b'
  | 'f' => some '\x0c'
  | 'r' => some '\r'
  | 'e' => some '\x1b'
  | ' ' => some ' '
  | '"' => some '"'
  | '/' => some '/'
  | '\\' => some '\\'
  | 'N' => some '\x85'
  | '_' => some '\xa0'
  | 'L' => some '\u2028'
  | 'P' => some '\u2029'
  | _ => none

/-- The count of hexadecimal digits behind the letter of an escape. -/
def escapeWidth? : Char → Option Nat
  | 'x' => some 2
  | 'u' => some 4
  | 'U' => some 8
  | _ => none

/-- Reads a text in double quotes, from behind the first one. A mark of a document may not stand in it,
and the end of a line with a backslash before it is left out. -/
def doubleQuotedWithin : Nat → Cursor → Option (List Char × Cursor)
  | 0, _ => none
  | bound + 1, cursor =>
      match cursor.rest with
      | [] => none
      | '"' :: _ => some ([], cursor.pass '"')
      | '\\' :: '\n' :: rest =>
          let run := rest.takeWhile isSpace
          (doubleQuotedWithin bound (cursor.advance ('\\' :: '\n' :: run))).map
            fun (text, after) => (List.replicate (run.count '\n') '\n' ++ text, after)
      | '\\' :: letter :: rest =>
          match escapeWidth? letter with
          | some width =>
              let digits := rest.take width
              match Text.readCodePoint? digits, decide (digits.length = width) with
              | some character, true =>
                  (doubleQuotedWithin bound (cursor.advance ('\\' :: letter :: digits))).map
                    fun (text, after) => (character :: text, after)
              | _, _ => none
          | none =>
              match escaped? letter with
              | some character =>
                  (doubleQuotedWithin bound (cursor.advance ['\\', letter])).map
                    fun (text, after) => (character :: text, after)
              | none => none
      | character :: rest =>
          if cursor.atMark then none
          else if isSpace character then
            let run := (character :: rest).takeWhile isSpace
            (doubleQuotedWithin bound (cursor.advance run)).map fun (text, after) =>
              (folded run ++ text, after)
          else
            (doubleQuotedWithin bound (cursor.pass character)).map fun (text, after) =>
              (character :: text, after)

/-- Reads a text in quotes. -/
def quoted? (cursor : Cursor) : Option (String × Cursor) :=
  match cursor.rest with
  | '\'' :: rest =>
      (singleQuotedWithin (rest.length + 1) (cursor.pass '\'')).map fun (text, after) =>
        (String.ofList text, after)
  | '"' :: rest =>
      (doubleQuotedWithin (rest.length + 1) (cursor.pass '"')).map fun (text, after) =>
        (String.ofList text, after)
  | _ => none

/-- True where a plain scalar may begin. -/
def startsPlain (flow : Bool) : List Char → Bool
  | [] => false
  | '-' :: rest => !endsWord rest
  | '?' :: rest => !flow && !endsWord rest
  | ':' :: rest => !flow && !endsWord rest
  | character :: _ =>
      !isSpace character &&
        !([',', '[', ']', '{', '}', '#', '&', '*', '!', '|', '>', '\'', '"', '%', '@',
          '\x60'].contains character)

/-- The characters of a plain scalar up to the end of its line: up to a colon that ends a word, a
comment, or a sign of the brackets around it. -/
def plainLine (flow : Bool) : Bool → List Char → List Char
  | _, [] => []
  | afterBlank, character :: rest =>
      if character = '\n' then []
      else if character = ':' && endsWord rest then []
      else if character = '#' && afterBlank then []
      else if flow && isFlowSign character then []
      else if flow && character = ':' && (rest.take 1).any isFlowSign then []
      else character :: plainLine flow (isBlank character) rest

/-- A text without the blanks at its end. -/
def withoutEnd (text : List Char) : List Char :=
  (text.reverse.dropWhile isBlank).reverse

/-- Reads the first line of a plain scalar. -/
def plainStart (flow : Bool) (cursor : Cursor) : List Char × Cursor :=
  let text := withoutEnd (plainLine flow false cursor.rest)
  (text, cursor.advance text)

/-- True if a line that a run of spaces leads to has a tab in a column where its indentation is not
complete yet. -/
def hasEarlyTab (indentation : Int) (run : List Char) : Bool :=
  (Text.splitOn '\n' run).tail.any fun line =>
    line.contains '\t' && (line.idxOf '\t' : Int) ≤ indentation

/-- Reads on in a plain scalar, over the lines that continue it: outside of brackets those that are
indented more than the collection around it, and not by a tab. -/
def plainRest (flow : Bool) (indentation : Int) : Nat → List Char → Cursor → List Char × Cursor
  | 0, text, cursor => (text, cursor)
  | bound + 1, text, cursor =>
      let run := cursor.rest.takeWhile isSpace
      let next := cursor.advance run
      let more := withoutEnd (plainLine flow true next.rest)
      if !run.contains '\n' || more.isEmpty || next.atMark ||
          (!flow && ((next.column : Int) ≤ indentation || hasEarlyTab indentation run)) then
        (text, cursor)
      else plainRest flow indentation bound (text ++ folded run ++ more) (next.advance more)

/-- True in front of a colon that ends a key. -/
def Cursor.atColon (cursor : Cursor) : Bool :=
  match cursor.rest with
  | ':' :: rest => endsWord rest
  | _ => false

/-- The cursor behind the blanks of a line. -/
def Cursor.skipBlanks (cursor : Cursor) : Cursor :=
  cursor.advance (cursor.rest.takeWhile isBlank)

/-- True where nothing more than a comment follows on the line. -/
def Cursor.endsLine (cursor : Cursor) : Bool :=
  match cursor.skipBlanks.rest with
  | [] => true
  | character :: _ => character = '\n' || character = '#'

/-- A scalar without any text. -/
def absent : Document := .scalar (.plain "")

mutual

/-- Reads a node inside brackets, from its first character. -/
def flowNode : Nat → Cursor → Option (Document × Cursor)
  | 0, _ => none
  | bound + 1, cursor =>
      match cursor.rest with
      | '[' :: _ =>
          (flowItems bound (cursor.pass '[')).map fun (items, after) => (.sequence items, after)
      | '{' :: _ =>
          (flowEntries bound (cursor.pass '{')).map fun (entries, after) => (.mapping entries, after)
      | _ =>
          match quoted? cursor with
          | some (text, after) => some (.scalar (.text (some text)), after)
          | none =>
              if startsPlain true cursor.rest then
                let (line, after) := plainStart true cursor
                let (text, after) := plainRest true 0 cursor.rest.length line after
                match after.rest with
                | ':' :: rest =>
                    if endsWord rest then some (.scalar (.plain (String.ofList text)), after)
                    else none
                | _ => some (.scalar (.plain (String.ofList text)), after)
              else none

/-- Reads the items of a sequence in brackets, and the bracket that closes it. -/
def flowItems : Nat → Cursor → Option (List Document × Cursor)
  | 0, _ => none
  | bound + 1, cursor =>
      let cursor := cursor.skip true true
      match cursor.rest with
      | ']' :: _ => some ([], cursor.pass ']')
      | _ =>
          match flowNode bound cursor with
          | none => none
          | some (node, after) =>
              match flowPair bound node (after.skip true true) with
              | none => none
              | some (item, after) =>
                  match after.rest with
                  | ',' :: _ =>
                      (flowItems bound (after.pass ',')).map fun (items, after) =>
                        (item :: items, after)
                  | ']' :: _ => some ([item], after.pass ']')
                  | _ => none

/-- Reads the rest of an item of a sequence in brackets: an item with a colon behind it is a mapping
with one entry. -/
def flowPair : Nat → Document → Cursor → Option (Document × Cursor)
  | 0, _, _ => none
  | bound + 1, node, cursor =>
      match cursor.rest, node with
      | ':' :: _, .scalar key =>
          (flowValue bound (cursor.pass ':')).map fun (value, after) =>
            (.mapping [(key.text?, value)], after)
      | ':' :: _, _ => none
      | _, _ => some (node, cursor)

/-- Reads the value of an entry in brackets, from behind its colon up to the sign that ends it. -/
def flowValue : Nat → Cursor → Option (Document × Cursor)
  | 0, _ => none
  | bound + 1, cursor =>
      let cursor := cursor.skip true true
      match cursor.rest with
      | ',' :: _ => some (absent, cursor)
      | ']' :: _ => some (absent, cursor)
      | '}' :: _ => some (absent, cursor)
      | _ => (flowNode bound cursor).map fun (value, after) => (value, after.skip true true)

/-- Reads the entries of a mapping in brackets, and the bracket that closes it. An entry without a
colon has an empty value. -/
def flowEntries : Nat → Cursor → Option (List (Option String × Document) × Cursor)
  | 0, _ => none
  | bound + 1, cursor =>
      let cursor := cursor.skip true true
      match cursor.rest with
      | '}' :: _ => some ([], cursor.pass '}')
      | _ =>
          match flowNode bound cursor with
          | some (.scalar key, after) =>
              let after := after.skip true true
              let value? :=
                match after.rest with
                | ':' :: _ => flowValue bound (after.pass ':')
                | _ => some (absent, after)
              match value? with
              | none => none
              | some (value, after) =>
                  match after.rest with
                  | ',' :: _ =>
                      (flowEntries bound (after.pass ',')).map fun (entries, after) =>
                        ((key.text?, value) :: entries, after)
                  | '}' :: _ => some ([(key.text?, value)], after.pass '}')
                  | _ => none
          | _ => none

end

/-- A node with no colon behind it yet, read from its first character: a node in brackets, a text in
quotes, or the first line of a plain scalar. -/
def blockStart? (cursor : Cursor) : Option (Document × Cursor) :=
  match cursor.rest with
  | '[' :: rest => flowNode (4 * rest.length + 8) cursor
  | '{' :: rest => flowNode (4 * rest.length + 8) cursor
  | _ =>
      match quoted? cursor with
      | some (text, after) => some (.scalar (.text (some text)), after)
      | none =>
          if startsPlain false cursor.rest then
            let (text, after) := plainStart false cursor
            some (.scalar (.plain (String.ofList text)), after)
          else none

/-- True in front of a dash that begins an item. -/
def Cursor.atDash (cursor : Cursor) : Bool :=
  match cursor.rest with
  | '-' :: rest => endsWord rest
  | _ => false

/-- True at the end of a text and at the marks of a document. -/
def Cursor.isDone (cursor : Cursor) : Bool :=
  cursor.rest.isEmpty || cursor.atMark

mutual

/-- Reads a node outside of brackets, from behind the sign that announces it. The node is empty unless
it stands on the same line or is indented more than the collection around it; the items of a sequence
that is the value of an entry may also stand in the column of the entry. Whether a collection may begin
on the same line depends on the sign. -/
def blockNode (indentation : Int) (collections : Bool) (dashes : Bool) :
    Nat → Cursor → Option (Document × Cursor)
  | 0, _ => none
  | bound + 1, start =>
      let cursor := start.skip false !collections
      let sameLine := cursor.line = start.line
      let column : Int := cursor.column
      let inside := sameLine || indentation < column ||
        (dashes && column = indentation && cursor.atDash)
      if cursor.isDone || !inside then some (absent, cursor)
      else if cursor.atDash then
        if sameLine && !collections then none
        else
          (blockItems cursor.column bound cursor).map fun (items, after) =>
            (.sequence items, after)
      else
        match blockStart? cursor with
        | none => none
        | some (node, after) =>
            if after.skipBlanks.atColon && after.line = cursor.line then
              if sameLine && !collections then none
              else
                (blockEntries cursor.column bound cursor).map fun (entries, after) =>
                  (.mapping entries, after)
            else
              match node with
              | .scalar (.plain line) =>
                  let (text, after) :=
                    plainRest false indentation after.rest.length line.toList after
                  if after.endsLine then
                    some (.scalar (.plain (String.ofList text)), after.skipBlanks)
                  else none
              | _ => if after.endsLine then some (node, after.skipBlanks) else none

/-- Reads the items of a sequence whose dashes stand in a column, from the first dash. -/
def blockItems (column : Nat) : Nat → Cursor → Option (List Document × Cursor)
  | 0, _ => none
  | bound + 1, cursor =>
      match blockNode column true false bound (cursor.pass '-') with
      | none => none
      | some (item, after) =>
          let next := after.skip false false
          if next.isDone || next.column < column then some ([item], next)
          else if next.column = column then
            if next.atDash then
              (blockItems column bound next).map fun (items, after) => (item :: items, after)
            else some ([item], next)
          else none

/-- Reads the entries of a mapping whose keys stand in a column, from the first key. -/
def blockEntries (column : Nat) : Nat → Cursor → Option (List (Option String × Document) × Cursor)
  | 0, _ => none
  | bound + 1, cursor =>
      match blockStart? cursor with
      | some (.scalar key, after) =>
          let colon := after.skipBlanks
          if colon.atColon && colon.line = cursor.line then
            match blockNode column false true bound (colon.pass ':') with
            | none => none
            | some (value, after) =>
                let next := after.skip false false
                if next.isDone || next.column < column then some ([(key.text?, value)], next)
                else if next.column = column && !next.atDash then
                  (blockEntries column bound next).map fun (entries, after) =>
                    ((key.text?, value) :: entries, after)
                else none
          else none
      | _ => none

end

/-- True of the characters a text may hold. -/
def isPrintable (character : Char) : Bool :=
  let codePoint := character.toNat
  codePoint = 0x9 || codePoint = 0xA || codePoint = 0xD ||
    (0x20 ≤ codePoint && codePoint ≤ 0x7E) || codePoint = 0x85 ||
    (0xA0 ≤ codePoint && codePoint ≤ 0xFFFD && codePoint != 0xFEFF) || 0x10000 ≤ codePoint

/-- A text with one line feed for every end of a line. -/
def withLineFeeds : List Char → List Char
  | [] => []
  | '\r' :: '\n' :: rest => '\n' :: withLineFeeds rest
  | '\r' :: rest => '\n' :: withLineFeeds rest
  | character :: rest => (if character = '\x85' then '\n' else character) :: withLineFeeds rest

/-- The document that a text spells, if it is one document of this part of YAML and not empty. -/
def read? (text : List Char) : Option Document :=
  let text :=
    match text with
    | '\ufeff' :: rest => rest
    | _ => text
  if !text.all isPrintable then none
  else
    let text := withLineFeeds text
    let bound := 4 * text.length + 8
    let start : Cursor := Cursor.skip false false ⟨text, 0, 0⟩
    let marked := start.atMark && start.rest.head? = some '-'
    let body := if marked then start.advance ['-', '-', '-'] else start
    if !marked && start.isDone then none
    else
      match blockNode (-1) (!marked) false bound body with
      | none => none
      | some (document, after) =>
          let after := after.skip false false
          let after :=
            if after.atMark && after.rest.head? = some '.' then
              (after.advance ['.', '.', '.']).skip false true
            else after
          if after.rest.isEmpty then some document else none

end Orchestration.Yaml
