import Orchestration.Journal.Level
import Orchestration.Text.Blank
import Orchestration.Text.Integer
import Orchestration.Text.Word

/-!
# Directives

What a journal is asked to keep: a level, or a target with a level of its own. A directive may also name
a span and its fields in brackets. Behind a target the level may be left out, and a word that is no level
is a target.
-/

namespace Orchestration.Journal

/-- What a journal is asked to keep. -/
structure Directive where
  target : Option String
  verbosity : Verbosity
  deriving DecidableEq, Repr

/-- The verbosity of a word: its name in any case of letters, or its place as a number. -/
def Verbosity.ofWord? (word : List Char) : Option Verbosity :=
  match Text.readWord? word with
  | some rank => Verbosity.all.find? fun verbosity => verbosity.rank = rank
  | none => Verbosity.all.find? fun verbosity => verbosity.name.toList = word.map Char.toLower

namespace Directive

/-- Where the reader of a directive stands. -/
inductive State where
  | start
  /-- In a word that began at a place. -/
  | word (start : Nat)
  | span
  /-- In a field of a span, which is empty as yet or is not. -/
  | field (empty : Bool)
  | fields
  | target
  /-- In a level that began at a place. -/
  | level (start : Nat)
  | complete
  deriving DecidableEq, Repr

/-- The characters of a text from one place up to another. -/
def slice (text : List Char) (start finish : Nat) : List Char :=
  (text.take finish).drop start

/-- The directive of a lone word: a verbosity, or a target of which everything is kept. -/
def ofWord (word : List Char) : Directive :=
  match Verbosity.ofWord? word with
  | some verbosity => ⟨none, verbosity⟩
  | none => ⟨some (String.ofList word), .upTo .tracing⟩

/-- A directive with the verbosity that a word behind an equals sign spells. No word at all keeps
everything. -/
def withLevel (word : List Char) (directive : Directive) : Option Directive :=
  if word.isEmpty then some { directive with verbosity := .upTo .tracing }
  else (Verbosity.ofWord? word).map fun verbosity => { directive with verbosity := verbosity }

/-- True of the characters that a directive may begin with, beside a bracket. -/
def isFirstCharacter (character : Char) : Bool :=
  ['-', ':', '_'].contains character || Text.isWord character

/-- Reads a character at a place of the whole text. -/
def step (whole : List Char) (place : Nat) (directive : Directive) (character : Char) :
    State → Option (State × Directive)
  | .start =>
      if character = '[' then some (.span, directive)
      else if isFirstCharacter character then some (.word place, directive)
      else none
  | .word start =>
      if character = '=' then
        some (.level (place + 1),
          { directive with target := some (String.ofList (slice whole start place)) })
      else if character = '[' then
        some (.span, { directive with target := some (String.ofList (slice whole start place)) })
      else if character = ',' then some (.complete, ofWord (whole.drop start))
      else some (.word start, directive)
  | .span =>
      if character = ']' then some (.target, directive)
      else if character = '\x7b' then some (.field true, directive)
      else some (.span, directive)
  | .field empty =>
      if character = '\x7d' then if empty then none else some (.fields, directive)
      else if character = ',' then if empty then none else some (.field true, directive)
      else some (.field false, directive)
  | .fields => if character = ']' then some (.target, directive) else none
  | .target => if character = '=' then some (.level (place + 1), directive) else none
  | .level start =>
      if character = ',' then
        (withLevel (slice whole start place) directive).map (.complete, ·)
      else some (.level start, directive)
  | .complete => none

/-- The directive of a text that ends in a state. -/
def finish (whole : List Char) (directive : Directive) : State → Option Directive
  | .word start => some (ofWord (whole.drop start))
  | .level start => withLevel (whole.drop start) directive
  | .target => some directive
  | .complete => some directive
  | _ => none

/-- Reads the rest of a text from a place on. -/
def readFrom (whole : List Char) : Nat → State → Directive → List Char → Option Directive
  | _, state, directive, [] => finish whole directive state
  | place, state, directive, character :: rest =>
      match step whole place directive character state with
      | some (state, directive) => readFrom whole (place + 1) state directive rest
      | none => none

/-- Reads a directive. The blanks around it are passed over, but the places of its words are counted
from the beginning of the whole text. -/
def read? (text : List Char) : Option Directive :=
  readFrom text 0 .start ⟨none, .upTo .tracing⟩ (Text.trim text)

end Directive

end Orchestration.Journal
