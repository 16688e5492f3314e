import Orchestration.Definition.Basic
import Orchestration.Document.Basic
import Orchestration.Timestamp.Reading

/-!
# Reading definitions from documents

A record of a definition is a mapping with known fields. Unknown fields are passed over without being
looked into, a known field that is repeated is an error, and so is a value of the wrong form. Fields
that may be left out may also be null; lists may be left out but not be null.

The form of a scalar follows the document's own rules, so that the two dialects differ in two points
only: in JSON a record may also be written as the list of its fields' values in their order, and the kind
of an activity as a mapping.
-/

namespace Orchestration

/-- The languages that definitions are written in. -/
inductive Dialect where
  | json
  | yaml
  deriving DecidableEq, Repr

/-- The known fields of a record, in the order in which they stand in it. -/
abbrev Fields := List (String × Document)

namespace Document

/-- The keys of a mapping, if all of them are texts. -/
def keyed? : List (Option String × Document) → Option Fields
  | [] => some []
  | (some key, document) :: rest => (keyed? rest).map ((key, document) :: ·)
  | (none, _) :: _ => none

/-- True when no name occurs twice. -/
def isRepetitionFree : List String → Bool
  | [] => true
  | name :: names => !names.contains name && isRepetitionFree names

/-- The known fields of a record. -/
def fields? (dialect : Dialect) (names : List String) (document : Document) : Option Fields :=
  match document with
  | .mapping entries => do
      let entries ← keyed? entries
      let known := entries.filter fun entry => names.contains entry.1
      if isRepetitionFree (known.map Prod.fst) then some known else none
  | .sequence items =>
      if dialect = .json && items.length ≤ names.length then some (names.zip items) else none
  | .scalar _ => none

/-- The items of a list. A plain scalar without any text is the empty list. -/
def items? : Document → Option (List Document)
  | .sequence items => some items
  | .scalar (.plain "") => some []
  | _ => none

/-- The text of a document. -/
def text? : Document → Option String
  | .scalar content => content.text?
  | _ => none

/-- The text of a document where any value may stand. -/
def resolvedText? : Document → Option String
  | .scalar content => content.resolve.text?
  | _ => none

/-- The Boolean of a document. -/
def boolean? : Document → Option Bool
  | .scalar content => content.boolean?
  | _ => none

/-- True of a document that stands for nothing. -/
def isNull : Document → Bool
  | .scalar content => content.isNull
  | _ => false

/-- The timestamp of a document. -/
def timestamp? (document : Document) : Option Timestamp :=
  document.text?.bind fun written => Timestamp.read? written.toList

/-- The loop bound of a document: a whole number that fits a signed word, or a text. -/
def loopBound? : Document → Option LoopBound
  | .scalar content =>
      match content.resolve with
      | .number (some (.integer value)) =>
          if Word.isSigned value then some (.fixed value) else none
      | .text (some written) => some (.expression written)
      | _ => none
  | _ => none

/-- The duration of a wait: a whole number that is not negative, or a text. -/
def waitDuration? : Document → Option WaitDuration
  | .scalar content =>
      match content.resolve with
      | .number (some (.integer value)) =>
          if 0 ≤ value then some (.milliseconds value.toNat) else none
      | .text (some written) => some (.text written)
      | _ => none
  | _ => none

/-- The value of a document inside a number of containers, as far as the limit of nesting allows. -/
def valueWithin? (containers : Nat) (document : Document) : Option Value :=
  if containers + document.depth ≤ maximumDepth then document.value? else none

end Document

namespace Fields

/-- The document of a field. -/
def find? (name : String) (fields : Fields) : Option Document :=
  (List.find? (fun entry : String × Document => entry.1 = name) fields).map Prod.snd

/-- Reads a field that has to be there. -/
def required {α : Type} (read : Document → Option α) (name : String) (fields : Fields) : Option α :=
  (fields.find? name).bind read

/-- Reads a field that may be left out or null. -/
def optional {α : Type} (read : Document → Option α) (name : String) (fields : Fields) :
    Option (Option α) :=
  match fields.find? name with
  | none => some none
  | some document => if document.isNull then some none else (read document).map some

/-- Reads a field with a value of its own for when it is left out. -/
def withDefault {α : Type} (read : Document → Option α) (value : α) (name : String)
    (fields : Fields) : Option α :=
  match fields.find? name with
  | none => some value
  | some document => read document

/-- Reads every document of a list. -/
def all {α : Type} (read : Document → Option α) : List Document → Option (List α)
  | [] => some []
  | document :: documents =>
      match read document, all read documents with
      | some value, some values => some (value :: values)
      | _, _ => none

/-- Reads a list that may be left out. -/
def list {α : Type} (read : Document → Option α) (name : String) (fields : Fields) :
    Option (List α) :=
  withDefault (fun document => document.items?.bind (all read)) [] name fields

end Fields

/-- Reads a fault handler. -/
def FaultHandler.read? (dialect : Dialect) (document : Document) : Option FaultHandler := do
  let fields ← document.fields? dialect ["faultName", "faultVariable", "activity"]
  some {
    faultName := ← fields.required Document.text? "faultName"
    faultVariable := ← fields.optional Document.text? "faultVariable"
    activity := ← fields.required Document.text? "activity" }

/-- Reads an event handler. -/
def EventHandler.read? (dialect : Dialect) (document : Document) : Option EventHandler := do
  let fields ← document.fields? dialect ["event", "activity"]
  some {
    event := ← fields.required Document.text? "event"
    activity := ← fields.required Document.text? "activity" }

/-- The containers around the source of a copy: the definition, its activities, an activity, its
copies and a copy. -/
def CopySource.containers : Nat := 5

/-- The field that counts in the source of a copy, for each type of source. -/
def CopySource.fieldName? (kind : String) : Option String :=
  if kind = "literal" then some "value"
  else if kind = "variable" then some "path"
  else if kind = "expression" then some "expression"
  else none

/-- Reads the source of a copy of a type from the field that counts. -/
def CopySource.ofField? (kind : String) (content : Document) : Option CopySource :=
  if kind = "literal" then content.value?.map .literal
  else if kind = "variable" then content.resolvedText?.map .stored
  else if kind = "expression" then content.resolvedText?.map .expression
  else none

/-- Reads the source of a copy: a mapping whose type says which other field counts, or the list of the
type and the value of this field. All of it is looked into, so that nothing in it may be out of range or
too deep. -/
def CopySource.read? (document : Document) : Option CopySource := do
  let _ ← document.valueWithin? CopySource.containers
  match document with
  | .sequence [kind, content] => CopySource.ofField? (← kind.text?) content
  | .mapping _ =>
      let field? (name : String) : Option Document := do
        (← document.fields? .yaml ["type", name]).find? name
      let kind ← (← field? "type").text?
      CopySource.ofField? kind (← field? (← CopySource.fieldName? kind))
  | _ => none

/-- Reads a copy. -/
def Copy.read? (dialect : Dialect) (document : Document) : Option Copy := do
  let fields ← document.fields? dialect ["from", "to"]
  some {
    source := ← fields.required CopySource.read? "from"
    target := ← fields.required Document.text? "to" }

/-- Reads the kind of an activity: its name, in JSON perhaps as the only key of a mapping to nothing. -/
def ActivityKind.read? (dialect : Dialect) : Document → Option ActivityKind
  | .mapping [(some name, content)] =>
      if dialect = .json && content.isNull then some (.ofName name) else none
  | document => document.text?.map .ofName

/-- The fields of an activity. -/
def Activity.fieldNames : List String :=
  ["id", "type", "name", "children", "condition", "elseActivity", "copies", "faultName",
    "faultVariable", "eventHandlers", "faultHandlers", "compensationHandler", "counterVariable",
    "startValue", "endValue", "parallel", "partnerLink", "operation", "inputVariable",
    "outputVariable", "duration", "deadline", "target"]

/-- Reads an activity. -/
def Activity.read? (dialect : Dialect) (document : Document) : Option Activity := do
  let fields ← document.fields? dialect Activity.fieldNames
  let text? (name : String) := fields.optional Document.text? name
  some {
    id := ← fields.required Document.text? "id"
    kind := ← fields.required (ActivityKind.read? dialect) "type"
    name := ← text? "name"
    children := ← fields.list Document.text? "children"
    condition := ← text? "condition"
    elseActivity := ← text? "elseActivity"
    copies := ← fields.list (Copy.read? dialect) "copies"
    faultName := ← text? "faultName"
    faultVariable := ← text? "faultVariable"
    eventHandlers := ← fields.list (EventHandler.read? dialect) "eventHandlers"
    faultHandlers := ← fields.list (FaultHandler.read? dialect) "faultHandlers"
    compensationHandler := ← text? "compensationHandler"
    counterVariable := ← text? "counterVariable"
    startValue := ← fields.optional Document.loopBound? "startValue"
    endValue := ← fields.optional Document.loopBound? "endValue"
    parallel := ← fields.withDefault Document.boolean? false "parallel"
    partnerLink := ← text? "partnerLink"
    operation := ← text? "operation"
    inputVariable := ← text? "inputVariable"
    outputVariable := ← text? "outputVariable"
    duration := ← fields.optional Document.waitDuration? "duration"
    deadline := ← fields.optional Document.timestamp? "deadline"
    target := ← text? "target" }

/-- The containers around the initial value of a variable: the definition, its variables and a
variable. -/
def VariableDeclaration.containers : Nat := 3

/-- Reads a variable. -/
def VariableDeclaration.read? (dialect : Dialect) (document : Document) :
    Option VariableDeclaration := do
  let fields ← document.fields? dialect ["name", "default"]
  some {
    name := ← fields.required Document.text? "name"
    initial := ←
      fields.withDefault (Document.valueWithin? VariableDeclaration.containers) .null "default" }

/-- The fields of a definition. -/
def Definition.fieldNames : List String :=
  ["id", "name", "version", "activities", "rootActivityId", "faultHandlers", "compensationHandler",
    "variables", "enabled"]

/-- Reads a definition. -/
def Definition.read? (dialect : Dialect) (document : Document) : Option Definition := do
  let fields ← document.fields? dialect Definition.fieldNames
  some {
    id := ← fields.required Document.text? "id"
    name := ← fields.required Document.text? "name"
    version := ← fields.withDefault Document.text? Definition.defaultVersion "version"
    activities := ← (fields.required (fun document =>
      document.items?.bind (Fields.all (Activity.read? dialect))) "activities").map
        Definition.arrange
    rootActivityId := ← fields.required Document.text? "rootActivityId"
    faultHandlers := ← fields.list (FaultHandler.read? dialect) "faultHandlers"
    compensationHandler := ← fields.optional Document.text? "compensationHandler"
    declarations := ← fields.list (VariableDeclaration.read? dialect) "variables"
    enabled := ← fields.withDefault Document.boolean? true "enabled" }

end Orchestration
