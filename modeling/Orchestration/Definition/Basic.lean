import Orchestration.Duration.Reading
import Orchestration.Timestamp.Basic
import Orchestration.Value.Basic

/-!
# Process definitions

A definition is a set of activities under ids, with one of them as the root. Activities refer to each
other by id only, and nothing here demands that a reference leads anywhere: a reference is followed
when the activity that holds it runs, and dangling ones are found by a check of their own.
-/

namespace Orchestration

/-- What an activity does. -/
inductive ActivityKind where
  | sequence
  | flow
  | choice
  | whileLoop
  | repeatUntil
  | forEach
  | pick
  | invoke
  | receive
  | reply
  | assign
  | wait
  | throw
  | rethrow
  | scope
  | compensate
  | compensateScope
  | empty
  | exit
  | validate
  /-- A kind that is not known. It may stand in a definition and fails when it runs. -/
  | unsupported
  deriving DecidableEq, Repr

namespace ActivityKind

/-- The name of a kind in a definition. -/
def name : ActivityKind → String
  | .sequence => "sequence"
  | .flow => "flow"
  | .choice => "if"
  | .whileLoop => "while"
  | .repeatUntil => "repeatUntil"
  | .forEach => "forEach"
  | .pick => "pick"
  | .invoke => "invoke"
  | .receive => "receive"
  | .reply => "reply"
  | .assign => "assign"
  | .wait => "wait"
  | .throw => "throw"
  | .rethrow => "rethrow"
  | .scope => "scope"
  | .compensate => "compensate"
  | .compensateScope => "compensateScope"
  | .empty => "empty"
  | .exit => "exit"
  | .validate => "validate"
  | .unsupported => "unsupported"

/-- Every kind. -/
def all : List ActivityKind :=
  [.sequence, .flow, .choice, .whileLoop, .repeatUntil, .forEach, .pick, .invoke, .receive, .reply,
    .assign, .wait, .throw, .rethrow, .scope, .compensate, .compensateScope, .empty, .exit,
    .validate, .unsupported]

/-- The kind of a name; a name of no kind is an unsupported one. -/
def ofName (name : String) : ActivityKind :=
  (all.find? fun kind => kind.name = name).getD .unsupported

/-- A kind is read back from its name. -/
theorem ofName_name (kind : ActivityKind) : ofName kind.name = kind := by
  cases kind <;> decide

end ActivityKind

/-- An activity that recovers from the faults of a name, or from all faults. -/
structure FaultHandler where
  /-- The name of the fault, or the wildcard. -/
  faultName : String
  /-- The path that the fault is written to. -/
  faultVariable : Option String
  /-- The recovery activity. -/
  activity : String
  deriving DecidableEq, Repr

/-- A branch that waits for an event. -/
structure EventHandler where
  event : String
  activity : String
  deriving DecidableEq, Repr

/-- Where the value of a copy comes from. -/
inductive CopySource where
  | literal (value : Value)
  | stored (path : String)
  | expression (text : String)

/-- One write of an assignment. -/
structure Copy where
  source : CopySource
  /-- The path that is written to. -/
  target : String

/-- A bound of a counted loop: a signed word, or an expression over the variables. -/
inductive LoopBound where
  | fixed (value : Int)
  | expression (text : String)
  deriving DecidableEq, Repr

/-- How long a wait lasts: a count of milliseconds, or a duration as text, which is read only when the
wait begins. -/
inductive WaitDuration where
  | milliseconds (count : Nat)
  | text (written : String)
  deriving DecidableEq, Repr

/-- The duration of a wait, or the reason why there is none. -/
def WaitDuration.resolve : WaitDuration → Except String Duration
  | .milliseconds count => .ok (.ofMilliseconds count)
  | .text written =>
      match Duration.read written with
      | .ok duration => .ok duration
      | .error error => .error s!"invalid duration '{written}': {error.message}"

/-- An activity. Which of the fields say anything depends on the kind; a definition may give the others
as well, and they are kept. -/
structure Activity where
  id : String
  kind : ActivityKind
  name : Option String := none
  children : List String := []
  condition : Option String := none
  elseActivity : Option String := none
  copies : List Copy := []
  faultName : Option String := none
  faultVariable : Option String := none
  eventHandlers : List EventHandler := []
  faultHandlers : List FaultHandler := []
  compensationHandler : Option String := none
  counterVariable : Option String := none
  startValue : Option LoopBound := none
  endValue : Option LoopBound := none
  parallel : Bool := false
  partnerLink : Option String := none
  operation : Option String := none
  inputVariable : Option String := none
  outputVariable : Option String := none
  duration : Option WaitDuration := none
  deadline : Option Timestamp := none
  /-- The name or id of the scope that a compensation is about. -/
  target : Option String := none

/-- The name that an activity is shown under: its own, or else its id. -/
def Activity.displayName (activity : Activity) : String :=
  activity.name.getD activity.id

/-- A variable that every instance begins with. -/
structure VariableDeclaration where
  name : String
  initial : Value

/-- A process definition. -/
structure Definition where
  id : String
  name : String
  version : String
  /-- The activities in the order of their ids' first appearance. -/
  activities : List Activity
  rootActivityId : String
  faultHandlers : List FaultHandler
  compensationHandler : Option String
  declarations : List VariableDeclaration
  enabled : Bool

namespace Definition

/-- The version of a definition that names none. -/
def defaultVersion : String := "1.0"

/-- Adds an activity; one with the same id is replaced at its place. -/
def place (activity : Activity) : List Activity → List Activity
  | [] => [activity]
  | present :: rest =>
      if present.id = activity.id then activity :: rest else present :: place activity rest

/-- Activities under ids: of those with one id the last one stays, at the place of the first. -/
def arrange (activities : List Activity) : List Activity :=
  activities.foldl (fun arranged activity => place activity arranged) []

/-- A definition of the given activities and nothing else. -/
def ofActivities (id name rootActivityId : String) (activities : List Activity) : Definition where
  id := id
  name := name
  version := defaultVersion
  activities := arrange activities
  rootActivityId := rootActivityId
  faultHandlers := []
  compensationHandler := none
  declarations := []
  enabled := true

/-- The activity under an id. -/
def activity? (id : String) (definition : Definition) : Option Activity :=
  definition.activities.find? fun activity => activity.id = id

/-- The root activity. -/
def root? (definition : Definition) : Option Activity :=
  definition.activity? definition.rootActivityId

/-- The bag that an instance begins with: the declared variables, and over them the input. -/
def initialBag (input : Bag) (definition : Definition) : Bag :=
  Bag.insertAll input (Bag.ofList (definition.declarations.map fun declared =>
    (declared.name, declared.initial)))

/-- An activity that was found has the id it was looked for under. -/
theorem id_of_activity? {id : String} {definition : Definition} {activity : Activity}
    (found : definition.activity? id = some activity) : activity.id = id := by
  have := List.find?_some found
  simpa using this

end Definition

end Orchestration
