import Orchestration.Definition.Basic

/-!
# References between activities

Which ids an activity and a definition refer to, by which field, and which of them lead nowhere.
-/

namespace Orchestration

/-- The fields that refer to activities. -/
inductive ReferenceField where
  | root
  | children
  | elseActivity
  | compensationHandler
  | faultHandlers
  | eventHandlers
  deriving DecidableEq, Repr

/-- The name of a field in a definition. -/
def ReferenceField.name : ReferenceField → String
  | .root => "rootActivityId"
  | .children => "children"
  | .elseActivity => "elseActivity"
  | .compensationHandler => "compensationHandler"
  | .faultHandlers => "faultHandlers"
  | .eventHandlers => "eventHandlers"

/-- The ids that an activity refers to, with the fields they stand in. -/
def Activity.references (activity : Activity) : List (ReferenceField × String) :=
  activity.children.map (fun child => (.children, child)) ++
    activity.elseActivity.toList.map (fun target => (.elseActivity, target)) ++
    activity.compensationHandler.toList.map (fun target => (.compensationHandler, target)) ++
    activity.faultHandlers.map (fun handler => (.faultHandlers, handler.activity)) ++
    activity.eventHandlers.map (fun handler => (.eventHandlers, handler.activity))

/-- A reference that leads nowhere. -/
structure DanglingReference where
  /-- The activity that refers; none for a reference of the definition itself. -/
  source : Option String
  field : ReferenceField
  target : String
  deriving DecidableEq, Repr

/-- The wording of a dangling reference. -/
def DanglingReference.message (reference : DanglingReference) : String :=
  match reference.source with
  | some id => s!"activity {id} {reference.field.name} -> {reference.target}"
  | none => s!"process {reference.field.name} -> {reference.target}"

namespace Definition

/-- The references of the definition itself. -/
def references (definition : Definition) : List (ReferenceField × String) :=
  (.root, definition.rootActivityId) ::
    (definition.faultHandlers.map (fun handler => (.faultHandlers, handler.activity)) ++
      definition.compensationHandler.toList.map (fun target => (.compensationHandler, target)))

/-- Every reference with its source: those of the definition, then those of each activity in turn. -/
def allReferences (definition : Definition) : List DanglingReference :=
  definition.references.map (fun reference => ⟨none, reference.1, reference.2⟩) ++
    definition.activities.flatMap fun activity =>
      activity.references.map fun reference => ⟨some activity.id, reference.1, reference.2⟩

/-- The references that lead nowhere. -/
def danglingReferences (definition : Definition) : List DanglingReference :=
  definition.allReferences.filter fun reference => (definition.activity? reference.target).isNone

end Definition

end Orchestration
