import Orchestration.Definition.Basic
import Orchestration.Value.Written

/-!
# Definitions as values

The value of a definition has the fields that reading knows, in their order. Absent fields, empty lists
and the sequential form of a loop are left out; the version, the enabled mark and the initial value of
a variable are always there.
-/

namespace Orchestration

/-- An entry for a field that may be absent. -/
def optionalEntry (name : String) (value : Option Value) : List (String × Value) :=
  value.toList.map fun value => (name, value)

/-- An entry for a text that may be absent. -/
def textEntry (name : String) (value : Option String) : List (String × Value) :=
  optionalEntry name (value.map Value.text)

/-- An entry for a list that is left out when it is empty. -/
def listEntry (name : String) (items : List Value) : List (String × Value) :=
  if items.isEmpty then [] else [(name, .list items)]

/-- The value of a fault handler. -/
def FaultHandler.toValue (handler : FaultHandler) : Value :=
  .record ([("faultName", .text handler.faultName)] ++
    textEntry "faultVariable" handler.faultVariable ++ [("activity", .text handler.activity)])

/-- The value of an event handler. -/
def EventHandler.toValue (handler : EventHandler) : Value :=
  .record [("event", .text handler.event), ("activity", .text handler.activity)]

/-- The value of the source of a copy. -/
def CopySource.toValue : CopySource → Value
  | .literal value => .record [("type", .text "literal"), ("value", value)]
  | .stored path => .record [("type", .text "variable"), ("path", .text path)]
  | .expression text => .record [("type", .text "expression"), ("expression", .text text)]

/-- The value of a copy. -/
def Copy.toValue (copy : Copy) : Value :=
  .record [("from", copy.source.toValue), ("to", .text copy.target)]

/-- The value of a loop bound. -/
def LoopBound.toValue : LoopBound → Value
  | .fixed value => .integer value
  | .expression text => .text text

/-- The value of the duration of a wait. -/
def WaitDuration.toValue : WaitDuration → Value
  | .milliseconds count => .integer count
  | .text written => .text written

/-- The value of an activity. -/
def Activity.toValue (activity : Activity) : Value :=
  .record ([("id", .text activity.id), ("type", .text activity.kind.name)] ++
    textEntry "name" activity.name ++
    listEntry "children" (activity.children.map Value.text) ++
    textEntry "condition" activity.condition ++
    textEntry "elseActivity" activity.elseActivity ++
    listEntry "copies" (activity.copies.map Copy.toValue) ++
    textEntry "faultName" activity.faultName ++
    textEntry "faultVariable" activity.faultVariable ++
    listEntry "eventHandlers" (activity.eventHandlers.map EventHandler.toValue) ++
    listEntry "faultHandlers" (activity.faultHandlers.map FaultHandler.toValue) ++
    textEntry "compensationHandler" activity.compensationHandler ++
    textEntry "counterVariable" activity.counterVariable ++
    optionalEntry "startValue" (activity.startValue.map LoopBound.toValue) ++
    optionalEntry "endValue" (activity.endValue.map LoopBound.toValue) ++
    (if activity.parallel then [("parallel", .boolean true)] else []) ++
    textEntry "partnerLink" activity.partnerLink ++
    textEntry "operation" activity.operation ++
    textEntry "inputVariable" activity.inputVariable ++
    textEntry "outputVariable" activity.outputVariable ++
    optionalEntry "duration" (activity.duration.map WaitDuration.toValue) ++
    textEntry "deadline" (activity.deadline.map Timestamp.text) ++
    textEntry "target" activity.target)

/-- The value of a declared variable. -/
def VariableDeclaration.toValue (declared : VariableDeclaration) : Value :=
  .record [("name", .text declared.name), ("default", declared.initial)]

/-- The value of a definition. -/
def Definition.toValue (definition : Definition) : Value :=
  .record ([("id", .text definition.id), ("name", .text definition.name),
      ("version", .text definition.version),
      ("activities", .list (definition.activities.map Activity.toValue)),
      ("rootActivityId", .text definition.rootActivityId)] ++
    listEntry "faultHandlers" (definition.faultHandlers.map FaultHandler.toValue) ++
    textEntry "compensationHandler" definition.compensationHandler ++
    listEntry "variables" (definition.declarations.map VariableDeclaration.toValue) ++
    [("enabled", .boolean definition.enabled)])

/-- The JSON text of a definition. -/
def Definition.toJson (definition : Definition) : String :=
  definition.toValue.toJson

end Orchestration
