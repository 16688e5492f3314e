import Orchestration.Definition.Basic
import Orchestration.Expression.Error
import Orchestration.Value.Path

/-!
# Faults

A fault is what an activity ends with when it fails and a handler is looked for by. Business faults have
the name and the data they were thrown with; every other failure becomes a fault under a name of its
kind. A handler is found by the exact name first and by the wildcard second.
-/

namespace Orchestration

/-- A named fault. -/
structure Fault where
  name : String
  message : String
  data : Option Value := none

namespace Fault

/-- The name of a failure that has no other. -/
def unhandled : String := "UnhandledFault"

/-- The name of the fault of an instance whose root activity is missing. -/
def missingRoot : String := "MissingRootActivity"

/-- The name of the fault of a reference that leads nowhere. -/
def childNotFound : String := "ChildActivityNotFound"

/-- The name of the fault of an activity of an unknown kind. -/
def unsupportedKind : String := "UnsupportedActivityType"

/-- The name of the fault of an instance whose compensation failed. -/
def compensationFailed : String := "CompensationFault"

/-- The name under which a handler takes every fault. -/
def wildcard : String := "*"

/-- A fault in one line. -/
def text (fault : Fault) : String :=
  s!"{fault.name}: {fault.message}"

/-- The value that a handler's variable is given. -/
def toValue (fault : Fault) : Value :=
  .record [("data", fault.data.getD .null), ("message", .text fault.message),
    ("name", .text fault.name)]

end Fault

/-- Why an activity failed. -/
inductive ActivityError where
  /-- A fault that was thrown. -/
  | raised (fault : Fault)
  | childNotFound (id : String)
  | unsupportedKind (id : String)
  | iterationLimit (id : String) (kind : ActivityKind) (limit : Nat)
  | nothingToRethrow
  | invalid (id : String) (reason : String)
  | expression (error : ExpressionError)
  | path (error : PathError)

namespace ActivityError

/-- The wording of a failure. -/
def message : ActivityError → String
  | .raised fault => fault.text
  | .childNotFound id => s!"child activity not found: {id}"
  | .unsupportedKind id => s!"unsupported activity type for activity {id}"
  | .iterationLimit id kind limit =>
      s!"{kind.name} loop {id} exceeded maximum iterations ({limit})"
  | .nothingToRethrow => "no fault to rethrow"
  | .invalid id reason => s!"activity {id}: {reason}"
  | .expression error => s!"expression error: {error.message}"
  | .path error => s!"variable error: {error.message}"

/-- The name of the fault that a failure becomes. -/
def faultName : ActivityError → String
  | .raised fault => fault.name
  | .childNotFound _ => Fault.childNotFound
  | .unsupportedKind _ => Fault.unsupportedKind
  | _ => Fault.unhandled

/-- The fault that a failure becomes. A business fault stays what it is. -/
def toFault (error : ActivityError) : Fault :=
  match error with
  | .raised fault => fault
  | _ => ⟨error.faultName, error.message, none⟩

end ActivityError

namespace FaultHandler

/-- The handler of a fault's name: the first that names it, else the first wildcard. -/
def resolve? (handlers : List FaultHandler) (name : String) : Option FaultHandler :=
  (handlers.find? fun handler => handler.faultName = name).or
    (handlers.find? fun handler => handler.faultName = Fault.wildcard)

/-- Writes a fault to the variable of its handler, if the handler has one. -/
def bind (handler : FaultHandler) (fault : Fault) (bag : Bag) : Except PathError Bag :=
  match handler.faultVariable with
  | some path => bag.set path fault.toValue
  | none => .ok bag

end FaultHandler

end Orchestration
