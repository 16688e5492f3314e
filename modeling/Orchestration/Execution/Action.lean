import Orchestration.Condition.Reading
import Orchestration.Execution.Event
import Orchestration.Expression.Substitution

/-!
# Actions on an instance

An action is a step on an instance that nothing else comes in between. The program of an activity asks
for actions one after another and goes on with their replies; between two of them any other branch, and
anybody who suspends or terminates the instance, may act. What is one action and what is two is
therefore part of what a process means.
-/

namespace Orchestration

/-- A scope together with the handler that undoes it. -/
structure CompensationStep where
  scopeId : String
  handlerId : String
  deriving DecidableEq, Repr

/-- An action on an instance. -/
inductive Action where
  /-- Marks an activity as executing. -/
  | start (activity : Activity)
  /-- Marks an activity as ended and adds its entry to the log. -/
  | close (activity : Activity) (result : Result)
  /-- Asks whether the instance is suspended or terminated. -/
  | checkHalting
  /-- Evaluates a condition. -/
  | test (condition : String)
  /-- Evaluates a loop bound to a whole number. -/
  | measure (expression : String)
  /-- Writes a value. -/
  | write (path : String) (value : Value)
  /-- Performs copies in order, each on what the ones before it left. The first that fails ends the
  action, and what was written stays. -/
  | assign (copies : List Copy)
  /-- Writes the simulated response of a partner. -/
  | invoke (activity : Activity)
  /-- Writes a simulated message, unless one has been delivered already. -/
  | receive (activity : Activity)
  /-- Sends a value to a partner. -/
  | respond (activity : Activity)
  /-- Terminates the instance. -/
  | exit (id : String)
  /-- Reads the fault that is being handled. -/
  | currentFault
  /-- Reads a value. -/
  | read (path : String)
  /-- Binds a fault to the variable of its handler and records it as being handled. -/
  | catchFault (handler : FaultHandler) (fault : Fault)
  /-- Forgets the fault that was being handled. -/
  | clearFault
  /-- Reads which scopes there are to undo. -/
  | plan (definition : Definition) (target : Option String)
  /-- Marks a scope as undone. -/
  | markCompensated (scopeId : String)
  /-- Lets an event be known, with no effect on the instance. -/
  | announce (event : Event)

namespace Action

/-- What an action replies. -/
def Reply : Action → Type
  | .checkHalting => Bool
  | .test _ => Except ActivityError Bool
  | .measure _ => Except ActivityError Int
  | .write .. => Except ActivityError Unit
  | .assign _ => Except ActivityError Unit
  | .invoke _ => Except ActivityError Unit
  | .receive _ => Except ActivityError Unit
  | .currentFault => Option Fault
  | .read _ => Option Value
  | .catchFault .. => Except ActivityError Unit
  | .plan .. => List CompensationStep
  | _ => Unit

end Action

namespace CopySource

/-- The value of a source. A path that leads nowhere has the value `null`. -/
def resolve (source : CopySource) (bag : Bag) : Except ActivityError Value :=
  match source with
  | .literal value => .ok value
  | .stored path => .ok ((bag.get? path).getD .null)
  | .expression text => (Expression.evaluate text bag).mapError .expression

end CopySource

namespace Bag

/-- Writes a path and says why not as an activity does. -/
def assignPath (path : String) (value : Value) (bag : Bag) : Except ActivityError Bag :=
  (bag.set path value).mapError .path

/-- Performs copies in order: the bag they leave, and the failure that ended them. -/
def assignAll : List Copy → Bag → Bag × Except ActivityError Unit
  | [], bag => (bag, .ok ())
  | copy :: copies, bag =>
      match copy.source.resolve bag with
      | .error error => (bag, .error error)
      | .ok value =>
          match bag.assignPath copy.target value with
          | .error error => (bag, .error error)
          | .ok bag => assignAll copies bag

end Bag

namespace Activity

/-- The response that is simulated for an invocation. -/
def simulatedResponse (activity : Activity) (bag : Bag) : Value :=
  .record [("input", ((activity.inputVariable.bind bag.get?).getD .null)),
    ("operation", .text (activity.operation.getD "")),
    ("partnerLink", .text (activity.partnerLink.getD "")), ("simulated", .boolean true)]

/-- The message that is simulated for a reception. -/
def simulatedMessage (activity : Activity) : Value :=
  .record [("operation", .text (activity.operation.getD "")),
    ("partnerLink", .text (activity.partnerLink.getD "")), ("simulated", .boolean true)]

/-- True of a scope that a compensation of the target is about. -/
def matchesTarget (activity : Activity) (target : Option String) : Bool :=
  match target with
  | none => true
  | some target => activity.name = some target || activity.id = target

end Activity

namespace Instance

/-- The scopes to undo: those that are completed, have a compensation handler and match the target, the
one that began last coming first. -/
def compensationPlan (definition : Definition) (target : Option String) (subject : Instance) :
    List CompensationStep :=
  (subject.activityStatuses.filterMap fun (id, status) =>
    if status = .completed then
      (definition.activity? id).bind fun activity =>
        if activity.kind = .scope && activity.matchesTarget target then
          activity.compensationHandler.map fun handler => ⟨activity.id, handler⟩
        else none
    else none).reverse

/-- Writes a value to the variables. -/
def writeVariable (path : String) (value : Value) (subject : Instance) :
    Instance × Except ActivityError Unit :=
  match subject.bag.assignPath path value with
  | .ok bag => ({ subject with bag := bag }, .ok ())
  | .error error => (subject, .error error)

/-- Writing a variable keeps the id. -/
theorem id_writeVariable (path : String) (value : Value) (subject : Instance) :
    (subject.writeVariable path value).1.id = subject.id := by
  unfold writeVariable
  split <;> rfl

end Instance

/-- What an action leaves: the instance, the reply and the events. -/
structure Action.Effect (action : Action) where
  subject : Instance
  reply : action.Reply
  events : List Event := []

namespace Action

/-- Performs an action. -/
def perform (subject : Instance) : (action : Action) → Effect action
  | .start activity =>
      { subject := subject.setActivityStatus activity.id .executing
        reply := ()
        events := [.activityExecuting activity.id activity.kind] }
  | .close activity result =>
      let status := ActivityStatus.ofResult result
      let entry : LogEntry :=
        ⟨activity.id, activity.displayName, activity.kind, status, Result.message? result⟩
      let marked := subject.setActivityStatus activity.id status
      { subject := { marked with log := marked.log.push entry }
        reply := ()
        events := (Result.message? result).toList.map fun message =>
          .activityFaulted activity.id message }
  | .checkHalting => { subject := subject, reply := subject.status.isHalting }
  | .test condition =>
      { subject := subject
        reply := (Condition.evaluate condition subject.bag).mapError .expression }
  | .measure expression =>
      { subject := subject
        reply :=
          match Expression.evaluate expression subject.bag with
          | .error error => .error (.expression error)
          | .ok value =>
              match value.integer? with
              | some bound => .ok bound
              | none => .error (.expression (.notAnInteger expression)) }
  | .write path value =>
      let (subject, reply) := subject.writeVariable path value
      { subject := subject, reply := reply }
  | .assign copies =>
      let (bag, reply) := Bag.assignAll copies subject.bag
      { subject := { subject with bag := bag }, reply := reply }
  | .invoke activity =>
      let (subject, reply) :=
        match activity.outputVariable with
        | some path => subject.writeVariable path (activity.simulatedResponse subject.bag)
        | none => (subject, .ok ())
      { subject := subject
        reply := reply
        events := [.partnerInvoked activity.id (activity.partnerLink.getD "")
          (activity.operation.getD "")] }
  | .receive activity =>
      match activity.outputVariable with
      | none => { subject := subject, reply := .ok () }
      | some path =>
          if subject.bag.isPopulated path then
            { subject := subject, reply := .ok (), events := [.messageFound activity.id path] }
          else
            let (subject, reply) := subject.writeVariable path activity.simulatedMessage
            { subject := subject, reply := reply }
  | .respond activity =>
      { subject := subject
        reply := ()
        events := [.replied activity.id (activity.partnerLink.getD "")
          (activity.operation.getD "")
          ((activity.inputVariable.bind subject.bag.get?).getD .null)] }
  | .exit id =>
      { subject := subject.finish .terminated, reply := (), events := [.exitReached id] }
  | .currentFault => { subject := subject, reply := subject.fault }
  | .read path => { subject := subject, reply := subject.bag.get? path }
  | .catchFault handler fault =>
      match handler.bind fault subject.bag with
      | .error error => { subject := subject, reply := .error (.path error) }
      | .ok bag =>
          { subject := { subject with bag := bag, fault := some fault }
            reply := .ok () }
  | .clearFault => { subject := { subject with fault := none }, reply := () }
  | .plan definition target =>
      { subject := subject, reply := subject.compensationPlan definition target }
  | .markCompensated scopeId =>
      { subject := subject.setActivityStatus scopeId .compensated, reply := () }
  | .announce event => { subject := subject, reply := (), events := [event] }

/-- Every action keeps the id of the instance. -/
theorem id_perform (subject : Instance) (action : Action) :
    (action.perform subject).subject.id = subject.id := by
  cases action with
  | write path value => exact Instance.id_writeVariable path value subject
  | invoke activity =>
      simp only [perform]
      split <;> simp [Instance.id_writeVariable]
  | receive activity =>
      simp only [perform]
      split
      · rfl
      · split
        · rfl
        · exact Instance.id_writeVariable _ _ subject
  | catchFault handler fault =>
      simp only [perform]
      split <;> rfl
  | _ => rfl

/-- Most actions leave everything but the variables and the current fault alone. The others mark an
activity, terminate the instance or mark a scope as undone. -/
theorem perform_cases (subject : Instance) (action : Action) :
    (∃ activity, action = .start activity) ∨ (∃ activity result, action = .close activity result) ∨
      (∃ id, action = .exit id) ∨ (∃ scopeId, action = .markCompensated scopeId) ∨
        ∃ bag fault,
          (action.perform subject).subject = { subject with bag := bag, fault := fault } := by
  have writes (path : String) (value : Value) :
      ∃ bag fault, (subject.writeVariable path value).1 =
        { subject with bag := bag, fault := fault } := by
    unfold Instance.writeVariable
    split
    · exact ⟨_, _, rfl⟩
    · exact ⟨_, _, rfl⟩
  cases action with
  | start activity => exact .inl ⟨activity, rfl⟩
  | close activity result => exact .inr (.inl ⟨activity, result, rfl⟩)
  | exit id => exact .inr (.inr (.inl ⟨id, rfl⟩))
  | markCompensated scopeId => exact .inr (.inr (.inr (.inl ⟨scopeId, rfl⟩)))
  | write path value => exact .inr (.inr (.inr (.inr (writes path value))))
  | invoke activity =>
      refine .inr (.inr (.inr (.inr ?_)))
      simp only [perform]
      split
      · exact writes _ _
      · exact ⟨_, _, rfl⟩
  | receive activity =>
      refine .inr (.inr (.inr (.inr ?_)))
      simp only [perform]
      split
      · exact ⟨_, _, rfl⟩
      · split
        · exact ⟨_, _, rfl⟩
        · exact writes _ _
  | catchFault handler fault =>
      refine .inr (.inr (.inr (.inr ?_)))
      simp only [perform]
      split
      · exact ⟨_, _, rfl⟩
      · exact ⟨_, _, rfl⟩
  | _ => exact .inr (.inr (.inr (.inr ⟨_, _, rfl⟩)))

end Action

end Orchestration
