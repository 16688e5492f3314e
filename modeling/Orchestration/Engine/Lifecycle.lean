import Orchestration.Engine.Basic

/-!
# The life of instances

The operations of an engine. Starting an instance and undoing one are split in two: the first half accepts
the operation and leaves a run, and the second half settles the instance when the thread of the run has
ended. What happens in between is a matter of the thread and of whoever else uses the engine.

A fault of a process is recorded on its instance and is no failure of an operation. An operation that is
refused changes nothing.
-/

namespace Orchestration

/-- What a run is for. -/
inductive RunPurpose where
  | execution
  /-- The end of an instance whose definition has no root activity. There is nothing to perform. -/
  | missingRoot
  | compensation
  deriving DecidableEq, Repr

/-- Work on an instance that is under way. -/
structure Run where
  instanceId : String
  purpose : RunPurpose
  program : Program
  thread : Thread

namespace Engine

/-- Makes a definition available under its id. -/
def deploy (definition : Definition) (engine : Engine) : Except Refusal Engine :=
  match engine.process? definition.id with
  | some _ => .error (.alreadyDeployed definition.id)
  | none => .ok <| record
      (.processDeployed definition.id definition.version definition.activities.length)
      { engine with processes := engine.processes ++ [definition] }

/-- Removes a definition. Its instances stay. -/
def undeploy (id : String) (engine : Engine) : Except Refusal Engine :=
  match engine.process? id with
  | none => .error (.notDeployed id)
  | some _ => .ok <| record (.processUndeployed id)
      { engine with processes := engine.processes.filter fun definition => definition.id ≠ id }

/-- The program of a definition. -/
def program (definition : Definition) (engine : Engine) : Program :=
  ⟨definition, engine.settings, engine.now⟩

/-- Adds a new instance of a definition. -/
def enroll (definition : Definition) (input : Bag) (initiatedBy : String) (engine : Engine) :
    Engine × Instance :=
  let subject := Instance.new (engine.naming.name (engine.started + 1)) definition.id
    (definition.initialBag input) initiatedBy
  (record (.instanceStarted definition.id subject.id initiatedBy)
    { engine with
      started := engine.started + 1
      entries := engine.entries ++ [⟨definition, subject⟩] }, subject)

/-- Ends an instance as faulted and lets it be known. -/
def fail (fault : Fault) (subject : Instance) : Instance :=
  { subject with fault := some fault }.finish .faulted

/-- The fault of an instance whose definition has no root activity. -/
def missingRootFault (definition : Definition) : Fault :=
  ⟨Fault.missingRoot, s!"root activity {definition.rootActivityId} not found", none⟩

/-- Starts an instance. One whose root activity is missing has nothing to run and can only be settled. -/
def start (processId : String) (input : Bag) (initiatedBy : String) (engine : Engine) :
    Except Refusal (Engine × Run) :=
  match engine.process? processId with
  | none => .error (.notDeployed processId)
  | some definition =>
      if definition.enabled then
        let (engine, subject) := engine.enroll definition input initiatedBy
        let program := engine.program definition
        match definition.root? with
        | some root =>
            .ok (engine, ⟨subject.id, .execution, program, .ofTask (program.run root)⟩)
        | none =>
            .ok (engine.record (.rootMissing subject.id definition.rootActivityId),
              ⟨subject.id, .missingRoot, program,
                .ended (.error (.raised (missingRootFault definition)))⟩)
      else .error (.disabled processId)

/-- The entry of an instance in which an operation is allowed. -/
def permit (transition : Transition) (id : String) (engine : Engine) : Except Refusal Entry :=
  match engine.entry? id with
  | none => .error (.unknownInstance id)
  | some entry =>
      if transition.isAllowedIn entry.subject.status then .ok entry
      else .error (.notAllowed transition entry.subject.status)

/-- Suspends an active instance. Sequences stop before their next child; what is under way goes on. -/
def suspend (id : String) (engine : Engine) : Except Refusal Engine :=
  (engine.permit .suspend id).map fun entry =>
    (engine.put { entry.subject with status := .suspended }).record (.instanceSuspended id)

/-- Makes a suspended instance active again. What was skipped is not made up for. -/
def resume (id : String) (engine : Engine) : Except Refusal Engine :=
  (engine.permit .resume id).map fun entry =>
    (engine.put { entry.subject with status := .active }).record (.instanceResumed id)

/-- Terminates an instance. -/
def terminate (id : String) (engine : Engine) : Except Refusal Engine :=
  (engine.permit .terminate id).map fun entry =>
    (engine.put (entry.subject.finish .terminated)).record (.instanceTerminated id)

/-- Begins to undo an instance that has ended. -/
def compensate (id : String) (engine : Engine) : Except Refusal (Engine × Run) :=
  (engine.permit .compensate id).map fun entry =>
    let program := engine.program entry.definition
    ((engine.put { entry.subject with status := .compensating }).record
      (.instanceCompensating id),
      ⟨id, .compensation, program, .ofTask program.compensateProcess⟩)

/-- An instance and the journal, as a run acts on them. -/
def scene? (id : String) (engine : Engine) : Option Scene :=
  (engine.instance? id).map fun subject => ⟨subject, engine.journal⟩

/-- Puts back what a run has acted on. -/
def leave (scene : Scene) (engine : Engine) : Engine :=
  { engine.put scene.subject with journal := scene.events }

/-- Lets a run move at an instant. -/
def advance (now : Nat) (run : Run) (engine : Engine) : Engine × Run :=
  match engine.scene? run.instanceId with
  | none => (engine, run)
  | some scene =>
      let (scene, thread) := run.thread.advance run.program now Thread.slice scene
      (engine.leave scene, { run with thread := thread })

/-- What the end of an execution makes of its instance, and the event of it. An instance that was
terminated, or is not active although nothing failed, stays as it is. -/
def executed (result : Result) (subject : Instance) : Instance × Event :=
  match result with
  | .ok _ =>
      if subject.status = .active then
        (subject.finish .completed, .instanceCompleted subject.id)
      else (subject, .instanceStopped subject.id subject.status)
  | .error error =>
      if subject.status = .terminated then
        (subject, .instanceStopped subject.id subject.status)
      else (fail error.toFault subject, .instanceFaulted subject.id error.toFault.name)

/-- The hook that an event of an instance's end belongs to. -/
def hook? : Event → Option Hook
  | .instanceCompleted _ => some .completed
  | .instanceFaulted .. => some .faulted
  | _ => none

/-- Settles an instance whose execution has ended, and shows it to those who wait for its end. -/
def concludeExecution (result : Result) (subject : Instance) (engine : Engine) :
    Engine × Instance :=
  let (subject, event) := executed result subject
  let engine := (engine.put subject).record event
  match hook? event with
  | some hook => (engine.notify hook subject, subject)
  | none => (engine, subject)

/-- The fault of an instance whose compensation failed, with the fault that was the cause as data. -/
def compensationFault (error : ActivityError) : Fault :=
  ⟨Fault.compensationFailed, s!"compensation failed: {error.message}", some error.toFault.toValue⟩

/-- Settles an instance whose compensation has ended. -/
def concludeCompensation (result : Result) (subject : Instance) (engine : Engine) :
    Engine × Instance :=
  match result with
  | .ok _ =>
      let subject := { subject with status := .compensated }
      ((engine.put subject).record (.instanceCompensated subject.id), subject)
  | .error error =>
      let subject := fail (compensationFault error) subject
      ((engine.put subject).record (.compensationFailed subject.id error.message), subject)

/-- Settles an instance that had nothing to run, and shows it to those who wait for a failure. What was
done to it in the meantime does not matter. -/
def concludeMissingRoot (result : Result) (subject : Instance) (engine : Engine) :
    Engine × Instance :=
  match result with
  | .ok _ => (engine, subject)
  | .error error =>
      let subject := fail error.toFault subject
      ((engine.put subject).notify .faulted subject, subject)

/-- Settles the instance of a run that has ended with a result. -/
def conclude (run : Run) (result : Result) (engine : Engine) : Engine × Option Instance :=
  match engine.instance? run.instanceId with
  | none => (engine, none)
  | some subject =>
      let (engine, subject) :=
        match run.purpose with
        | .execution => engine.concludeExecution result subject
        | .missingRoot => engine.concludeMissingRoot result subject
        | .compensation => engine.concludeCompensation result subject
      (engine, some subject)

end Engine

end Orchestration
