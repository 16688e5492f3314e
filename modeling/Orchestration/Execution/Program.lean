import Orchestration.Execution.Task
import Orchestration.Settings.Basic
import Orchestration.Word

/-!
# The tasks of activities

For every kind of activity, what it does: a task over the definition that the activity stands in. The
task of an activity says what happens between the two marks that every execution makes; the marks
themselves are made by the thread that performs a call.
-/

namespace Orchestration

/-- What the tasks of an instance depend on and never change. -/
structure Program where
  definition : Definition
  settings : Settings
  /-- The time that deadlines are measured from. -/
  now : Timestamp

namespace Program

/-- Goes on with the activity under an id, or fails because there is none. -/
def lookup (program : Program) (id : String) (next : Activity → Task) : Task :=
  match program.definition.activity? id with
  | some activity => next activity
  | none => .failed (.childNotFound id)

/-- The activities under ids, or the failure of the first id that has none. -/
def lookupAll (program : Program) : List String → Except ActivityError (List Activity)
  | [] => .ok []
  | id :: ids =>
      match program.definition.activity? id with
      | some activity => (program.lookupAll ids).map (activity :: ·)
      | none => .error (.childNotFound id)

/-- One child after another. Before each of them it asks whether to go on. -/
def runSequence (program : Program) : List String → Task
  | [] => .completed
  | id :: ids =>
      .act .checkHalting fun (halting : Bool) =>
        if halting then .halted
        else program.lookup id fun child =>
          (Task.call child .part .done).whenCompleted (program.runSequence ids)

/-- All children side by side. No child runs unless all of them exist. -/
def runFlow (program : Program) (children : List String) : Task :=
  .ofExcept (program.lookupAll children) fun branches =>
    .fork (branches.map fun branch => .call branch .part .done) fun results => .done (Result.merge results)

/-- Goes on with the value of an activity's condition. -/
def testCondition (activity : Activity) (next : Bool → Task) : Task :=
  match activity.condition with
  | some condition => .act (.test condition) fun (reply : Except ActivityError Bool) =>
      .ofExcept reply next
  | none => .failed (.invalid activity.id "missing condition")

/-- The first child if the condition holds, else the alternative; either may be absent. -/
def runChoice (program : Program) (activity : Activity) : Task :=
  testCondition activity fun holds =>
    match if holds then activity.children.head? else activity.elseActivity with
    | some id => program.lookup id fun target => .call target .part .done
    | none => .completed

/-- The end of a loop that wants to go on beyond the limit. -/
def hitIterationCap (program : Program) (activity : Activity) : Task :=
  .announce (.iterationCapHit activity.id program.settings.maxLoopIterations)
    (.failed (.iterationLimit activity.id activity.kind program.settings.maxLoopIterations))

/-- A loop that tests before each run of its body, of which so many remain. -/
def runWhile (program : Program) (activity : Activity) : Nat → Task
  | 0 => testCondition activity fun holds =>
      if holds then program.hitIterationCap activity else .completed
  | remaining + 1 => testCondition activity fun holds =>
      if holds then
        (program.runSequence activity.children).whenCompleted
          (program.runWhile activity remaining)
      else .completed

/-- A loop that tests after each run of its body, of which so many remain. -/
def runRepeatUntil (program : Program) (activity : Activity) : Nat → Task
  | 0 => program.hitIterationCap activity
  | remaining + 1 =>
      (program.runSequence activity.children).whenCompleted <|
        testCondition activity fun holds =>
          if holds then .completed else program.runRepeatUntil activity remaining

/-- Goes on with the value of a bound of a counted loop. -/
def measureBound (activity : Activity) (bound : Option LoopBound) (field : String)
    (next : Int → Task) : Task :=
  match bound with
  | some (.fixed value) => next value
  | some (.expression text) => .act (.measure text) fun (reply : Except ActivityError Int) =>
      .ofExcept reply next
  | none => .failed (.invalid activity.id s!"missing {field}")

/-- Writes the counter of a loop. -/
def writeCounter (counter : String) (index : Int) (next : Task) : Task :=
  .act (.write counter (.integer index)) fun (reply : Except ActivityError Unit) =>
    .ofExcept reply fun _ => next

/-- The runs of a counted loop one after another: so many from an index on. -/
def runIterations (program : Program) (counter : String) (children : List String) :
    Nat → Int → Task
  | 0, _ => .completed
  | count + 1, index =>
      .act .checkHalting fun (halting : Bool) =>
        if halting then .halted
        else writeCounter counter index <|
          (program.runSequence children).whenCompleted
            (program.runIterations counter children count (index + 1))

/-- The runs of a counted loop side by side. All of them write the one counter. -/
def runIterationsInParallel (program : Program) (counter : String) (children : List String)
    (count : Nat) (start : Int) : Task :=
  .fork
    ((List.range count).map fun (offset : Nat) =>
      writeCounter counter (start + offset) (program.runFlow children))
    fun results => .done (Result.merge results)

/-- A counted loop. Its bounds belong to the range, and the whole range is held against the limit
before the first run. -/
def runForEach (program : Program) (activity : Activity) : Task :=
  match activity.counterVariable with
  | none => .failed (.invalid activity.id "missing counterVariable")
  | some counter =>
      measureBound activity activity.startValue "startValue" fun start =>
        measureBound activity activity.endValue "endValue" fun finish =>
          let span := finish - start + 1
          if span > program.settings.maxLoopIterations then program.hitIterationCap activity
          else if activity.parallel then
            program.runIterationsInParallel counter activity.children span.toNat start
          else program.runIterations counter activity.children span.toNat start

/-- The branch of the first event. -/
def runPick (program : Program) (activity : Activity) : Task :=
  match activity.eventHandlers with
  | [] => .completed
  | branch :: _ =>
      .announce (.eventSelected activity.id branch.event) <|
        program.lookup branch.activity fun target => .call target .part .done

/-- An activity that is one action. -/
def runAction (action : Action) (reply : action.Reply → Except ActivityError Unit) : Task :=
  .act action fun answer => .ofExcept (reply answer) fun _ => .completed

/-- How long a wait asks for: its duration, or else the time to its deadline, or else none. -/
def requestedWait (program : Program) (activity : Activity) : Except ActivityError Duration :=
  match activity.duration, activity.deadline with
  | some written, _ => written.resolve.mapError (.invalid activity.id)
  | none, some deadline => .ok (program.now.durationUntil deadline)
  | none, none => .ok .zero

/-- A wait, cut to the limit. The milliseconds it is announced with are a word of 64 bits. -/
def runWait (program : Program) (activity : Activity) : Task :=
  .ofExcept (program.requestedWait activity) fun requested =>
    let duration := program.settings.clampWait requested
    .announce (.waiting activity.id (duration.milliseconds % Word.count)) <|
      .wait duration .completed

/-- The fault that an activity throws, with the data that was found. -/
def thrownFault (activity : Activity) (data : Option Value) : Fault :=
  let name := activity.faultName.getD Fault.unhandled
  ⟨name, s!"fault {name} thrown by {activity.displayName}", data⟩

/-- Fails with a fault of its own. -/
def runThrow (activity : Activity) : Task :=
  match activity.faultVariable with
  | some path => .act (.read path) fun (data : Option Value) =>
      .failed (.raised (thrownFault activity data))
  | none => .failed (.raised (thrownFault activity none))

/-- Fails with the fault that is being handled. -/
def runRethrow : Task :=
  .act .currentFault fun (current : Option Fault) =>
    match current with
    | some fault => .failed (.raised fault)
    | none => .failed .nothingToRethrow

/-- Binds a fault and runs the recovery activity of its handler. The fault stays known to those who
rethrow until the recovery has ended without a failure. -/
def recover (program : Program) (handler : FaultHandler) (fault : Fault) : Task :=
  program.lookup handler.activity fun recovery =>
    .act (.catchFault handler fault) fun (reply : Except ActivityError Unit) =>
      .ofExcept reply fun _ =>
        (Task.call recovery .part .done).andThen fun outcome =>
          .act .clearFault fun _ => .done (.ok outcome)

/-- Sends the failure of a task to the handler of its fault, if there is one. -/
def withHandlers (program : Program) (task : Task) (handlers : List FaultHandler)
    (caught : Fault → FaultHandler → Event) : Task :=
  task.bind fun result =>
    match result with
    | .ok outcome => .done (.ok outcome)
    | .error error =>
        match FaultHandler.resolve? handlers error.toFault.name with
        | some handler =>
            .announce (caught error.toFault handler) (program.recover handler error.toFault)
        | none => .failed error

/-- The children as a sequence, under the handlers of the scope. -/
def runScope (program : Program) (activity : Activity) : Task :=
  program.withHandlers (program.runSequence activity.children) activity.faultHandlers
    fun fault handler => .scopeCaught activity.id fault.name handler.activity

/-- Runs the handlers of a plan in order and marks each scope as undone when its handler has ended. The
first failure ends the plan. -/
def runPlan (program : Program) : List CompensationStep → Task
  | [] => .completed
  | step :: steps =>
      program.lookup step.handlerId fun handler =>
        .announce (.scopeCompensating step.scopeId step.handlerId) <|
          (Task.call handler (.undoing step.scopeId) .done).andThen fun _ =>
            .act (.markCompensated step.scopeId) fun _ => program.runPlan steps

/-- Undoes the completed scopes that match a target. The plan is read once, at the beginning. -/
def compensateScopes (program : Program) (target : Option String) : Task :=
  .act (.plan program.definition target) fun (steps : List CompensationStep) =>
    program.runPlan steps

/-- Undoes a whole instance: every completed scope, and then what the process has to undo itself. -/
def compensateProcess (program : Program) : Task :=
  (program.compensateScopes none).andThen fun _ =>
    match program.definition.compensationHandler with
    | some id =>
        program.lookup id fun handler =>
          .announce (.processCompensating program.definition.id id) <|
            (Task.call handler .part .done).andThen fun _ => .completed
    | none => .completed

/-- What an activity does between its two marks. -/
def body (program : Program) (activity : Activity) : Task :=
  match activity.kind with
  | .sequence => program.runSequence activity.children
  | .flow => program.runFlow activity.children
  | .choice => program.runChoice activity
  | .whileLoop => program.runWhile activity program.settings.maxLoopIterations
  | .repeatUntil => program.runRepeatUntil activity program.settings.maxLoopIterations
  | .forEach => program.runForEach activity
  | .pick => program.runPick activity
  | .invoke => runAction (.invoke activity) id
  | .receive => runAction (.receive activity) id
  | .reply => runAction (.respond activity) fun _ => .ok ()
  | .assign => runAction (.assign activity.copies) id
  | .wait => program.runWait activity
  | .throw => runThrow activity
  | .rethrow => runRethrow
  | .scope => program.runScope activity
  | .compensate => program.compensateScopes activity.target
  | .compensateScope => program.compensateScopes activity.target
  | .empty => .completed
  | .validate => .completed
  | .exit => .act (.exit activity.id) fun _ => .halted
  | .unsupported => .failed (.unsupportedKind activity.id)

/-- The execution of one activity and nothing else. Its definition comes into it when it is performed. -/
def execute (_ : Program) (activity : Activity) : Task := .call activity .part .done

/-- The execution of a root activity under the handlers of the process. -/
def run (program : Program) (root : Activity) : Task :=
  program.withHandlers (.call root .part .done) program.definition.faultHandlers fun fault handler =>
    .processCaught program.definition.id fault.name handler.activity

end Program

end Orchestration
