import Orchestration.Proofs.Order
import Orchestration.Proofs.Plans
import Orchestration.Proofs.Recording

/-!
# What becomes of a failure

A scope, and a process as a whole, sends the failure of what it does to one of its handlers: the first
that names the fault, or else the first that takes every fault. The recovery activity of that handler is
executed once, and whatever goes wrong on the way to it or in it is how the scope ends. A failure that
no handler takes is how it ends too.

`Program.Handles` says this of the records of a single execution, and by
`Record.Owner.Does.handled` it is so at every level of what a run has done.
-/

namespace Orchestration

namespace FaultHandler

/-- That a handler is the first of all that are for a name. -/
def IsFirst (handlers : List FaultHandler) (name : String) (handler : FaultHandler) : Prop :=
  handler.faultName = name ∧ ∃ before after, handlers = before ++ handler :: after ∧
    ∀ earlier ∈ before, earlier.faultName ≠ name

/-- That a handler is the one for a fault: the first of those that name it, or, if there is none, the
first of those that take every fault. -/
def Takes (handlers : List FaultHandler) (fault : Fault) (handler : FaultHandler) : Prop :=
  handler.IsFirst handlers fault.name ∨
    ((∀ other ∈ handlers, other.faultName ≠ fault.name) ∧ handler.IsFirst handlers Fault.wildcard)

/-- That no handler is for a fault. -/
def Untaken (handlers : List FaultHandler) (fault : Fault) : Prop :=
  ∀ handler ∈ handlers, handler.faultName ≠ fault.name ∧ handler.faultName ≠ Fault.wildcard

variable {handlers : List FaultHandler}

/-- The handler that is found under a name is the first of those with it. -/
theorem find?_eq_some_iff {name : String} {handler : FaultHandler} :
    (handlers.find? fun handler => handler.faultName = name) = some handler ↔
      IsFirst handlers name handler := by
  simp only [List.find?_eq_some_iff_append, IsFirst, decide_eq_true_eq, Bool.not_eq_true',
    decide_eq_false_iff_not, ne_eq]

/-- No handler is found under a name that none has. -/
theorem find?_eq_none_iff {name : String} :
    (handlers.find? fun handler => handler.faultName = name) = none ↔
      ∀ handler ∈ handlers, handler.faultName ≠ name := by
  simp

/-- The handler that is found is the one for the fault. -/
theorem resolve?_eq_some_iff {fault : Fault} {handler : FaultHandler} :
    resolve? handlers fault.name = some handler ↔ Takes handlers fault handler := by
  rw [resolve?, Option.or_eq_some_iff, find?_eq_some_iff, find?_eq_none_iff, find?_eq_some_iff]
  rfl

/-- No handler is chosen for a fault that none is for. -/
theorem resolve?_eq_none_iff {fault : Fault} :
    resolve? handlers fault.name = none ↔ Untaken handlers fault := by
  rw [resolve?, Option.or_eq_none_iff, find?_eq_none_iff, find?_eq_none_iff]
  constructor
  · intro absent handler present
    exact ⟨absent.1 handler present, absent.2 handler present⟩
  · intro untaken
    constructor
    · exact fun handler present => (untaken handler present).1
    · exact fun handler present => (untaken handler present).2

/-- No handler is for the fault if none is found. -/
theorem Takes.not_untaken {fault : Fault} {handler : FaultHandler}
    (takes : Takes handlers fault handler) : ¬ Untaken handlers fault := by
  intro untaken
  rw [← resolve?_eq_some_iff] at takes
  rw [← resolve?_eq_none_iff, takes] at untaken
  cases untaken

end FaultHandler

namespace Program

/-- What is done about a failure, and what it comes to. -/
inductive Routes (program : Program) (handlers : List FaultHandler) (error : ActivityError) :
    List Record → Option Result → Prop where
  /-- No handler is for it, and it goes on unchanged. -/
  | passed {result? : Option Result} (untaken : FaultHandler.Untaken handlers error.toFault)
      (ends : result? = none ∨ result? = some (.error error)) : Routes program handlers error [] result?
  /-- The recovery activity does not exist. -/
  | missing {handler : FaultHandler} {event : Event} {result? : Option Result}
      (takes : handler.Takes handlers error.toFault)
      (absent : program.definition.activity? handler.activity = none)
      (ends : result? = none ∨ result? = some (.error (.childNotFound handler.activity))) :
      Routes program handlers error [.performed (.announce event) ()] result?
  /-- The fault cannot be bound. -/
  | unbound {handler : FaultHandler} {event : Event} {recovery : Activity} {failure : ActivityError}
      {result? : Option Result} (takes : handler.Takes handlers error.toFault)
      (found : program.definition.activity? handler.activity = some recovery)
      (ends : result? = none ∨ result? = some (.error failure)) :
      Routes program handlers error
        [.performed (.announce event) (),
          .performed (.catchFault handler error.toFault) (.error failure)] result?
  /-- The recovery activity fails. -/
  | relapsed {handler : FaultHandler} {event : Event} {recovery : Activity} {within : List Record}
      {failure : ActivityError} {result? : Option Result}
      (takes : handler.Takes handlers error.toFault)
      (found : program.definition.activity? handler.activity = some recovery)
      (ends : result? = none ∨ result? = some (.error failure)) :
      Routes program handlers error
        [.performed (.announce event) (), .performed (.catchFault handler error.toFault) (.ok ()),
          .executed recovery .part within (some (.error failure))] result?
  /-- The recovery activity ends without a failure, and so does whoever runs it. -/
  | recovered {handler : FaultHandler} {event : Event} {recovery : Activity} {within : List Record}
      {outcome : Outcome} {result? : Option Result}
      (takes : handler.Takes handlers error.toFault)
      (found : program.definition.activity? handler.activity = some recovery)
      (ends : result? = none ∨ result? = some (.ok outcome)) :
      Routes program handlers error
        [.performed (.announce event) (), .performed (.catchFault handler error.toFault) (.ok ()),
          .executed recovery .part within (some (.ok outcome)), .performed .clearFault ()] result?
  /-- The handler is known, and nothing has been done yet. -/
  | chosen {handler : FaultHandler} (takes : handler.Takes handlers error.toFault) :
      Routes program handlers error [] none
  /-- The recovery activity is found, and no more has been done yet than so much. -/
  | underway {handler : FaultHandler} {event : Event} {recovery : Activity} {within : List Record}
      {ended? : Option Result} {records : List Record}
      (takes : handler.Takes handlers error.toFault)
      (found : program.definition.activity? handler.activity = some recovery)
      (early : records <+: [.performed (.announce event) (),
        .performed (.catchFault handler error.toFault) (.ok ()),
        .executed recovery .part within ended?]) : Routes program handlers error records none

/-- What is done of a task whose failure is sent to handlers: the task alone, or the task up to its
failure and then what is done about that. -/
def Handles (program : Program) (task : Task) (handlers : List FaultHandler) (records : List Record)
    (result? : Option Result) : Prop :=
  (task.Unfolds program records result? ∧ ∀ error, result? ≠ some (.error error)) ∨
    ∃ first rest error, records = first ++ rest ∧ task.Unfolds program first (some (.error error)) ∧
      program.Routes handlers error rest result?

variable {program : Program} {records : List Record} {result? : Option Result}

open Routes in
/-- What is done about a failure once its handler is found. -/
theorem routes_of_recover {handlers : List FaultHandler} {error : ActivityError}
    {handler : FaultHandler} {event : Event} (takes : handler.Takes handlers error.toFault)
    (unfolds : (program.recover handler error.toFault).Unfolds program records result?) :
    program.Routes handlers error (.performed (.announce event) () :: records) result? := by
  unfold recover lookup at unfolds
  cases found : program.definition.activity? handler.activity with
  | none =>
      rw [found] at unfolds
      obtain ⟨rfl, ends⟩ := unfolds.of_done
      exact .missing takes found ends
  | some recovery =>
      rw [found] at unfolds
      cases unfolds with
      | rest =>
          exact @underway _ _ _ handler event recovery [] none _ takes found
            (List.prefix_append [_] [_, _])
      | @act _ _ reply _ _ bound =>
          change Except ActivityError Unit at reply
          cases reply with
          | error failure =>
              obtain ⟨rfl, ends⟩ := bound.of_done
              exact .unbound takes found ends
          | ok =>
              cases bound with
              | rest =>
                  exact @underway _ _ _ handler event recovery [] none _ takes found
                    (List.prefix_append [_, _] [_])
              | inside begun => exact .underway takes found List.prefix_rfl
              | @call _ _ _ within _ result _ ended continues =>
                  cases result with
                  | error failure =>
                      obtain ⟨rfl, ends⟩ := continues.of_done
                      exact .relapsed takes found ends
                  | ok outcome =>
                      cases continues with
                      | rest => exact .underway takes found List.prefix_rfl
                      | act forgotten =>
                          obtain ⟨rfl, ends⟩ := forgotten.of_done
                          exact .recovered takes found ends

/-- What is done of a task under handlers. -/
theorem handles_withHandlers {task : Task} {handlers : List FaultHandler}
    {caught : Fault → FaultHandler → Event}
    (unfolds : (program.withHandlers task handlers caught).Unfolds program records result?) :
    program.Handles task handlers records result? := by
  rcases unfolds.of_bind with ⟨first, rfl⟩ | ⟨first, rest, result, rfl, firstUnfolds, routed⟩
  · exact .inl ⟨first, nofun⟩
  · cases result with
    | ok outcome =>
        obtain ⟨rfl, ends⟩ := routed.of_done
        rw [List.append_nil]
        rcases ends with rfl | rfl
        · exact .inl ⟨firstUnfolds.stopped, nofun⟩
        · exact .inl ⟨firstUnfolds, nofun⟩
    | error error =>
        refine .inr ⟨first, rest, error, rfl, firstUnfolds, ?_⟩
        dsimp only at routed
        cases chosen : FaultHandler.resolve? handlers error.toFault.name with
        | none =>
            rw [chosen] at routed
            obtain ⟨rfl, ends⟩ := routed.of_done
            exact .passed (FaultHandler.resolve?_eq_none_iff.mp chosen) ends
        | some handler =>
            rw [chosen] at routed
            have takes := FaultHandler.resolve?_eq_some_iff.mp chosen
            cases routed with
            | rest => exact .chosen takes
            | act continues => exact routes_of_recover takes continues

/-- That something is done about a failure: an action of a scope, or the execution of a part. -/
def IsRouting : Record → Prop
  | .performed action _ => ActivityKind.scope.performs action = true
  | .executed _ role _ _ => role = .part
  | .branched _ => False

/-- All that is done about a failure is to catch it, to recover, and to end the handling. -/
theorem Routes.isRouting {handlers : List FaultHandler} {error : ActivityError}
    (routes : program.Routes handlers error records result?) :
    ∀ record ∈ records, IsRouting record := by
  cases routes with
  | passed => simp
  | missing => simp [IsRouting, ActivityKind.performs, Action.isPlain]
  | unbound => simp [IsRouting, ActivityKind.performs, Action.isPlain]
  | relapsed => simp [IsRouting, ActivityKind.performs, Action.isPlain]
  | recovered => simp [IsRouting, ActivityKind.performs, Action.isPlain]
  | chosen => simp
  | @underway handler event recovery within ended? _ takes found early =>
      have whole : ∀ record ∈ [Record.performed (.announce event) (),
          .performed (.catchFault handler error.toFault) (.ok ()),
          .executed recovery .part within ended?], IsRouting record := by
        simp [IsRouting, ActivityKind.performs, Action.isPlain]
      exact fun record present => whole record (early.subset present)

/-- What is done of a task under handlers is what the task does in order, and then what is done about
its failure. -/
theorem Handles.isRouting_or {task : Task} {permitted : Action → Bool}
    {handlers : List FaultHandler} {record : Record} (orderly : task.Orderly permitted none)
    (handles : program.Handles task handlers records result?) (present : record ∈ records) :
    IsRouting record ∨ (record.Permitted permitted ∧ record.OrderlySides program) := by
  rcases handles with ⟨unfolds, _⟩ | ⟨first, rest, error, rfl, unfolds, routes⟩
  · exact .inr ((orderly.ordered unfolds).of_mem present)
  · rcases List.mem_append.mp present with inFirst | inRest
    · exact .inr ((orderly.ordered unfolds).of_mem inFirst)
    · exact .inl (routes.isRouting record inRest)

end Program

/-- The handlers that an activity sends its failures to. -/
def Activity.ownHandlers (activity : Activity) : List FaultHandler :=
  if activity.kind = .scope then activity.faultHandlers else []

namespace Record

/-- The handlers that the failures at a level are sent to. -/
def Owner.handlers (definition : Definition) : Owner → List FaultHandler
  | .whole => definition.faultHandlers
  | .execution activity _ => activity.ownHandlers
  | .side => []

/-- The actions that may be performed at a level. -/
def Owner.permits : Owner → Action → Bool
  | .whole, action => ActivityKind.scope.performs action || ActivityKind.compensate.performs action
  | .execution activity _, action => activity.kind.performs action
  | .side, action => action.isPlain

/-- That so much was done at a level. -/
def Owner.Does (program : Program) (whole : Task) : Owner → List Record → Option Result → Prop
  | .whole => whole.Unfolds program
  | .execution activity _ => (program.body activity).Unfolds program
  | .side => fun records result? => ∃ branch : Task,
      branch.Orderly Action.isPlain none ∧ branch.Unfolds program records result?

end Record

namespace Program

variable {program : Program} {records : List Record} {result? : Option Result}

/-- That records at a level are those of a task in order, and of what is done about its failure. -/
def Handled (program : Program) (handlers : List FaultHandler) (records : List Record)
    (result? : Option Result) : Prop :=
  ∃ (task : Task) (permitted : Action → Bool), task.Orderly permitted none ∧
    (∀ handler fault, permitted (.catchFault handler fault) = false) ∧
      program.Handles task handlers records result?

/-- A task without handlers is handled by passing its failure on. -/
theorem handled_of_orderly {task : Task} {permitted : Action → Bool}
    (orderly : task.Orderly permitted none)
    (uncaught : ∀ handler fault, permitted (.catchFault handler fault) = false)
    (unfolds : task.Unfolds program records result?) : program.Handled [] records result? := by
  refine ⟨task, permitted, orderly, uncaught, ?_⟩
  by_cases fails : ∃ error, result? = some (.error error)
  · obtain ⟨error, rfl⟩ := fails
    exact .inr ⟨records, [], error, by simp, unfolds, .passed nofun (.inr rfl)⟩
  · exact .inl ⟨unfolds, fun error isError => fails ⟨error, isError⟩⟩

/-- What a scope does is its children in a row, and what is done about their failure. -/
theorem handles_body {scope : Activity} (isScope : scope.kind = .scope)
    (unfolds : (program.body scope).Unfolds program records result?) :
    program.Handles (program.runSequence scope.children) scope.faultHandlers records result? := by
  unfold body at unfolds
  rw [isScope] at unfolds
  exact handles_withHandlers unfolds

/-- What an execution does is in order, and its failure is sent to its own handlers. -/
theorem handled_body {activity : Activity}
    (unfolds : (program.body activity).Unfolds program records result?) :
    program.Handled activity.ownHandlers records result? := by
  by_cases isScope : activity.kind = .scope
  · rw [Activity.ownHandlers, if_pos isScope]
    exact ⟨_, Action.isPlain, orderly_runSequence (fun _ => id) _ Record.passes_none,
      fun _ _ => rfl, handles_body isScope unfolds⟩
  · rw [Activity.ownHandlers, if_neg isScope]
    refine handled_of_orderly (orderly_body isScope) (fun handler fault => ?_) unfolds
    cases kind : activity.kind <;> first | rfl | exact absurd kind isScope

/-- The execution of a process sends its failures to the handlers of the process. -/
theorem handled_run {root : Activity}
    (unfolds : (program.run root).Unfolds program records result?) :
    program.Handled program.definition.faultHandlers records result? :=
  ⟨_, Action.isPlain, .callOnly Record.passes_none, fun _ _ => rfl, handles_withHandlers unfolds⟩

/-- In a task whose failure is sent to handlers, what was done in branches is in order. -/
theorem Handled.orderlySides {handlers : List FaultHandler} {record : Record}
    (handled : program.Handled handlers records result?) (present : record ∈ records) :
    record.OrderlySides program := by
  obtain ⟨task, permitted, orderly, _, handles⟩ := handled
  rcases handles.isRouting_or orderly present with routing | ⟨_, sides⟩
  · cases record with
    | branched => exact routing.elim
    | _ => trivial
  · exact sides

/-- The compensation of a process has no branches but those within executions. -/
theorem orderlySides_compensateProcess {record : Record}
    (unfolds : program.compensateProcess.Unfolds program records result?)
    (present : record ∈ records) : record.OrderlySides program := by
  cases record with
  | branched sides =>
      rcases carries_compensateProcess unfolds with ⟨rfl, _⟩ | ⟨plan, rest, rfl, carries⟩
      · cases present
      · have carrying := carries.isCarrying (.branched sides) (by simpa using present)
        exact carrying.elim
  | _ => trivial

/-- In the task of a run, what was done in branches is in order. -/
theorem Serves.orderlySides {purpose : RunPurpose} {task : Task} {record : Record}
    (serves : program.Serves purpose task) (unfolds : task.Unfolds program records result?)
    (present : record ∈ records) : record.OrderlySides program := by
  cases serves with
  | execution => exact (handled_run unfolds).orderlySides present
  | missingRoot =>
      obtain ⟨rfl, _⟩ := unfolds.of_done
      cases present
  | compensation => exact orderlySides_compensateProcess unfolds present

/-- An activity performs the actions of its kind only. -/
theorem permits_body {activity : Activity} {action : Action} {reply : action.Reply}
    (unfolds : (program.body activity).Unfolds program records result?)
    (present : .performed action reply ∈ records) : activity.kind.performs action = true := by
  by_cases isScope : activity.kind = .scope
  · have orderly : (program.runSequence activity.children).Orderly Action.isPlain none :=
      orderly_runSequence (fun _ => id) _ Record.passes_none
    rw [isScope]
    rcases (handles_body isScope unfolds).isRouting_or orderly present with routing | ⟨isPlain, _⟩
    · exact routing
    · have isPlain : action.isPlain = true := isPlain
      simp [ActivityKind.performs, isPlain]
  · exact (((orderly_body isScope).ordered unfolds).of_mem present).1

/-- The execution of a process performs the actions of a scope only, outside of executions. -/
theorem performs_run {root : Activity} {action : Action} {reply : action.Reply}
    (unfolds : (program.run root).Unfolds program records result?)
    (present : .performed action reply ∈ records) : ActivityKind.scope.performs action = true := by
  have orderly : (Task.call root .part .done).Orderly Action.isPlain none :=
    .callOnly Record.passes_none
  rcases (handles_withHandlers unfolds).isRouting_or orderly present with routing | ⟨isPlain, _⟩
  · exact routing
  · have isPlain : action.isPlain = true := isPlain
    simp [ActivityKind.performs, isPlain]

/-- A run performs the actions of a scope or of a compensation only, outside of executions. -/
theorem Serves.permits {purpose : RunPurpose} {task : Task} {action : Action}
    {reply : action.Reply} (serves : program.Serves purpose task)
    (unfolds : task.Unfolds program records result?) (present : .performed action reply ∈ records) :
    Record.Owner.whole.permits action = true := by
  rw [Record.Owner.permits, Bool.or_eq_true]
  cases serves with
  | execution => exact .inl (performs_run unfolds present)
  | missingRoot =>
      obtain ⟨rfl, _⟩ := unfolds.of_done
      cases present
  | compensation =>
      rcases carries_compensateProcess unfolds with ⟨rfl, _⟩ | ⟨plan, rest, rfl, carries⟩
      · cases present
      · rcases List.mem_cons.mp present with isPlan | inRest
        · cases isPlan
          exact .inr rfl
        · rcases carries.isCarrying _ inRest with ⟨event, rfl⟩ | ⟨scopeId, rfl⟩
          · exact .inr rfl
          · exact .inr rfl

end Program

namespace Record

variable {program : Program} {task : Task} {purpose : RunPurpose} {records inner : List Record}
  {result? inner? : Option Result} {owner : Owner}

namespace Owner.Does

/-- What was done inside of an execution at a level. -/
theorem inside {activity : Activity} {role : Role} {within : List Record} {ended? : Option Result}
    (does : owner.Does program task inner inner?)
    (present : .executed activity role within ended? ∈ inner) :
    (Owner.execution activity role).Does program task within ended? := by
  cases owner with
  | whole => exact Task.Unfolds.executed does present
  | execution => exact Task.Unfolds.executed does present
  | side =>
      obtain ⟨branch, _, unfolds⟩ := does
      exact unfolds.executed present

/-- What was done in a branch at a level. -/
theorem aside {sides : List (List Record × Option Result)} {side : List Record × Option Result}
    (does : owner.Does program task inner inner?) (serves : program.Serves purpose task)
    (forked : .branched sides ∈ inner) (present : side ∈ sides) :
    Owner.side.Does program task side.1 side.2 := by
  have orderly : (Record.branched sides).OrderlySides program := by
    cases owner with
    | whole => exact serves.orderlySides does forked
    | execution => exact (Program.handled_body does).orderlySides forked
    | side =>
        obtain ⟨branch, orderly, unfolds⟩ := does
        exact ((orderly.ordered unfolds).of_mem forked).2
  exact orderly side present

/-- Only what an owner may do is done at its level. -/
theorem permits {action : Action} {reply : action.Reply}
    (does : owner.Does program task inner inner?) (serves : program.Serves purpose task)
    (present : .performed action reply ∈ inner) : owner.permits action = true := by
  cases owner with
  | whole => exact serves.permits does present
  | execution => exact Program.permits_body does present
  | side =>
      obtain ⟨branch, orderly, unfolds⟩ := does
      exact ((orderly.ordered unfolds).of_mem present).1

/-- At every level of an execution the failure is sent to the handlers of the level. -/
theorem handled (does : owner.Does program task inner inner?) (serves : program.Serves purpose task)
    (executes : owner = .whole → purpose = .execution) :
    program.Handled (owner.handlers program.definition) inner inner? := by
  cases owner with
  | whole =>
      cases executes rfl
      cases serves with
      | execution => exact Program.handled_run does
  | execution => exact Program.handled_body does
  | side =>
      obtain ⟨branch, orderly, unfolds⟩ := does
      exact Program.handled_of_orderly orderly (fun _ _ => rfl) unfolds

end Owner.Does

/-- What was done at every level of what a run has done. -/
theorem Level.does (level : Level records result? owner inner inner?)
    (serves : program.Serves purpose task) (unfolds : task.Unfolds program records result?) :
    owner.Does program task inner inner? := by
  induction level with
  | whole => exact unfolds
  | inside _ present inductionHypothesis => exact inductionHypothesis.inside present
  | aside _ forked present inductionHypothesis =>
      exact inductionHypothesis.aside serves forked present

end Record

/-- That a run which has made some moves performs an action next, and where: at the end of a path in what
it has done, after what was done before at its level. -/
structure Run.Performs (moves : List Move) (path : List (List Record)) (owner : Record.Owner)
    (before : List Record) (action : Action) (reply : action.Reply) (run next : Run) : Prop where
  same : next.program = run.program ∧ next.purpose = run.purpose
  isLast : path.getLast? = some before
  placed : ∃ task records later ended?, run.Recorded moves task records ∧
    next.Recorded (moves ++ [.performed action reply]) task later ∧
    Record.Grows path records (.performed action reply) later ∧
    Record.Level later next.thread.result? owner (before ++ [.performed action reply]) ended?

/-- What was done at the level of an action, with the action. -/
theorem Run.Performs.does {moves : List Move} {path : List (List Record)} {owner : Record.Owner}
    {before : List Record} {action : Action} {reply : action.Reply} {run next : Run}
    (performs : run.Performs moves path owner before action reply next) :
    ∃ task ended?, run.program.Serves run.purpose task ∧
      owner.Does run.program task (before ++ [.performed action reply]) ended? := by
  obtain ⟨task, _, _, ended?, _, recorded, _, isLevel⟩ := performs.placed
  have does := isLevel.does recorded.serves recorded.unfolds
  rw [performs.same.1] at does
  refine ⟨task, ended?, ?_, does⟩
  rw [← performs.same.1, ← performs.same.2]
  exact recorded.serves

/-- An action is performed on the instance of its run, somewhere in what the run does. -/
theorem Life.performs {stages : List Stage} {situation next : Situation} {action : Action}
    {reply : action.Reply} (life : Life stages situation)
    (happened : situation.Step (.moved (.performed action reply)) next) :
    ((action.perform situation.subject).reply = reply ∧
        (action.perform situation.subject).subject = next.subject) ∧
      ∃ run nextRun path owner before, situation.run? = some run ∧ next.run? = some nextRun ∧
        run.Performs (Stage.movesOf stages) path owner before action reply nextRun := by
  obtain ⟨scene, nextScene, isSubject, isNext, acts⟩ := happened.acts
  obtain ⟨acted, replied⟩ := Prod.mk.inj acts
  rw [← isSubject, ← isNext, ← acted]
  refine ⟨⟨replied, rfl⟩, ?_⟩
  obtain ⟨run, nextRun, task, records, later, path, isRun, isNextRun, same, recorded, nextRecorded,
    grows⟩ := life.grows happened
  obtain ⟨before, owner, ended?, isLast, isLevel⟩ := grows.level nextRun.thread.result?
  exact ⟨run, nextRun, path, owner, before, isRun, isNextRun, same, isLast, task, records, later,
    ended?, recorded, nextRecorded, grows, isLevel⟩

end Orchestration
