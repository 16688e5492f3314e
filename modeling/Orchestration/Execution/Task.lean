import Orchestration.Execution.Action

/-!
# Tasks

A task is what is still to be done of an activity: the next action on the instance, the next activity to
run, a wait, or branches that run side by side. A task only says what it wants next; in which order
branches move, and what others do to the instance in the meantime, is decided by whoever performs it.

The task of an activity is a finite tree even when activities refer to each other in a circle, because
it names the activities that it runs and does not contain them.
-/

namespace Orchestration

/-- What an activity is called for. Its execution is the same either way. -/
inductive Role where
  /-- It is a part of what its caller does. -/
  | part
  /-- It is the handler that undoes a scope. -/
  | undoing (scopeId : String)
  deriving DecidableEq, Repr

/-- What is still to be done. -/
inductive Task where
  /-- Nothing: the activity has ended. -/
  | done (result : Result)
  /-- An action on the instance, and what follows its reply. -/
  | act (action : Action) (next : action.Reply → Task)
  /-- Another activity, and what follows its end. -/
  | call (activity : Activity) (role : Role) (next : Result → Task)
  /-- A time in which this task does nothing. -/
  | wait (duration : Duration) (next : Task)
  /-- Branches side by side, and what follows when all of them have ended. -/
  | fork (branches : List Task) (join : List Result → Task)

namespace Task

/-- Goes on with a second task where the first one ends. -/
def bind (task : Task) (next : Result → Task) : Task :=
  match task with
  | .done result => next result
  | .act action continuation => .act action fun reply => (continuation reply).bind next
  | .call activity role continuation =>
      .call activity role fun result => (continuation result).bind next
  | .wait duration continuation => .wait duration (continuation.bind next)
  | .fork branches join => .fork branches fun results => (join results).bind next

/-- Goes on only if the first task ended without a failure. -/
def andThen (task : Task) (next : Outcome → Task) : Task :=
  task.bind fun result =>
    match result with
    | .ok outcome => next outcome
    | .error error => .done (.error error)

/-- Goes on only if the first task completed; a task that halted stays halted. -/
def whenCompleted (task : Task) (next : Task) : Task :=
  task.andThen fun outcome =>
    match outcome with
    | .completed => next
    | .halted => .done (.ok .halted)

/-- Nothing more to do, and all of it done. -/
def completed : Task := .done (.ok .completed)

/-- Stopped before the work was done. -/
def halted : Task := .done (.ok .halted)

/-- Ended by a failure. -/
def failed (error : ActivityError) : Task := .done (.error error)

/-- Goes on with what was computed, or fails with the reason why it was not. -/
def ofExcept {α : Type} (computed : Except ActivityError α) (next : α → Task) : Task :=
  match computed with
  | .ok value => next value
  | .error error => failed error

/-- Lets an event be known. -/
def announce (event : Event) (next : Task) : Task :=
  .act (.announce event) fun _ => next

/-- What follows a task that is done begins with its result. -/
@[simp]
theorem bind_done (result : Result) (next : Result → Task) :
    (Task.done result).bind next = next result := rfl

/-- Ending where the task ends changes nothing. -/
@[simp]
theorem bind_done_right (task : Task) : task.bind .done = task := by
  induction task using Task.rec (motive_2 := fun _ => True) with
  | done => rfl
  | act action next inductionHypothesis => simp [bind, inductionHypothesis]
  | call activity role next inductionHypothesis => simp [bind, inductionHypothesis]
  | wait duration next inductionHypothesis => simp [bind, inductionHypothesis]
  | fork branches join _ inductionHypothesis => simp [bind, inductionHypothesis]
  | nil => trivial
  | cons => trivial

/-- Going on twice is going on once with both. -/
theorem bind_bind (task : Task) (first second : Result → Task) :
    (task.bind first).bind second = task.bind fun result => (first result).bind second := by
  induction task using Task.rec (motive_2 := fun _ => True) with
  | done => rfl
  | act action next inductionHypothesis => simp [bind, inductionHypothesis]
  | call activity role next inductionHypothesis => simp [bind, inductionHypothesis]
  | wait duration next inductionHypothesis => simp [bind, inductionHypothesis]
  | fork branches join _ inductionHypothesis => simp [bind, inductionHypothesis]
  | nil => trivial
  | cons => trivial

end Task

end Orchestration
