import Orchestration.Fault

/-!
# Instances

An instance is one run of a definition: its variables, the status of every activity that has begun, and
a log with one entry for every activity that has ended.
-/

namespace Orchestration

/-- Where an instance stands as a whole. -/
inductive InstanceStatus where
  | active
  | suspended
  | completed
  | faulted
  | terminated
  | compensating
  | compensated
  deriving DecidableEq, Repr

namespace InstanceStatus

/-- The name of a status. -/
def name : InstanceStatus → String
  | .active => "active"
  | .suspended => "suspended"
  | .completed => "completed"
  | .faulted => "faulted"
  | .terminated => "terminated"
  | .compensating => "compensating"
  | .compensated => "compensated"

/-- Every status. -/
def all : List InstanceStatus :=
  [.active, .suspended, .completed, .faulted, .terminated, .compensating, .compensated]

/-- The status of a name. -/
def ofName? (name : String) : Option InstanceStatus :=
  all.find? fun status => status.name = name

/-- The statuses in which an instance can no longer be terminated. -/
def isTerminal : InstanceStatus → Bool
  | .completed => true
  | .faulted => true
  | .terminated => true
  | _ => false

/-- The statuses in which a sequence stops before its next child. -/
def isHalting : InstanceStatus → Bool
  | .suspended => true
  | .terminated => true
  | _ => false

end InstanceStatus

/-- Where an activity of an instance stands. -/
inductive ActivityStatus where
  | executing
  | completed
  | faulted
  /-- Ended early because its instance was suspended or terminated. -/
  | interrupted
  | compensated
  deriving DecidableEq, Repr

namespace ActivityStatus

/-- The name of a status. -/
def name : ActivityStatus → String
  | .executing => "executing"
  | .completed => "completed"
  | .faulted => "faulted"
  | .interrupted => "interrupted"
  | .compensated => "compensated"

/-- Every status. -/
def all : List ActivityStatus :=
  [.executing, .completed, .faulted, .interrupted, .compensated]

/-- The status of a name. -/
def ofName? (name : String) : Option ActivityStatus :=
  all.find? fun status => status.name = name

end ActivityStatus

/-- How an activity ended that did not fail. -/
inductive Outcome where
  | completed
  /-- It stopped before its work was done. -/
  | halted
  deriving DecidableEq, Repr

/-- What an activity ends with. -/
abbrev Result := Except ActivityError Outcome

/-- The status of an activity that has ended. -/
def ActivityStatus.ofResult : Result → ActivityStatus
  | .ok .completed => .completed
  | .ok .halted => .interrupted
  | .error _ => .faulted

/-- The message of a failure, if an activity ended with one. -/
def Result.message? : Result → Option String
  | .ok _ => none
  | .error error => some error.message

/-- The result of branches that have all ended: the first failure in the order of the branches, or else
halted when any branch was. -/
def Result.merge : List Result → Result
  | [] => .ok .completed
  | .error error :: _ => .error error
  | .ok .completed :: results => Result.merge results
  | .ok .halted :: results => (Result.merge results).map fun _ => .halted

/-- The record of an activity that has ended. -/
structure LogEntry where
  activityId : String
  activityName : String
  kind : ActivityKind
  status : ActivityStatus
  error : Option String
  deriving DecidableEq, Repr

/-- An instance of a process. -/
structure Instance where
  id : String
  processId : String
  status : InstanceStatus
  /-- The activities that have begun, in the order in which they first did. -/
  activityStatuses : List (String × ActivityStatus)
  bag : Bag
  log : Array LogEntry
  fault : Option Fault
  /-- True once the time of the end has been noted. -/
  finished : Bool
  initiatedBy : String

namespace Instance

/-- An instance that has just begun. -/
def new (id processId : String) (bag : Bag) (initiatedBy : String) : Instance where
  id := id
  processId := processId
  status := .active
  activityStatuses := []
  bag := bag
  log := #[]
  fault := none
  finished := false
  initiatedBy := initiatedBy

/-- Puts the status of an activity at its place, or at the end for one that has not begun before. -/
def putStatus (id : String) (status : ActivityStatus) :
    List (String × ActivityStatus) → List (String × ActivityStatus)
  | [] => [(id, status)]
  | (present, old) :: rest =>
      if present = id then (present, status) :: rest
      else (present, old) :: putStatus id status rest

/-- The status of an activity, if it has begun. -/
def activityStatus? (id : String) (target : Instance) : Option ActivityStatus :=
  (target.activityStatuses.find? fun entry => entry.1 = id).map Prod.snd

/-- Sets the status of an activity. -/
def setActivityStatus (id : String) (status : ActivityStatus) (target : Instance) : Instance :=
  { target with activityStatuses := putStatus id status target.activityStatuses }

/-- Moves an instance to a status and notes the time of the end. -/
def finish (status : InstanceStatus) (target : Instance) : Instance :=
  { target with status := status, finished := true }

end Instance

end Orchestration
