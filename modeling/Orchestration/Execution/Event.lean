import Orchestration.Instance

/-!
# Events

What happens in an engine that somebody watching it is told about. An event says what happened and to
whom; how grave it is and how it is worded belongs to the journal.
-/

namespace Orchestration

/-- Which callbacks of an instance's end are meant. -/
inductive Hook where
  | completed
  | faulted
  deriving DecidableEq, Repr

/-- Something that happened. -/
inductive Event where
  | activityExecuting (id : String) (kind : ActivityKind)
  | activityFaulted (id : String) (error : String)
  | exitReached (id : String)
  | iterationCapHit (id : String) (limit : Nat)
  | eventSelected (id : String) (event : String)
  | partnerInvoked (id partnerLink operation : String)
  | messageFound (id path : String)
  | replied (id partnerLink operation : String) (payload : Value)
  | waiting (id : String) (milliseconds : Nat)
  | scopeCaught (scopeId faultName handler : String)
  | processCaught (processId faultName handler : String)
  | scopeCompensating (scopeId handler : String)
  | processCompensating (processId handler : String)
  | processDeployed (processId version : String) (activities : Nat)
  | processUndeployed (processId : String)
  | instanceStarted (processId instanceId initiatedBy : String)
  | rootMissing (instanceId root : String)
  | instanceCompleted (instanceId : String)
  | instanceFaulted (instanceId faultName : String)
  | instanceStopped (instanceId : String) (status : InstanceStatus)
  | instanceSuspended (instanceId : String)
  | instanceResumed (instanceId : String)
  | instanceTerminated (instanceId : String)
  | instanceCompensating (instanceId : String)
  | instanceCompensated (instanceId : String)
  | compensationFailed (instanceId error : String)
  | callbackFailed (instanceId : String) (hook : Hook) (error : String)
  | callbackPanicked (instanceId : String) (hook : Hook)

end Orchestration
