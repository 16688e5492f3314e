import Orchestration.Failure
import Orchestration.Instance

/-!
# Refusals

Why an engine does not do what it is asked to.
-/

namespace Orchestration

/-- The operations that are allowed in some statuses of an instance only. -/
inductive Transition where
  | suspend
  | resume
  | terminate
  | compensate
  deriving DecidableEq, Repr

namespace Transition

/-- The name of an operation. -/
def name : Transition → String
  | .suspend => "suspend"
  | .resume => "resume"
  | .terminate => "terminate"
  | .compensate => "compensate"

/-- The statuses in which an operation is allowed. -/
def isAllowedIn : Transition → InstanceStatus → Bool
  | .suspend, status => status = .active
  | .resume, status => status = .suspended
  | .terminate, status => !status.isTerminal
  | .compensate, status => status = .completed || status = .faulted

end Transition

/-- Why an operation is refused. -/
inductive Refusal where
  | alreadyDeployed (processId : String)
  | notDeployed (processId : String)
  | disabled (processId : String)
  | unknownInstance (instanceId : String)
  | notAllowed (transition : Transition) (status : InstanceStatus)
  deriving DecidableEq, Repr

namespace Refusal

/-- A refusal as the failure of an operation. -/
def toFailure : Refusal → Failure
  | .alreadyDeployed id =>
      ((Failure.ofMessage .deployment s!"process {id} is already deployed").withCode
        "PFX-DEPLOY-001").addContext "process_id" id
  | .notDeployed id =>
      ((Failure.ofMessage .deployment s!"process {id} is not deployed").withCode
        "PFX-DEPLOY-002").addContext "process_id" id
  | .disabled id =>
      ((Failure.ofMessage .deployment s!"process {id} is disabled").withCode
        "PFX-START-001").addContext "process_id" id
  | .unknownInstance id =>
      ((Failure.ofMessage .lifecycle s!"instance {id} not found").withCode
        "PFX-LIFE-001").addContext "instance_id" id
  | .notAllowed transition status =>
      (((Failure.ofMessage .lifecycle
        s!"cannot {transition.name} instance in status {status.name}").withCode
        "PFX-LIFE-002").addContext "operation" transition.name).addContext "status" status.name

end Refusal

end Orchestration
