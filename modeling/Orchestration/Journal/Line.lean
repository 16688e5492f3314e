import Orchestration.Execution.Event
import Orchestration.Journal.Level
import Orchestration.Text.Literal
import Orchestration.Value.Written

/-!
# Lines

An event in words: its level, a message that is the same for all events of the kind, and what is
particular to this one as fields in a fixed order. A line is written either as one line of text or as a
record.
-/

namespace Orchestration.Journal

/-- What stands in a field. -/
inductive FieldContent where
  /-- A text that is written as it is. -/
  | shown (text : String)
  /-- A text that stands between quotes in a line of text. -/
  | quoted (text : String)
  | count (number : Nat)
  deriving DecidableEq, Repr

namespace FieldContent

/-- The content of a field in a line of text. -/
def text : FieldContent → String
  | .shown text => text
  | .quoted text => Text.literal text
  | .count number => toString number

/-- The content of a field in a record. -/
def value : FieldContent → Value
  | .shown text => .text text
  | .quoted text => .text text
  | .count number => .integer number

end FieldContent

/-- An event in words. -/
structure Line where
  level : Level
  message : String
  fields : List (String × FieldContent)
  deriving DecidableEq, Repr

namespace Line

/-- The level, the message and the fields in one line. -/
def text (line : Line) : String :=
  " ".intercalate (line.level.label :: line.message ::
    line.fields.map fun (name, content) => name ++ "=" ++ content.text)

/-- The message and the fields as a record. -/
def record (line : Line) : Value :=
  .record (Bag.ofList (("message", .text line.message) ::
    line.fields.map fun (name, content) => (name, content.value)))

end Line

/-- The name of a hook. -/
def hookName : Hook → String
  | .completed => "completed"
  | .faulted => "faulted"

/-- The words for an event. -/
def Line.ofEvent : Event → Line
  | .activityExecuting id kind =>
      ⟨.debugging, "executing activity", [("activity_id", .shown id), ("kind", .shown kind.name)]⟩
  | .activityFaulted id error =>
      ⟨.debugging, "activity faulted", [("activity_id", .shown id), ("error", .shown error)]⟩
  | .exitReached id =>
      ⟨.information, "exit activity terminated the instance", [("activity_id", .shown id)]⟩
  | .iterationCapHit id limit =>
      ⟨.warning, "loop hit the iteration cap",
        [("activity_id", .shown id), ("limit", .count limit)]⟩
  | .eventSelected id event =>
      ⟨.debugging, "pick selected event", [("activity_id", .shown id), ("event", .shown event)]⟩
  | .partnerInvoked id partnerLink operation =>
      ⟨.information, "simulated invoke",
        [("activity_id", .shown id), ("partner_link", .shown partnerLink),
          ("operation", .shown operation)]⟩
  | .messageFound id path =>
      ⟨.debugging, "receive found delivered message",
        [("activity_id", .shown id), ("variable", .shown path)]⟩
  | .replied id partnerLink operation payload =>
      ⟨.information, "reply",
        [("activity_id", .shown id), ("partner_link", .quoted partnerLink),
          ("operation", .quoted operation), ("payload", .shown payload.toJson)]⟩
  | .waiting id milliseconds =>
      ⟨.debugging, "waiting", [("activity_id", .shown id), ("delay_ms", .count milliseconds)]⟩
  | .scopeCaught scopeId faultName handler =>
      ⟨.information, "scope caught fault",
        [("scope_id", .shown scopeId), ("fault", .shown faultName), ("handler", .shown handler)]⟩
  | .processCaught processId faultName handler =>
      ⟨.information, "process-level fault handler engaged",
        [("process_id", .shown processId), ("fault", .shown faultName),
          ("handler", .shown handler)]⟩
  | .scopeCompensating scopeId handler =>
      ⟨.information, "compensating scope",
        [("scope_id", .shown scopeId), ("handler", .shown handler)]⟩
  | .processCompensating processId handler =>
      ⟨.information, "running process compensation handler",
        [("process_id", .shown processId), ("handler", .shown handler)]⟩
  | .processDeployed processId version activities =>
      ⟨.information, "process deployed",
        [("process_id", .shown processId), ("version", .shown version),
          ("activities", .count activities)]⟩
  | .processUndeployed processId =>
      ⟨.information, "process undeployed", [("process_id", .quoted processId)]⟩
  | .instanceStarted processId instanceId initiatedBy =>
      ⟨.information, "process instance started",
        [("process_id", .quoted processId), ("instance_id", .shown instanceId),
          ("initiated_by", .quoted initiatedBy)]⟩
  | .rootMissing instanceId root =>
      ⟨.warning, "root activity is missing",
        [("instance_id", .shown instanceId), ("root", .shown root)]⟩
  | .instanceCompleted instanceId =>
      ⟨.information, "process instance completed", [("instance_id", .shown instanceId)]⟩
  | .instanceFaulted instanceId faultName =>
      ⟨.warning, "process instance faulted",
        [("instance_id", .shown instanceId), ("fault", .quoted faultName)]⟩
  | .instanceStopped instanceId status =>
      ⟨.information, "process instance stopped before completion",
        [("instance_id", .shown instanceId), ("status", .shown status.name)]⟩
  | .instanceSuspended instanceId =>
      ⟨.information, "process instance suspended", [("instance_id", .quoted instanceId)]⟩
  | .instanceResumed instanceId =>
      ⟨.information, "process instance resumed", [("instance_id", .quoted instanceId)]⟩
  | .instanceTerminated instanceId =>
      ⟨.information, "process instance terminated", [("instance_id", .quoted instanceId)]⟩
  | .instanceCompensating instanceId =>
      ⟨.information, "process instance compensating", [("instance_id", .quoted instanceId)]⟩
  | .instanceCompensated instanceId =>
      ⟨.information, "process instance compensated", [("instance_id", .quoted instanceId)]⟩
  | .compensationFailed instanceId error =>
      ⟨.warning, "compensation failed",
        [("instance_id", .quoted instanceId), ("error", .shown error)]⟩
  | .callbackFailed instanceId hook error =>
      ⟨.warning, "lifecycle callback failed",
        [("instance_id", .shown instanceId), ("hook", .quoted (hookName hook)),
          ("error", .shown error)]⟩
  | .callbackPanicked instanceId hook =>
      ⟨.warning, "lifecycle callback panicked",
        [("instance_id", .shown instanceId), ("hook", .quoted (hookName hook))]⟩

/-- The lines of events that a journal of a verbosity has. -/
def linesOf (verbosity : Verbosity) (events : List Event) : List Line :=
  (events.map Line.ofEvent).filter fun line => verbosity.keeps line.level

end Orchestration.Journal
