import Orchestration.Instance
import Orchestration.Value.Written

/-!
# Reports

An instance as the command line prints it, in lines of text or as JSON. An instance keeps no times, so
the report is told when the instance began and ended. How long its activities took nobody measured, and
it is reported as no time.
-/

namespace Orchestration.CommandLine

/-- When an instance began and ended, in words. -/
structure Moments where
  began : String
  ended : String
  deriving DecidableEq, Repr

/-- An activity that has ended, in one line. -/
def entryLine (entry : LogEntry) : String :=
  s!"  {entry.activityId} ({entry.kind.name}) {entry.status.name} in 0ms" ++
    (match entry.error with
    | some error => s!": {error}"
    | none => "")

/-- A variable, in one line. -/
def variableLine (entry : String × Value) : String :=
  s!"  {entry.1} = {entry.2.toJson}"

/-- An instance in lines of text. -/
def textReport (moments : Moments) (subject : Instance) : List String :=
  [s!"Instance: {subject.id}", s!"Process: {subject.processId}",
    s!"Status: {subject.status.name}", s!"Started: {moments.began}"] ++
    (if subject.finished then [s!"Completed: {moments.ended}"] else []) ++
    (subject.fault.map fun fault => s!"Fault: {fault.text}").toList ++
    ["", "Activities:"] ++ subject.log.toList.map entryLine ++
    ["", "Variables:"] ++ subject.bag.map variableLine

/-- An activity that has ended, as a record. -/
def entryRecord (moments : Moments) (entry : LogEntry) : Value :=
  .record ([("activityId", .text entry.activityId), ("activityName", .text entry.activityName),
    ("kind", .text entry.kind.name), ("status", .text entry.status.name),
    ("startedAt", .text moments.began), ("durationMs", .integer 0)] ++
    (entry.error.map fun error => ("error", Value.text error)).toList)

/-- A fault as a record. -/
def faultRecord (fault : Fault) : Value :=
  .record ([("name", .text fault.name), ("message", .text fault.message)] ++
    (fault.data.map fun data => ("data", data)).toList)

/-- An instance as a record. -/
def instanceRecord (moments : Moments) (subject : Instance) : Value :=
  .record ([("instanceId", .text subject.id), ("processId", .text subject.processId),
    ("status", .text subject.status.name),
    ("activityStatuses", .record (subject.activityStatuses.map fun entry =>
      (entry.1, .text entry.2.name))),
    ("variables", .record subject.bag),
    ("executionLog", .list (subject.log.toList.map (entryRecord moments)))] ++
    (subject.fault.map fun fault => ("fault", faultRecord fault)).toList ++
    [("startedAt", .text moments.began)] ++
    (if subject.finished then [("completedAt", .text moments.ended)] else []) ++
    [("initiatedBy", .text subject.initiatedBy)])

/-- An instance as indented JSON. -/
def jsonReport (moments : Moments) (subject : Instance) : String :=
  String.ofList ((instanceRecord moments subject).indented 0)

end Orchestration.CommandLine
