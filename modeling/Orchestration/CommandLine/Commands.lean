import Orchestration.CommandLine.Arguments
import Orchestration.CommandLine.Report
import Orchestration.Configuration.Engine
import Orchestration.Definition.Load
import Orchestration.Definition.Reference
import Orchestration.Scenario.Basic

/-!
# Commands

What each command of the command line does, as a function of what the program finds: the text that it
prints and the failure that it ends with. Running a definition takes time, so it is cut in two: what
comes before the run, and the report on the instance after it.
-/

namespace Orchestration.CommandLine

/-- Why a command failed. -/
inductive CommandFailure where
  | refused (failure : Failure)
  | message (text : String)

/-- What a command prints, and the failure that it ends with. -/
structure Output where
  text : String
  failure : Option CommandFailure

/-- The settings file that is taken when none is named. -/
def defaultConfig : String := "procflow.toml"

/-- The settings file of an invocation: the one that was named, or else the one that lies in the working
directory, if there is one. -/
def configPath (surroundings : Surroundings) (invocation : Invocation) : Option String :=
  invocation.config.or (if surroundings.hasFile defaultConfig then some defaultConfig else none)

/-- The directory from which relative paths in the settings file are seen. -/
def baseDirectory (surroundings : Surroundings) (invocation : Invocation) : String :=
  (((configPath surroundings invocation).bind FilePath.parent?).filter fun parent =>
    !parent.isEmpty).getD "."

/-- Lines of text, each with its end. -/
def lines (texts : List String) : String :=
  String.join (texts.map (· ++ "\n"))

/-- The dialect of a definition's file. -/
def dialectOf (path : String) : Dialect :=
  if (FilePath.ending? path).map (List.map Char.toLower) = some ['j', 's', 'o', 'n'] then .json
  else .yaml

/-- The definition in a file. -/
def readDefinition (surroundings : Surroundings) (path : String) : Except Failure Definition :=
  let unreadable (reason : String) : Except Failure Definition :=
    .error (Failure.ofMessage .io s!"failed to read {path}: {reason}")
  match surroundings.file path with
  | .missing reason => unreadable reason
  | .unreadable reason => unreadable reason
  | .text content => (Definition.ofText (dialectOf path) content).mapError (Failure.withContext path)

/-- The variables that an instance is given. -/
def readInput : Option String → Except CommandFailure Bag
  | none => .ok []
  | some written =>
      match (Json.read? written.toList).bind (Document.valueWithin? 0) with
      | none => .error (.message "--input must be valid JSON")
      | some (.record entries) => .ok entries
      | some other => .error (.message s!"--input must be a JSON object, got {other.toJson}")

/-- What a run begins with: an engine in which the definition is deployed and an instance is started.
The time is that from which deadlines are measured. -/
def beginRun (surroundings : Surroundings) (config : Option String) (naming : Naming)
    (now : Timestamp) (arguments : RunArguments) : Except CommandFailure (Engine × Job) := do
  let settings ← (Settings.load surroundings config).mapError .refused
  let definition ← (readDefinition surroundings arguments.definition).mapError .refused
  let input ← readInput arguments.input
  let engine ← ((Engine.new settings naming now).deploy definition).mapError
    (.refused ∘ Refusal.toFailure)
  .ok (engine, .scheduled 0 (.alone (.start definition.id input arguments.initiatedBy)))

/-- The output of a run from the answer that it ended with. -/
def runOutput (format : OutputFormat) (moments : Moments) : Answer → Output
  | .started subject _ =>
      let text :=
        match format with
        | .text => lines (textReport moments subject)
        | .json => jsonReport moments subject ++ "\n"
      let failure :=
        match subject.fault with
        | some fault =>
            if subject.status = .faulted then
              some (.message s!"process instance faulted: {fault.text}")
            else none
        | none => none
      ⟨text, failure⟩
  | .settled (.error failure) => ⟨"", some (.refused failure)⟩
  | _ => ⟨"", none⟩

/-- The output of the command that looks for references that lead nowhere. -/
def checkOutput (surroundings : Surroundings) (path : String) : Output :=
  match readDefinition surroundings path with
  | .error failure => ⟨"", some (.refused failure)⟩
  | .ok definition =>
      let dangling := definition.danglingReferences
      if dangling.isEmpty then
        ⟨lines [s!"{definition.id} ({definition.activities.length} activities): " ++
          "all references resolve"], none⟩
      else
        ⟨lines (dangling.map fun reference => "dangling: " ++ reference.message),
          some (.message s!"{dangling.length} dangling reference(s) in {definition.id}")⟩

/-- What the variables of the surroundings are for. -/
def variableNotes : List String :=
  ["PROCFLOW_MAX_LOOP_ITERATIONS - Override the loop iteration cap (default: 10000)",
    "PROCFLOW_MAX_WAIT - Clamp every wait activity to this duration, e.g. 5m",
    "PROCFLOW_LOG_LEVEL - Override the default tracing level (default: info)",
    "PROCFLOW_LOG_FORMAT - Console log format: text or json"]

/-- The output for settings and the file that they come from, when their text is given. It is not, when they
cannot be written. -/
def settingsOutput (config : Option String) : Option String → Output
  | none => ⟨lines ["# source: " ++ config.getD "defaults"],
      some (.message "out-of-range value for u64 type")⟩
  | some written => ⟨lines ["# source: " ++ config.getD "defaults"] ++ written ++
      lines ("" :: "# environment overrides:" :: variableNotes.map ("#   " ++ ·)), none⟩

/-- The output of the command that shows the settings. -/
def configOutput (surroundings : Surroundings) (config : Option String) : Output :=
  match Settings.load surroundings config with
  | .error failure => ⟨"", some (.refused failure)⟩
  | .ok settings => settingsOutput config settings.toToml?

/-- The output of an invocation when waits take no real time. -/
def output (surroundings : Surroundings) (naming : Naming) (now : Timestamp)
    (moments : Moments) (invocation : Invocation) : Output :=
  let config := configPath surroundings invocation
  match invocation.command with
  | .check path => checkOutput surroundings path
  | .showConfig => configOutput surroundings config
  | .run arguments =>
      match beginRun surroundings config naming now arguments with
      | .error failure => ⟨"", some failure⟩
      | .ok (engine, job) =>
          match (Job.run Thread.slice 0 engine job).2 with
          | some (answer, _) => runOutput arguments.format moments answer
          | none => ⟨"", none⟩

end Orchestration.CommandLine
