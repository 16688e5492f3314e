import Orchestration.Configuration.Files
import Orchestration.Document.Toml
import Orchestration.Duration.Reading
import Orchestration.Duration.Written
import Orchestration.Failure
import Orchestration.Settings.Basic
import Orchestration.Text.Blank
import Orchestration.Word

/-!
# Engine settings from a file

Settings come from three places, the later ones winning over the earlier: the defaults, the table of the
engine in the settings file, and variables of the surroundings. A file that does not exist is no failure,
and neither is a variable that cannot be read. The table of the engine can also be written.
-/

namespace Orchestration

namespace TableValue

/-- The fields of a record with known names. A record may also be written as the list of its fields'
values in their order. A moment has no field. -/
def fields? (names : List String) : TableValue → Option Table
  | .table _ entries => some (entries.filter fun entry => names.contains entry.1)
  | .list items => some (names.zip items)
  | .tables elements => some (names.zip (elements.map (TableValue.table .header)))
  | .moment => some []
  | _ => none

/-- The text of a value. -/
def text? : TableValue → Option String
  | .text value => some value
  | _ => none

/-- The Boolean of a value. -/
def boolean? : TableValue → Option Bool
  | .boolean value => some value
  | _ => none

/-- The count of a value. -/
def count? : TableValue → Option Nat
  | .integer value => if 0 ≤ value then some value.toNat else none
  | _ => none

/-- The duration of a value. -/
def duration? (value : TableValue) : Option Duration :=
  value.text?.bind fun written => (Duration.read written).toOption

end TableValue

namespace Table

/-- Reads a field that may be left out. -/
def optional {α : Type} (read : TableValue → Option α) (name : String) (table : Table) :
    Option (Option α) :=
  match table.find? name with
  | none => some none
  | some value => (read value).map some

end Table

namespace Settings

/-- The name of the engine's table. -/
def tableName : String := "engine"

/-- The settings of the engine's table. -/
def ofTableValue? (value : TableValue) : Option Settings := do
  let fields ← value.fields? ["max_loop_iterations", "max_wait"]
  let limit ← fields.optional TableValue.count? "max_loop_iterations"
  let wait ← fields.optional TableValue.duration? "max_wait"
  some ⟨limit.getD Settings.default.maxLoopIterations, wait⟩

/-- The settings of a file's text. -/
def ofText? (text : String) : Option Settings := do
  let table ← Toml.read? text.toList
  match table.find? tableName with
  | none => some Settings.default
  | some value => ofTableValue? value

/-- The variable that the iteration limit is overridden by. -/
def limitVariable : String := "PROCFLOW_MAX_LOOP_ITERATIONS"

/-- The variable that the longest wait is overridden by. -/
def waitVariable : String := "PROCFLOW_MAX_WAIT"

/-- The settings under the variables of the surroundings. -/
def override (surroundings : Surroundings) (settings : Settings) : Settings :=
  let limit := (surroundings.setting limitVariable).bind fun written =>
    Text.readWord? (Text.trim written.toList)
  let wait := (surroundings.setting waitVariable).bind fun written =>
    (Duration.read (String.ofList (Text.trim written.toList))).toOption
  ⟨limit.getD settings.maxLoopIterations, wait.or settings.maxWait⟩

/-- The settings of a file; those of a file that does not exist are the defaults. -/
def ofFile (surroundings : Surroundings) (path : String) : Except Failure Settings :=
  match surroundings.file path with
  | .missing _ => .ok Settings.default
  | .unreadable reason =>
      .error (Failure.ofMessage .io s!"Failed to read config file {path}: {reason}")
  | .text content =>
      match ofText? content with
      | some settings => .ok settings
      | none =>
          .error ((Failure.ofMessage .configuration
            s!"Failed to parse config file {path}: not a table of settings").withCode
            "PFX-CFG-001")

/-- Refuses settings under which no loop could run. -/
def check (settings : Settings) : Except Failure Settings :=
  if settings.maxLoopIterations = 0 then
    .error ((Failure.ofMessage .validation "engine.max_loop_iterations must be >= 1").withCode
      "PFX-CFG-002")
  else .ok settings

/-- The settings that a program is to run with. -/
def load (surroundings : Surroundings) (path : Option String) : Except Failure Settings :=
  let found :=
    match path with
    | some path => ofFile surroundings path
    | none => .ok Settings.default
  found.bind fun settings => (settings.override surroundings).check

/-- The text of a settings file with these settings. A file holds no limit beyond a signed word. -/
def toToml? (settings : Settings) : Option String :=
  if Word.isSigned settings.maxLoopIterations then
    some (s!"[{tableName}]\nmax_loop_iterations = {settings.maxLoopIterations}\n" ++
      (match settings.maxWait with
      | some wait => s!"max_wait = \"{wait.text}\"\n"
      | none => ""))
  else none

end Settings

end Orchestration
