import Orchestration.Configuration.Engine
import Orchestration.Journal.Directive

/-!
# Journal settings from a file

Where the journal goes, what it keeps and how its lines are written. The settings stand in the same file
as those of the engine and are read by rules of their own.
-/

namespace Orchestration

/-- Where the lines of a journal are shown. -/
inductive Console where
  | standardOutput
  | standardError
  | nowhere
  deriving DecidableEq, Repr

namespace Console

/-- The name of a console. -/
def name : Console → String
  | .standardOutput => "stdout"
  | .standardError => "stderr"
  | .nowhere => "none"

/-- Every console. -/
def all : List Console := [.standardOutput, .standardError, .nowhere]

/-- The console of a name. -/
def ofName? (name : String) : Option Console :=
  all.find? fun console => console.name = name

end Console

/-- How the lines of a journal are written. -/
inductive LineFormat where
  | text
  | json
  deriving DecidableEq, Repr

namespace LineFormat

/-- The name of a format. -/
def name : LineFormat → String
  | .text => "text"
  | .json => "json"

/-- Every format. -/
def all : List LineFormat := [.text, .json]

/-- The format of a name. -/
def ofName? (name : String) : Option LineFormat :=
  all.find? fun format => format.name = name

end LineFormat

/-- A word as it is compared with a name: without blanks at its ends and in small letters. -/
def foldedWord (written : String) : String :=
  String.ofList ((Text.trim written.toList).map Char.toLower)

/-- Reads a console from a word, in any case of letters. -/
def Console.read (written : String) : Except String Console :=
  match Console.ofName? (foldedWord written) with
  | some console => .ok console
  | none => .error (s!"invalid logging.console_output '{written}'; " ++
      "supported values are stdout, stderr, none")

/-- Reads a format from a word, in any case of letters. -/
def LineFormat.read (written : String) : Except String LineFormat :=
  match LineFormat.ofName? (foldedWord written) with
  | some format => .ok format
  | none => .error s!"invalid logging.format '{written}'; supported values are text, json"

/-- Settings of a journal. -/
structure JournalSettings where
  /-- The directory of the journal's file, if one was chosen. -/
  directory : Option String
  /-- What is kept, as a directive. -/
  level : String
  /-- True when the journal is kept in a file. -/
  hasFile : Bool
  console : Console
  format : LineFormat
  deriving DecidableEq, Repr

/-- Why there are no journal settings. -/
inductive JournalSettingsError where
  | unreadable (path : String)
  | malformed (path : String)
  | notADirective
  deriving DecidableEq, Repr

/-- The wording of a failure. -/
def JournalSettingsError.message : JournalSettingsError → String
  | .unreadable path => s!"failed to read logging config {path}"
  | .malformed path => s!"failed to parse logging config {path}"
  | .notADirective => "logging.default_level must be a valid tracing directive"

namespace TableValue

/-- The name that a value chooses: a text, or a table with one empty table under the name. -/
def choice? : TableValue → Option String
  | .text name => some name
  | .table _ [(name, .table _ [])] => some name
  | _ => none

end TableValue

namespace JournalSettings

/-- The settings of a journal that is given none. -/
def default : JournalSettings := ⟨none, "info", false, .standardError, .text⟩

/-- The name of the journal's table. -/
def tableName : String := "logging"

/-- The fields of the journal's table, in their order. -/
def fieldNames : List String :=
  ["log_dir", "default_level", "enable_file", "console_output", "format"]

/-- True unless a record is written as a list that ends before the fields that lists have to have. -/
def isLongEnough : TableValue → Bool
  | .list items => 3 ≤ items.length
  | .tables elements => 3 ≤ elements.length
  | _ => true

/-- The settings of the journal's table. -/
def ofTableValue? (value : TableValue) : Option JournalSettings := do
  if !isLongEnough value then none
  let fields ← value.fields? fieldNames
  let directory ← fields.optional TableValue.text? "log_dir"
  let level ← fields.optional TableValue.text? "default_level"
  let hasFile ← fields.optional TableValue.boolean? "enable_file"
  let console ← fields.optional (fun value => value.choice?.bind Console.ofName?) "console_output"
  let format ← fields.optional (fun value => value.choice?.bind LineFormat.ofName?) "format"
  some {
    directory := directory
    level := level.getD default.level
    hasFile := hasFile.getD default.hasFile
    console := console.getD default.console
    format := format.getD default.format }

/-- The settings of a file's text. -/
def ofText? (text : String) : Option JournalSettings := do
  let table ← Toml.read? text.toList
  match table.find? tableName with
  | none => some default
  | some value => ofTableValue? value

/-- The variable that the level is overridden by. -/
def levelVariable : String := "PROCFLOW_LOG_LEVEL"

/-- The variable that the format is overridden by. -/
def formatVariable : String := "PROCFLOW_LOG_FORMAT"

/-- The settings under the variables of the surroundings. -/
def override (surroundings : Surroundings) (settings : JournalSettings) : JournalSettings :=
  let level := ((surroundings.setting levelVariable).map fun written =>
    Text.trim written.toList).filter fun level => !level.isEmpty
  let format := (surroundings.setting formatVariable).bind fun written =>
    (LineFormat.read written).toOption
  { settings with
    level := (level.map String.ofList).getD settings.level
    format := format.getD settings.format }

/-- The settings of a file; those of a file that does not exist are the defaults. -/
def ofFile (surroundings : Surroundings) (path : String) :
    Except JournalSettingsError JournalSettings :=
  match surroundings.file path with
  | .missing _ => .ok default
  | .unreadable _ => .error (.unreadable path)
  | .text content =>
      match ofText? content with
      | some settings => .ok settings
      | none => .error (.malformed path)

/-- Refuses settings whose level is no directive. -/
def check (settings : JournalSettings) : Except JournalSettingsError JournalSettings :=
  match Journal.Directive.read? settings.level.toList with
  | some _ => .ok settings
  | none => .error .notADirective

/-- The settings of the journal that a program is to keep. -/
def load (surroundings : Surroundings) (path : Option String) :
    Except JournalSettingsError JournalSettings :=
  let found :=
    match path with
    | some path => ofFile surroundings path
    | none => .ok default
  found.bind fun settings => (settings.override surroundings).check

/-- The name of the journal's file. -/
def fileName : String := "procflow.log"

/-- The path of the journal's file. A directory that was chosen is seen from the base. -/
def filePath (base : String) (settings : JournalSettings) : String :=
  let directory :=
    match settings.directory with
    | some chosen => FilePath.join base chosen
    | none => FilePath.join (FilePath.join base ".procflow") "logs"
  FilePath.join directory fileName

end JournalSettings

end Orchestration
