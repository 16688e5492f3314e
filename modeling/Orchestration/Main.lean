import Orchestration.CommandLine.Commands
import Orchestration.Configuration.Journal
import Orchestration.Journal.Line

/-!
# The program

Reads what the commands look at, lets the run of an instance wait for as long as it asks to, and prints.
What is printed and which failure ends the program is decided by the commands.
-/

namespace Orchestration.CommandLine

/-- The name and version of the program. -/
def versionText : String := "procflow 0.1.0"

/-- What the program is called with. -/
def usageText : String :=
  lines [versionText, "Structured-process execution engine with fault handling and compensation", "",
    "USAGE:", "    procflow [OPTIONS] <COMMAND>", "", "COMMANDS:",
    "    run          Deploy a definition and run one instance",
    "    check        List references that do not resolve",
    "    show-config  Print the effective engine configuration"]

/-- What is said about a line of arguments that leads to no command. -/
def usageMessage : UsageError → String
  | .helpRequested => usageText
  | .versionRequested => lines [versionText]
  | .nothingGiven => usageText
  | .missingCommand => lines ["error: a command is required"]
  | .missingArgument => lines ["error: a required argument was not provided"]
  | .unknownArgument => lines ["error: unexpected argument found"]
  | .unknownCommand => lines ["error: unrecognized command"]
  | .invalidValue => lines ["error: invalid or missing value"]
  | .surplusValue => lines ["error: unexpected value"]
  | .repeatedOption => lines ["error: an option cannot be used multiple times"]

/-- What lies at a path. -/
def contentAt (path : String) : IO FileContent := do
  try
    return .text (← IO.FS.readFile path)
  catch error =>
    match error with
    | .noFileOrDirectory .. => return .missing "No such file or directory (os error 2)"
    | .inappropriateType _ 21 _ => return .unreadable "Is a directory (os error 21)"
    | .inappropriateType .. => return .missing "Not a directory (os error 20)"
    | .permissionDenied .. => return .unreadable "Permission denied (os error 13)"
    | .userError _ => return .unreadable "stream did not contain valid UTF-8"
    | other => return .unreadable other.toString

/-- The files that an invocation may ask for. -/
def filesOf (invocation : Invocation) : List String :=
  defaultConfig :: (invocation.config.toList ++
    match invocation.command with
    | .run arguments => [arguments.definition]
    | .check path => [path]
    | .showConfig => [])

/-- What an invocation finds. -/
def look (invocation : Invocation) : IO Surroundings := do
  let files ← (filesOf invocation).mapM fun path => return (path, ← contentAt path)
  let names := [Settings.limitVariable, Settings.waitVariable, JournalSettings.levelVariable,
    JournalSettings.formatVariable]
  let values ← names.mapM fun name => return (name, ← IO.getEnv name)
  return {
    file := fun path =>
      ((files.find? fun entry => entry.1 = path).map Prod.snd).getD
        (.missing "No such file or directory (os error 2)")
    setting := fun name => (values.find? fun entry => entry.1 = name).bind Prod.snd }

/-- The number at the beginning of a text and the digits behind its point. -/
def decimal (text : List Char) : Nat × List Char :=
  (Text.digitsToNat (text.takeWhile Char.isDigit),
    ((text.dropWhile Char.isDigit).drop 1).takeWhile Char.isDigit)

/-- The seconds at which the system began to run. -/
def bootSeconds (statistics : String) : Nat :=
  let line := (Text.splitOn '\n' statistics.toList).find? fun line => line.take 6 = "btime ".toList
  (decimal ((line.getD []).drop 6)).1

/-- The time. -/
def clock : IO Timestamp := do
  try
    let (seconds, fraction) := decimal (← IO.FS.readFile "/proc/uptime").toList
    let nanoseconds := Text.digitsToNat ((fraction ++ List.replicate 9 '0').take 9)
    return ⟨bootSeconds (← IO.FS.readFile "/proc/stat") + seconds, nanoseconds⟩
  catch _ => return ⟨0, 0⟩

/-- The two hexadecimal digits of a byte. -/
def hexadecimal (byte : UInt8) : List Char :=
  [Nat.digitChar (byte.toNat / 16), Nat.digitChar (byte.toNat % 16)]

/-- An identifier of random digits, with the marks of version four. -/
def identifier : IO String := do
  let bytes := (← IO.getRandomBytes 16).toList
  let marked := bytes.zipIdx.map fun (byte, index) =>
    if index = 6 then byte &&& 0x0F ||| 0x40
    else if index = 8 then byte &&& 0x3F ||| 0x80 else byte
  let digits := marked.flatMap hexadecimal
  let groups := [(0, 8), (8, 4), (12, 4), (16, 4), (20, 12)].map fun (start, size) =>
    String.ofList ((digits.drop start).take size)
  return "-".intercalate groups

/-- A line of the journal with its time. -/
def stampedLine (format : LineFormat) (time : Timestamp) (line : Journal.Line) : String :=
  match format with
  | .text => s!"{time.text} {line.text}\n"
  | .json =>
      (Value.record [("timestamp", .text time.text), ("level", .text line.level.label),
        ("fields", line.record)]).toJson ++ "\n"

/-- A journal that lines are written to. -/
structure OpenJournal where
  settings : JournalSettings
  verbosity : Journal.Verbosity
  streams : List IO.FS.Stream

/-- Opens the journal of a program. -/
def openJournal (settings : JournalSettings) (base : String) : IO OpenJournal := do
  let console ←
    match settings.console with
    | .standardOutput => pure [← IO.getStdout]
    | .standardError => pure [← IO.getStderr]
    | .nowhere => pure []
  let file ←
    if settings.hasFile then do
      let path := settings.filePath base
      IO.FS.createDirAll ((FilePath.parent? path).getD ".")
      pure [IO.FS.Stream.ofHandle (← IO.FS.Handle.mk path .append)]
    else pure []
  let verbosity := (Journal.Directive.read? settings.level.toList).map Journal.Directive.verbosity
  return ⟨settings, verbosity.getD .off, file ++ console⟩

/-- Writes events to a journal. -/
def OpenJournal.write (journal : OpenJournal) (events : List Event) : IO Unit := do
  let time ← clock
  for line in Journal.linesOf journal.verbosity events do
    for stream in journal.streams do
      stream.putStr (stampedLine journal.settings.format time line)
      stream.flush

/-- Lets a job move until it is over. Whenever nothing can move it waits for the next time at which
something can. -/
partial def settle (journal : OpenJournal) (began : Nat) (engine : Engine) (job : Job) :
    IO (Engine × Answer) := do
  let now := (← IO.monoMsNow) - began
  let (moved, job) := job.advance now Thread.slice engine
  journal.write (moved.journal.toList.drop engine.journal.size)
  match job with
  | .answered answer => return (moved, answer)
  | job =>
      let pause := ((job.nextMove? now).getD now) - now
      IO.sleep (min pause 60000).toUInt32
      settle journal began moved job

/-- The output of an invocation. -/
def perform (surroundings : Surroundings) (journal : OpenJournal) (invocation : Invocation) :
    IO Output := do
  let began ← clock
  match invocation.command with
  | .run arguments =>
      let id ← identifier
      match beginRun surroundings (configPath surroundings invocation) (.beginningWith id) began
        arguments with
      | .error failure => return ⟨"", some failure⟩
      | .ok (engine, job) =>
          journal.write engine.journal.toList
          let (_, answer) ← settle journal (← IO.monoMsNow) engine job
          return runOutput arguments.format ⟨began.text, (← clock).text⟩ answer
  | _ => return output surroundings (.numbered "") began ⟨"", ""⟩ invocation

/-- The words for a failure. -/
def failureText (failure : CommandFailure) : IO String := do
  match failure with
  | .refused failure => return failure.text (← identifier)
  | .message text => return text

/-- Performs an invocation and prints its output. -/
def execute (invocation : Invocation) : IO UInt32 := do
  let surroundings ← look invocation
  match JournalSettings.load surroundings (configPath surroundings invocation) with
  | .error error =>
      IO.eprintln s!"Error: {error.message}"
      return 1
  | .ok settings =>
      let journal ← openJournal settings (baseDirectory surroundings invocation)
      let output ← perform surroundings journal invocation
      IO.print output.text
      match output.failure with
      | none => return 0
      | some failure =>
          IO.eprintln ("Error: " ++ (← failureText failure))
          return 1

end Orchestration.CommandLine

open Orchestration.CommandLine in
/-- Does what the arguments ask for. -/
def main (arguments : List String) : IO UInt32 := do
  match readArguments arguments with
  | .ok invocation => execute invocation
  | .error error =>
      if error.exitCode = 0 then IO.print (usageMessage error) else IO.eprint (usageMessage error)
      return error.exitCode.toUInt32
