/-!
# Arguments

The arguments of the command line and what they ask for. A line is read from the left; an option is
settled when the next option or operand begins or the line ends, and it is then that its value is looked
at. So an argument that is not known is reported before a wrong value right in front of it.
-/

namespace Orchestration.CommandLine

/-- How an instance is printed. -/
inductive OutputFormat where
  | text
  | json
  deriving DecidableEq, Repr

/-- What a run is to be made of. -/
structure RunArguments where
  definition : String
  /-- The variables that the instance begins with, as JSON. -/
  input : Option String
  initiatedBy : String
  format : OutputFormat
  deriving DecidableEq, Repr

/-- What the program is to do. -/
inductive Command where
  | run (arguments : RunArguments)
  | check (definition : String)
  | showConfig
  deriving DecidableEq, Repr

/-- A command and the settings file that was named with it. -/
structure Invocation where
  config : Option String
  command : Command
  deriving DecidableEq, Repr

/-- Why a line of arguments leads to no command. -/
inductive UsageError where
  | helpRequested
  | versionRequested
  | nothingGiven
  | missingCommand
  | missingArgument
  | unknownArgument
  | unknownCommand
  | invalidValue
  | surplusValue
  | repeatedOption
  deriving DecidableEq, Repr

/-- The exit code for a line that leads to no command. -/
def UsageError.exitCode : UsageError → Nat
  | .helpRequested => 0
  | .versionRequested => 0
  | _ => 2

/-- Which values an option takes. -/
inductive ValueKind where
  /-- A path, which is not empty. -/
  | path
  | text
  | choice (names : List String)
  deriving DecidableEq, Repr

/-- True of a value that an option of a kind takes. -/
def ValueKind.accepts : ValueKind → String → Bool
  | .path, value => !value.isEmpty
  | .text, _ => true
  | .choice names, value => names.contains value

/-- What may stand in a line. -/
structure Grammar where
  options : List (String × ValueKind)
  /-- The operand, if there is one. -/
  operand : Option (String × ValueKind)
  commands : List String
  hasVersion : Bool
  deriving DecidableEq, Repr

namespace Grammar

/-- The option for the settings file, which stands before or behind the command. -/
def configOption : String × ValueKind := ("config", .path)

/-- The operand of the commands that take one. -/
def definitionOperand : String × ValueKind := ("definition", .path)

/-- The line before the command. -/
def main : Grammar :=
  ⟨[configOption], none, ["run", "check", "show-config", "help"], true⟩

/-- The line behind the command that runs a definition. -/
def run : Grammar :=
  ⟨[("input", .text), ("initiated-by", .text), ("format", .choice ["text", "json"]), configOption],
    some definitionOperand, [], false⟩

/-- The line behind the command that checks a definition. -/
def check : Grammar := ⟨[configOption], some definitionOperand, [], false⟩

/-- The line behind the command that shows the settings. -/
def showConfig : Grammar := ⟨[configOption], none, [], false⟩

/-- The kind of an option or operand. -/
def kind? (name : String) (grammar : Grammar) : Option ValueKind :=
  ((grammar.operand.toList ++ grammar.options).find? fun option => option.1 = name).map Prod.snd

/-- True of the name of an option. -/
def hasOption (name : String) (grammar : Grammar) : Bool :=
  grammar.options.any fun option => option.1 = name

end Grammar

/-- An option or operand that has not been settled yet. -/
inductive Pending where
  | nothing
  /-- An option whose value is the next argument. -/
  | awaiting (name : String)
  | given (name value : String)
  deriving DecidableEq, Repr

/-- What has been read of a line. -/
structure Progress where
  values : List (String × String)
  pending : Pending
  /-- True behind the mark after which no argument is an option. -/
  onlyOperands : Bool
  /-- True when the operand has been met. -/
  hasOperand : Bool
  deriving DecidableEq, Repr

namespace Progress

/-- Nothing has been read. -/
def start : Progress := ⟨[], .nothing, false, false⟩

/-- Settles what is pending: the value has to be there, the option has to be new, and the value has to
be one of its kind, in this order. -/
def settle (grammar : Grammar) (progress : Progress) : Except UsageError Progress :=
  match progress.pending with
  | .nothing => .ok progress
  | .awaiting _ => .error .invalidValue
  | .given name value =>
      if progress.values.any fun settled => settled.1 = name then .error .repeatedOption
      else if ((grammar.kind? name).map fun kind => kind.accepts value) = some true then
        .ok { progress with values := progress.values ++ [(name, value)], pending := .nothing }
      else .error .invalidValue

/-- Settles what is pending and then stops. -/
def stop (grammar : Grammar) (progress : Progress) (error : UsageError) :
    Except UsageError Progress :=
  (progress.settle grammar).bind fun _ => .error error

/-- Reads an option, from behind its two dashes. -/
def readOption (grammar : Grammar) (progress : Progress) (argument : List Char) :
    Except UsageError Progress :=
  let name := String.ofList (argument.takeWhile (· != '='))
  let attached :=
    match argument.dropWhile (· != '=') with
    | _ :: value => some (String.ofList value)
    | [] => none
  if grammar.hasOption name then do
    let progress ← progress.settle grammar
    match attached with
    | some value => settle grammar { progress with pending := .given name value }
    | none => .ok { progress with pending := .awaiting name }
  else if name = "help" || (name = "version" && grammar.hasVersion) then
    if attached.isSome then .error .surplusValue
    else
      progress.stop grammar (if name = "help" then .helpRequested else .versionRequested)
  else .error .unknownArgument

/-- Reads options of one letter, from behind their dash. -/
def readLetters (grammar : Grammar) (progress : Progress) : List Char → Except UsageError Progress
  | 'h' :: _ => progress.stop grammar .helpRequested
  | 'V' :: _ =>
      if grammar.hasVersion then progress.stop grammar .versionRequested
      else .error .unknownArgument
  | _ => .error .unknownArgument

/-- Reads an operand. -/
def readOperand (grammar : Grammar) (progress : Progress) (argument : String) :
    Except UsageError Progress :=
  match grammar.operand with
  | some (name, _) =>
      if progress.hasOperand then .error .unknownArgument
      else do
        let progress ← progress.settle grammar
        .ok { progress with pending := .given name argument, hasOperand := true }
  | none =>
      if grammar.commands.isEmpty || (progress.onlyOperands && grammar.commands.contains argument)
      then .error .unknownArgument
      else .error .unknownCommand

/-- Reads an argument that is not a command. -/
def readArgument (grammar : Grammar) (progress : Progress) (argument : String) :
    Except UsageError Progress :=
  if progress.onlyOperands then progress.readOperand grammar argument
  else
    match argument.toList with
    | ['-', '-'] => .ok { progress with onlyOperands := true }
    | '-' :: '-' :: rest => progress.readOption grammar rest
    | '-' :: first :: rest => progress.readLetters grammar (first :: rest)
    | _ =>
        match progress.pending with
        | .awaiting name => .ok { progress with pending := .given name argument }
        | _ => progress.readOperand grammar argument

/-- True when the next argument may be a command. -/
def mayBeCommand (progress : Progress) : Bool :=
  !progress.onlyOperands &&
    match progress.pending with
    | .awaiting _ => false
    | _ => true

/-- Reads a line up to its end or to a command, and gives the command with what follows it. -/
def read (grammar : Grammar) (progress : Progress) :
    List String → Except UsageError (Progress × Option (String × List String))
  | [] => .ok (progress, none)
  | argument :: rest =>
      if progress.mayBeCommand && grammar.commands.contains argument then
        .ok (progress, some (argument, rest))
      else (progress.readArgument grammar argument).bind fun progress => read grammar progress rest

/-- The value of an option or operand. -/
def value? (name : String) (progress : Progress) : Option String :=
  (progress.values.find? fun settled => settled.1 = name).map Prod.snd

end Progress

/-- Reads the line behind a command that has no commands of its own. -/
def readCommandLine (grammar : Grammar) (arguments : List String) : Except UsageError Progress := do
  let (progress, _) ← Progress.start.read grammar arguments
  progress.settle grammar

/-- The definition that a line has to name. -/
def requireDefinition (progress : Progress) : Except UsageError String :=
  match progress.value? "definition" with
  | some path => .ok path
  | none => .error .missingArgument

/-- The command of a name with what follows it, and the settings file named there. -/
def readCommand (name : String) (arguments : List String) :
    Except UsageError (Command × Option String) :=
  if name = "run" then do
    let progress ← readCommandLine .run arguments
    let definition ← requireDefinition progress
    .ok (.run {
      definition := definition
      input := progress.value? "input"
      initiatedBy := (progress.value? "initiated-by").getD "cli"
      format := if progress.value? "format" = some "json" then .json else .text },
      progress.value? "config")
  else if name = "check" then do
    let progress ← readCommandLine .check arguments
    let definition ← requireDefinition progress
    .ok (.check definition, progress.value? "config")
  else if name = "show-config" then do
    let progress ← readCommandLine .showConfig arguments
    .ok (.showConfig, progress.value? "config")
  else
    match arguments with
    | [] => .error .helpRequested
    | topic :: topics =>
        if Grammar.main.commands.contains topic && topics.isEmpty then .error .helpRequested
        else .error .unknownCommand

/-- Reads the arguments of the program. A settings file that is named behind the command wins over one
that is named before it. -/
def readArguments (arguments : List String) : Except UsageError Invocation := do
  let (progress, command?) ← Progress.start.read .main arguments
  match command? with
  | some (name, rest) =>
      let (command, config) ← readCommand name rest
      let progress ← progress.settle .main
      .ok ⟨config.or (progress.value? "config"), command⟩
  | none =>
      let progress ← progress.settle .main
      if progress.values.isEmpty then .error .nothingGiven else .error .missingCommand

end Orchestration.CommandLine
