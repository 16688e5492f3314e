import Orchestration.Text.Literal

/-!
# Failures of an operation

A failure is the answer of an operation that was refused or could not be carried out: its category, a
code, a message, and facts about the circumstances under keys. A failure for which no code was chosen
gets one of its own when it is written, so such a code is left open here.
-/

namespace Orchestration

/-- What a failure is about. -/
inductive FailureCategory where
  | validation
  | deployment
  | lifecycle
  | definition
  | configuration
  | io
  | unknown
  deriving DecidableEq, Repr

namespace FailureCategory

/-- The name of a category. -/
def name : FailureCategory → String
  | .validation => "ValidationError"
  | .deployment => "DeploymentError"
  | .lifecycle => "LifecycleError"
  | .definition => "DefinitionError"
  | .configuration => "ConfigurationError"
  | .io => "IoError"
  | .unknown => "Unknown"

/-- Every category. -/
def all : List FailureCategory :=
  [.validation, .deployment, .lifecycle, .definition, .configuration, .io, .unknown]

/-- The category of a name. -/
def ofName? (name : String) : Option FailureCategory :=
  all.find? fun category => category.name = name

end FailureCategory

/-- How grave a failure is. -/
inductive Severity where
  | error
  | info
  deriving DecidableEq, Repr

/-- The name of a severity. -/
def Severity.name : Severity → String
  | .error => "Error"
  | .info => "Info"

/-- A failure of an operation. -/
structure Failure where
  category : FailureCategory
  severity : Severity
  /-- The code that was chosen for the failure, if any. -/
  code : Option String
  message : String
  /-- Facts under keys; a key occurs once. -/
  context : List (String × String)
  /-- The wording of what lies beneath the failure. -/
  cause : Option String
  deriving DecidableEq, Repr

namespace Failure

/-- A failure with nothing but a category and a message. Only a failure of no known category is not
an error. -/
def ofMessage (category : FailureCategory) (message : String) : Failure where
  category := category
  severity := if category = .unknown then .info else .error
  code := none
  message := message
  context := []
  cause := none

/-- The failure of reading or writing, worded by its own cause. -/
def ofIo (message : String) : Failure :=
  { ofMessage .io message with code := some "IO_ERROR", cause := some message }

/-- A failure with something beneath it. -/
def withCause (cause : String) (failure : Failure) : Failure :=
  { failure with cause := some cause }

/-- A failure under a code. -/
def withCode (code : String) (failure : Failure) : Failure :=
  { failure with code := some code }

/-- Puts a fact under a key, in place of the one that was there. -/
def putFact (key fact : String) : List (String × String) → List (String × String)
  | [] => [(key, fact)]
  | (present, old) :: rest =>
      if present = key then (present, fact) :: rest else (present, old) :: putFact key fact rest

/-- A failure with a fact under a key. -/
def addContext (key fact : String) (failure : Failure) : Failure :=
  { failure with context := putFact key fact failure.context }

/-- A failure with a fact under the general key. -/
def withContext (fact : String) (failure : Failure) : Failure :=
  failure.addContext "context" fact

/-- The code of a failure; one that was left open is made from an identifier. -/
def codeText (identifier : String) (failure : Failure) : String :=
  failure.code.getD ("ERR-" ++ identifier)

/-- A failure in words. -/
def text (identifier : String) (failure : Failure) : String :=
  let facts := failure.context.map fun entry =>
    Text.literal entry.1 ++ ": " ++ Text.literal entry.2
  "[" ++ failure.codeText identifier ++ "] " ++ failure.category.name ++ ": " ++ failure.message ++
    (if facts.isEmpty then "" else " (Context: \x7b" ++ ", ".intercalate facts ++ "\x7d)") ++
    (match failure.cause with
    | some cause => "\nCaused by: " ++ cause
    | none => "")

end Failure

end Orchestration
