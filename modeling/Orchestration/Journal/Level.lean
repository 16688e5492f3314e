/-!
# Levels

How much a line of the journal matters. A journal that is kept at a level has the lines of that level
and of all graver ones.
-/

namespace Orchestration.Journal

/-- How much a line matters. -/
inductive Level where
  | error
  | warning
  | information
  | debugging
  | tracing
  deriving DecidableEq, Repr

namespace Level

/-- The place of a level, the gravest first. -/
def rank : Level → Nat
  | .error => 1
  | .warning => 2
  | .information => 3
  | .debugging => 4
  | .tracing => 5

/-- The name of a level, as it is asked for. -/
def name : Level → String
  | .error => "error"
  | .warning => "warn"
  | .information => "info"
  | .debugging => "debug"
  | .tracing => "trace"

/-- The name of a level, as it stands in a line. -/
def label : Level → String
  | .error => "ERROR"
  | .warning => "WARN"
  | .information => "INFO"
  | .debugging => "DEBUG"
  | .tracing => "TRACE"

/-- Every level, the gravest first. -/
def all : List Level := [.error, .warning, .information, .debugging, .tracing]

end Level

/-- Which lines a journal has: none, or those of a level and graver. -/
inductive Verbosity where
  | off
  | upTo (level : Level)
  deriving DecidableEq, Repr

namespace Verbosity

/-- The place of a verbosity, the most silent first. -/
def rank : Verbosity → Nat
  | .off => 0
  | .upTo level => level.rank

/-- True when lines of a level are kept. -/
def keeps (verbosity : Verbosity) (level : Level) : Bool :=
  level.rank ≤ verbosity.rank

/-- The name of a verbosity. -/
def name : Verbosity → String
  | .off => "off"
  | .upTo level => level.name

/-- Every verbosity, the most silent first. -/
def all : List Verbosity := .off :: Level.all.map .upTo

end Verbosity

end Orchestration.Journal
