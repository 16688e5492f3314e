/-!
# Durations

A length of time in whole nanoseconds, below the limit of 2 ^ 64 seconds that every duration which is
read keeps to.
-/

namespace Orchestration

/-- A length of time. -/
structure Duration where
  nanoseconds : Nat
  deriving DecidableEq, Repr

namespace Duration

/-- The count of nanoseconds in a second. -/
def nanosecondsPerSecond : Nat := 1000000000

/-- No time. -/
def zero : Duration := ⟨0⟩

/-- A duration in whole milliseconds. -/
def ofMilliseconds (count : Nat) : Duration := ⟨count * 1000000⟩

/-- A duration of seconds and nanoseconds. -/
def ofSeconds (seconds nanoseconds : Nat) : Duration :=
  ⟨seconds * nanosecondsPerSecond + nanoseconds⟩

/-- The whole seconds of a duration. -/
def seconds (duration : Duration) : Nat :=
  duration.nanoseconds / nanosecondsPerSecond

/-- The nanoseconds of a duration beyond its whole seconds. -/
def subsecond (duration : Duration) : Nat :=
  duration.nanoseconds % nanosecondsPerSecond

/-- The whole milliseconds of a duration. -/
def milliseconds (duration : Duration) : Nat :=
  duration.nanoseconds / 1000000

/-- The least count of whole milliseconds that is not shorter than a duration. -/
def ceilingMilliseconds (duration : Duration) : Nat :=
  (duration.nanoseconds + 999999) / 1000000

/-- A duration, or the limit if it is longer than the limit. -/
def clamp (limit : Option Duration) (duration : Duration) : Duration :=
  match limit with
  | some limit => ⟨min duration.nanoseconds limit.nanoseconds⟩
  | none => duration

/-- The units that durations are written in. -/
inductive Unit where
  | nanosecond
  | microsecond
  | millisecond
  | second
  | minute
  | hour
  | day
  | week
  | month
  | year
  deriving DecidableEq, Repr

/-- The length of a unit in nanoseconds. A year is 365.25 days and a month a twelfth of that, rounded
to a whole number of seconds. -/
def Unit.nanoseconds : Unit → Nat
  | .nanosecond => 1
  | .microsecond => 1000
  | .millisecond => 1000000
  | .second => nanosecondsPerSecond
  | .minute => 60 * nanosecondsPerSecond
  | .hour => 3600 * nanosecondsPerSecond
  | .day => 86400 * nanosecondsPerSecond
  | .week => 604800 * nanosecondsPerSecond
  | .month => 2630016 * nanosecondsPerSecond
  | .year => 31557600 * nanosecondsPerSecond

/-- The names under which a unit may be written. -/
def Unit.names : Unit → List String
  | .nanosecond => ["nanos", "nsec", "ns"]
  | .microsecond => ["usec", "us", "µs"]
  | .millisecond => ["millis", "msec", "ms"]
  | .second => ["seconds", "second", "secs", "sec", "s"]
  | .minute => ["minutes", "minute", "min", "mins", "m"]
  | .hour => ["hours", "hour", "hr", "hrs", "h"]
  | .day => ["days", "day", "d"]
  | .week => ["weeks", "week", "wk", "wks", "w"]
  | .month => ["months", "month", "M"]
  | .year => ["years", "year", "yr", "yrs", "y"]

/-- Every unit, the shortest first. -/
def Unit.all : List Unit :=
  [.nanosecond, .microsecond, .millisecond, .second, .minute, .hour, .day, .week, .month, .year]

/-- The unit that a name stands for. -/
def Unit.ofName? (name : List Char) : Option Unit :=
  Unit.all.find? fun unit => unit.names.any fun candidate => candidate.toList = name

end Duration

end Orchestration
