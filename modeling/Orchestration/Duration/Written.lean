import Orchestration.Duration.Basic

/-!
# Writing durations

A duration is written as its nonzero parts, the longest unit first, with blanks between them. Years,
months and days are spelled out and take an ending in the plural; the other units have short names.
-/

namespace Orchestration.Duration

/-- A part that is spelled out. -/
def spelledPart (count : Nat) (name : String) : List String :=
  if count = 0 then [] else [s!"{count}{name}" ++ (if 1 < count then "s" else "")]

/-- A part with a short name. -/
def shortPart (count : Nat) (name : String) : List String :=
  if count = 0 then [] else [s!"{count}{name}"]

/-- The nonzero parts of a duration. -/
def parts (duration : Duration) : List String :=
  let seconds := duration.seconds
  let inYear := seconds % 31557600
  let inMonth := inYear % 2630016
  let inDay := inMonth % 86400
  let nanoseconds := duration.subsecond
  spelledPart (seconds / 31557600) "year" ++ spelledPart (inYear / 2630016) "month" ++
    spelledPart (inMonth / 86400) "day" ++ shortPart (inDay / 3600) "h" ++
    shortPart (inDay % 3600 / 60) "m" ++ shortPart (inDay % 60) "s" ++
    shortPart (nanoseconds / 1000000) "ms" ++ shortPart (nanoseconds / 1000 % 1000) "us" ++
    shortPart (nanoseconds % 1000) "ns"

/-- The text of a duration. -/
def text (duration : Duration) : String :=
  if duration.nanoseconds = 0 then "0s" else " ".intercalate duration.parts

end Orchestration.Duration
