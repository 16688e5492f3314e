import Orchestration.Duration.Basic
import Orchestration.Timestamp.Basic

/-!
# Engine settings

The two limits that every run of an engine keeps to.
-/

namespace Orchestration

/-- The limits of an engine. -/
structure Settings where
  /-- How many times the body of a loop may run. -/
  maxLoopIterations : Nat
  /-- How long a wait may last; absent, as long as it asks for. -/
  maxWait : Option Duration
  deriving DecidableEq, Repr

namespace Settings

/-- The settings of an engine that is given none. -/
def default : Settings := ⟨10000, none⟩

/-- How long a wait lasts that asks for a duration. -/
def clampWait (settings : Settings) (requested : Duration) : Duration :=
  requested.clamp settings.maxWait

end Settings

end Orchestration
