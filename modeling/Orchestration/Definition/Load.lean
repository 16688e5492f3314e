import Orchestration.Definition.Reading
import Orchestration.Document.Json
import Orchestration.Document.Yaml
import Orchestration.Failure

/-!
# Definitions from text

A text is read in one of the two dialects. Why it is no definition is not told apart: every reason ends
in the same failure.
-/

namespace Orchestration.Definition

/-- The failure of a text that is no definition. -/
def unreadable : Failure :=
  (Failure.ofMessage .definition "failed to parse process definition").withCode "PFX-DEF-001"

/-- The definition that a text spells in a dialect. -/
def ofText (dialect : Dialect) (text : String) : Except Failure Definition :=
  let document? :=
    match dialect with
    | .json => Json.read? text.toList
    | .yaml => Yaml.read? text.toList
  match document?.bind (Definition.read? dialect) with
  | some definition => .ok definition
  | none => .error unreadable

end Orchestration.Definition
