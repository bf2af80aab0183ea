import Workflow.Fault.Family
import Workflow.Json.Display
/-!
# Workflow — the wording of faults

A fault is about some values, mostly names. Its family says how many and
which they are: `Family.words` puts them into a sentence, `Family.details`
hands them out under names. Both take whatever values they are given.
-/

namespace Workflow

namespace Family

/-- The names of the values that a fault of a family hands out. -/
def labels : Family → List String
  | missingStart => ["start_at"]
  | invalidType | unsupportedType => ["state_type", "state_name"]
  | stateNotFound | noNext => ["state_name"]
  | invalidPath => ["path"]
  | resourceNotFound | deferredResource => ["resource_id"]
  | tooManyTransitions => ["limit", "state_name"]
  | machine | definition | resultInvariant | illFormedText | unknownKind | exhausted _
  | foreign _ => []

/-- The values that a fault is about, by name; one that is not given is
null. -/
def details (f : Family) (about : List Json) : Members :=
  f.labels.mapIdx fun i label => (label, about[i]?.getD .null)

/-- A fault in the words of its family. A family without a wording of its
own says what it is given. -/
def words (f : Family) (about : List Json) : String :=
  let first := about[0]?.getD .null
  let second := about[1]?.getD .null
  match f with
  | missingStart =>
    match first with
    | .null => "StartAt does not exist"
    | v => "StartAt does not exist: state '" ++ v.display ++ "' is not declared"
  | invalidType => "Invalid Type: " ++ first.display
  | stateNotFound => "State '" ++ first.display ++ "' does not exist"
  | invalidPath => "Invalid path '" ++ first.display ++ "': " ++ second.display
  | noNext => "State '" ++ first.display ++ "' is not terminal and declares no Next state"
  | unsupportedType =>
    "State '" ++ second.display ++ "': Type '" ++ first.display ++ "' is not supported"
  | resourceNotFound => "No resource registered for '" ++ first.display ++ "'"
  | deferredResource =>
    "Resource '" ++ first.display ++
      "' returned an awaitable; use run_async() or run_state_async()"
  | tooManyTransitions =>
    "Run exceeded " ++ first.display ++ " state transitions (last state '" ++ second.display ++
      "')"
  | machine | definition | resultInvariant | illFormedText | unknownKind | exhausted _
  | foreign _ =>
    (about.head?.map Json.display).getD ""

end Family

end Workflow
