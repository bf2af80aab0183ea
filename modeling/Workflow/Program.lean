import Workflow.Lookup
import Workflow.State.Load
/-!
# Workflow — programs

All that a run asks of a workflow is where it starts and which state is
declared under a name. A program answers just that, so definitions that are
held to their shapes and those that are not can be run alike.
-/

namespace Workflow

/-- A workflow as a run sees it. -/
structure Program where
  /-- The name of the state that a run starts with. -/
  start : Except Fault StateName
  /-- The state that is declared under a name. -/
  state : StateName → Except Fault State

/-- A definition as a run sees it. Only texts are names there. -/
def Definition.program (d : Definition) : Program where
  start := d.start.map Json.str
  state name := name.textOr .stateNotFound >>= d.state

end Workflow
