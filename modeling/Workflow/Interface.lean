import Workflow.Fault.Family
/-!
# Workflow — public names

The names under which the parts of the library are known to those who use
it: the parts themselves and the families of faults.
-/

namespace Workflow

/-- All public names, in order. -/
def publicNames : List String :=
  (["Definition", "ExecutionOptions", "RunStateResult", "StateMachine", "StateType"] ++
    Family.own.map Family.name).mergeSort (· ≤ ·)

end Workflow
