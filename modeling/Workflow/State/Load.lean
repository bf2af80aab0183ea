import Workflow.Definition
import Workflow.State.Basic
/-!
# Workflow — loading a state

A raw state is decided by its type before anything else: an unknown type
hides all other faults. Then its fields are fitted in their own order, and
last the required ones are missed.
-/

namespace Workflow

namespace StateType

/-- The fields that say where a state leads. -/
def exitFields : Entries Shape :=
  [("Next", .optionalText), ("End", .flag)]

/-- The fields that say how a state moves data. -/
def flowFields : Entries Shape :=
  [("ResultPath", .optionalText), ("InputPath", .optionalText), ("Input", .any),
    ("OutputPath", .optionalText)]

/-- The fields of a type of its own, next to a state's type and remark. -/
def ownFields : StateType → Entries Shape
  | task => ("Resource", .text) :: (flowFields ++ exitFields)
  | pass => flowFields ++ exitFields
  | succeed => exitFields
  | fail => [("Error", .optionalText), ("Cause", .optionalText)] ++ exitFields
  | choice => [("Choices", .objects), ("Default", .optionalText)]
  | parallel => ("Branches", .objects) :: exitFields
  | wait | map => exitFields

/-- A type is run, and its states are held to their fields. -/
def isRun : StateType → Bool
  | task | pass | succeed | fail => true
  | choice | parallel | wait | map => false

/-- The fields of a state of a type. -/
def record (t : StateType) : Record where
  fields := [("Type", .text), ("Comment", .optionalText)] ++ t.ownFields
  strict := t.isRun

end StateType

namespace Members

/-- The text of a field that must be there. -/
def requireText (ms : Members) (key : String) : Except Problem String :=
  match text? ms key with
  | some s => .ok s
  | none => .error (.misfit (.missingField key))

/-- The text of a field that must be there and may be null. -/
def requireRule (ms : Members) (key : String) : Except Problem (Option String) :=
  match rule ms key with
  | some s => .ok s
  | none => .error (.misfit (.missingField key))

/-- Where the fields of a state lead. -/
def exit (ms : Members) : Exit where
  next := text? ms "Next"
  ends := flag ms "End"

/-- How the fields of a state move data. -/
def flow (ms : Members) : Except Problem DataFlow := do
  let resultPath ← requireRule ms "ResultPath"
  return {
    input := Entries.get? ms "Input"
    inputPath := .ofRule (rule ms "InputPath")
    resultPath
    outputPath := .ofRule (rule ms "OutputPath") }

end Members

/-- The work of a type that has the given fields. -/
def Work.ofMembers (ms : Members) : StateType → Except Problem Work
  | .task => do
    let resource ← Members.requireText ms "Resource"
    let flow ← Members.flow ms
    return .task resource flow (Members.exit ms)
  | .pass => do
    let flow ← Members.flow ms
    return .pass flow (Members.exit ms)
  | .succeed => .ok (.succeed (Members.exit ms))
  | .fail =>
    .ok (.fail (Members.text? ms "Error") (Members.text? ms "Cause") (Members.exit ms))
  | .choice => .ok (.choice (Members.objects ms "Choices") (Members.text? ms "Default"))
  | .parallel => .ok (.parallel (Members.objects ms "Branches") (Members.exit ms))
  | .wait => .ok (.wait (Members.exit ms))
  | .map => .ok (.map (Members.exit ms))

namespace State

/-- The state of a type that a raw one gives. -/
def fit (t : StateType) (raw : Members) : Except Problem State := do
  let ms ← t.record.fit (.obj (Json.Draft.ofMembers raw))
  let work ← Work.ofMembers ms t
  return ⟨Members.text? ms "Comment", work⟩

/-- The fault of a raw state that gives no state. -/
def faultOf (name : StateName) : Problem → Fault
  | .malformed => .malformedText
  | .illFormed => .illFormedText
  | .misfit m => .badState name m

/-- The state that a raw one gives. -/
def ofMembers (name : StateName) (raw : Members) : Except Fault State :=
  let type := Entries.get? raw "Type"
  match type.bind StateType.ofJson? with
  | none => .error (.invalidType type name)
  | some t => (fit t raw).mapError (faultOf name)

end State

/-- The state that a definition declares under a name. -/
def Definition.state (d : Definition) (name : String) : Except Fault State :=
  match Entries.get? d.states name with
  | none => .error (.stateNotFound (.str name))
  | some raw => State.ofMembers (.str name) raw

end Workflow
