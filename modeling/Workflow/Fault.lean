import Workflow.Fault.Wording
import Workflow.Path.Basic
import Workflow.Shape
/-!
# Workflow — faults

Whatever goes wrong while a workflow is loaded or run is a fault, told apart
by its cause. A fault belongs to a family and is about some values;
`Fault.message` and `Fault.details` follow from the two. Nothing is retried:
a fault ends what it happens in.
-/

namespace Workflow

/-- What a state goes by. A definition gives texts, and nothing else is the
name of a next state; only where definitions are loose, or a single state is
asked for, other values come in. -/
abbrev StateName := Json

/-- What can go wrong, by cause. -/
inductive Fault where
  /-- The text of a definition is not JSON. -/
  | malformedText
  /-- The text of a definition is not UTF-8. -/
  | illFormedText
  /-- A definition has the wrong shape. -/
  | badDefinition (misfit : Misfit)
  /-- A state has the wrong shape. -/
  | badState (name : StateName) (misfit : Misfit)
  /-- No start state is given, or the one given is not declared. -/
  | missingStart (startAt : Option Json)
  /-- A state's type is not a known one; no value if the state has none. -/
  | invalidType (type : Option Json) (name : StateName)
  /-- A state is not declared. -/
  | stateNotFound (name : StateName)
  /-- A path cannot be read or followed. -/
  | invalidPath (path : String) (problem : PathProblem)
  /-- A number has more digits than are read. -/
  | longNumeral (digits : Nat)
  /-- A state neither ends the run nor names a next one. -/
  | noNext (name : StateName)
  /-- A state's type is known, but not run. -/
  | unsupportedType (type : String) (name : StateName)
  /-- A resource is not registered. -/
  | resourceNotFound (id : Json)
  /-- A resource defers its reply where nothing waits for it. -/
  | deferredResource (id : String)
  /-- A result neither ends the run nor names a next state. -/
  | resultInvariant
  /-- A run goes past its limit after a state. -/
  | tooManyTransitions (limit : Int) (last : StateName)
  /-- A value that is no state was to be run. -/
  | notAState (kind : Json.Kind)
  /-- A fault that a reporter states: its family and what it is about. -/
  | stated (family : Family) (about : List Json)

namespace Fault

/-- The family of a fault. -/
def family : Fault → Family
  | malformedText | badDefinition _ | badState _ _ => .definition
  | illFormedText => .illFormedText
  | missingStart _ => .missingStart
  | invalidType _ _ => .invalidType
  | stateNotFound _ => .stateNotFound
  | invalidPath _ _ => .invalidPath
  | longNumeral _ => .foreign "ValueError"
  | noNext _ => .noNext
  | unsupportedType _ _ => .unsupportedType
  | resourceNotFound _ => .resourceNotFound
  | deferredResource _ => .deferredResource
  | resultInvariant => .resultInvariant
  | tooManyTransitions _ _ => .tooManyTransitions
  | notAState _ => .unknownKind
  | stated family _ => family

/-- The values that a fault is about, in the order of its family. -/
def about : Fault → List Json
  | malformedText | illFormedText => []
  | badDefinition misfit => [.str ("Invalid definition: " ++ misfit.text)]
  | badState name misfit => [.str ("State '" ++ name.display ++ "' is invalid: " ++ misfit.text)]
  | missingStart startAt => [startAt.getD .null]
  | invalidType type name => [type.getD .null, name]
  | stateNotFound name | noNext name => [name]
  | invalidPath path problem => [.str path, .str problem.text]
  | longNumeral digits =>
    [.str ("Exceeds the limit (" ++ toString Text.digitLimit ++
      " digits) for integer string conversion: value has " ++ toString digits ++
      " digits; use sys.set_int_max_str_digits() to increase the limit")]
  | unsupportedType type name => [.str type, name]
  | resourceNotFound id => [id]
  | deferredResource id => [.str id]
  | resultInvariant => [.str "next_state_name must be non-null when the state is non-terminal"]
  | tooManyTransitions limit last => [.int limit, last]
  | notAState kind => [.str ("Unknown state kind: <class '" ++ kind.displayName ++ "'>")]
  | stated _ about => about

/-- A fault in words. Of text that is not JSON or not UTF-8 no more is said
than that. -/
def message : Fault → Option String
  | malformedText | illFormedText => none
  | fault => some (fault.family.words fault.about)

/-- What a fault is about, by name. -/
def details (fault : Fault) : Members :=
  fault.family.details fault.about

/-- The fault of a text that is not read as a path. -/
def ofRefusal (path : String) : Path.Refusal → Fault
  | .malformed problem => invalidPath path problem
  | .tooLong digits => longNumeral digits

/-- A fault as it comes out of waiting. To wait is to iterate, and the end of
that brings the answer; so the end of another iteration is not handed on as what
it is, and a failure at run time comes out in its place. -/
def awaited : Fault → Fault
  | stated (.exhausted _) _ =>
    stated (.foreign "RuntimeError") [.str "coroutine raised StopIteration"]
  | fault => fault

/-- The fault of a definition whose draft gives no value. -/
def ofDefinition : Problem → Fault
  | .malformed => malformedText
  | .illFormed => illFormedText
  | .misfit m => badDefinition m

end Fault

end Workflow
