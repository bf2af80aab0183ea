/-!
# Workflow — families of faults

Every fault belongs to a family with a public name. Families nest: whoever
handles a wider family handles the narrower ones too, and some belong to a
general family that knows nothing of workflows besides.
-/

namespace Workflow

/-- The families of faults. -/
inductive Family where
  /-- Whatever goes wrong with a workflow. -/
  | machine
  /-- A definition, or a state of it, is malformed. -/
  | definition
  /-- The start state is missing or not declared. -/
  | missingStart
  /-- A state's type is none of the known ones. -/
  | invalidType
  /-- A state is not declared. -/
  | stateNotFound
  /-- A path cannot be read or followed. -/
  | invalidPath
  /-- A state neither ends the run nor names a next one. -/
  | noNext
  /-- A state's type is known, but not run. -/
  | unsupportedType
  /-- A resource is not registered. -/
  | resourceNotFound
  /-- A resource defers its reply where nothing waits for it. -/
  | deferredResource
  /-- A result neither ends the run nor names a next state. -/
  | resultInvariant
  /-- A run goes past its limit. -/
  | tooManyTransitions
  /-- Text is not UTF-8. -/
  | illFormedText
  /-- Something else than a state was to be run. -/
  | unknownKind
  /-- An iterator has nothing left; by the name that somebody else gives it. -/
  | exhausted (name : String)
  /-- Any other family of somebody else's, by its name. -/
  | foreign (name : String)
  deriving DecidableEq, Repr

namespace Family

/-- The name that a family is reported by. -/
def name : Family → String
  | machine => "StateMachineError"
  | definition => "DefinitionError"
  | missingStart => "MissingStartStateError"
  | invalidType => "InvalidStateTypeError"
  | stateNotFound => "StateNotFoundError"
  | invalidPath => "InvalidPathError"
  | noNext => "NonTerminalWithoutNextError"
  | unsupportedType => "UnsupportedStateTypeError"
  | resourceNotFound => "ResourceNotFoundError"
  | deferredResource => "AsyncResourceError"
  | resultInvariant => "RunStateResultInvariantError"
  | tooManyTransitions => "MaxTransitionsExceededError"
  | illFormedText => "UnicodeDecodeError"
  | unknownKind => "ValueError"
  | exhausted name | foreign name => name

/-- The families of this library, those of its own making. -/
def own : List Family :=
  [machine, definition, missingStart, invalidType, stateNotFound, invalidPath, noNext,
    unsupportedType, resourceNotFound, deferredResource, resultInvariant, tooManyTransitions]

/-- The family with a name; a name of none of this library's is somebody
else's. -/
def ofName (name : String) : Family :=
  ((exhausted "StopIteration" :: own).find? fun f => f.name = name).getD (foreign name)

/-- All wider families but the one that holds everything. -/
def wider : Family → List Family
  | machine => []
  | definition => [machine, foreign "ValueError"]
  | missingStart | invalidType | stateNotFound | invalidPath =>
    [definition, machine, foreign "ValueError"]
  | noNext | unsupportedType | tooManyTransitions => [machine]
  | resourceNotFound => [machine, foreign "KeyError", foreign "LookupError"]
  | deferredResource => [machine, foreign "TypeError"]
  | resultInvariant => [machine, foreign "ValueError"]
  | illFormedText => [foreign "ValueError"]
  | unknownKind | exhausted _ | foreign _ => []

/-- The names of a family and of all wider ones, in order. -/
def lineage (f : Family) : List String :=
  ("Exception" :: f.name :: f.wider.map name).mergeSort (· ≤ ·)

end Family

end Workflow
