import Workflow.Execution.Step
import Workflow.Result
import Workflow.State.Load
/-!
# Workflow — executing a state

A Task computes its payload, finds its resource, calls it once, puts the
answer into the document and passes a part of that on; a Pass does the same
without a resource. Every state that runs concludes the same way: it ends
the run or names the next state. A state is executed at once or with patience,
and only a Task has two ways of it.
-/

namespace Workflow

namespace Registry

variable {σ : Type}

/-- Finds the resource that is registered under an id. -/
def find (registry : Registry σ) (id : String) : Step σ (Resource σ) :=
  match registry.find? id with
  | some resource => pure resource
  | none => Step.fail (.resourceNotFound (.str id))

end Registry

/-- Hands a payload to a resource and takes the answer at once. The call counts
whatever comes of it. -/
def Resource.callSync {σ : Type} (resource : Resource σ) (id : String) (payload : Json) :
    Step σ Json := fun world =>
  let taken := (resource payload world).takeSync id
  ⟨taken.1, [.called id payload], taken.2⟩

/-- Hands a payload to a resource and waits for the answer. -/
def Resource.callAsync {σ : Type} (resource : Resource σ) (id : String) (payload : Json) :
    Step σ Json := fun world =>
  let taken := (resource payload world).takeAsync
  ⟨taken.1, [.called id payload], taken.2⟩

/-- Hands a payload to a resource in one mode or the other. -/
def Resource.call {σ : Type} (resource : Resource σ) (mode : Mode) (id : String) (payload : Json) :
    Step σ Json :=
  match mode with
  | .sync => resource.callSync id payload
  | .async => resource.callAsync id payload

/-- **A call takes the reply of its mode.** -/
theorem Resource.call_apply {σ : Type} (resource : Resource σ) (mode : Mode) (id : String)
    (payload : Json) (world : σ) : resource.call mode id payload world =
      ⟨((resource payload world).take mode id).1, [.called id payload],
        ((resource payload world).take mode id).2⟩ := by
  cases mode <;> rfl

/-- Finds a resource and hands it a payload. -/
def Registry.call {σ : Type} (registry : Registry σ) (mode : Mode) (id : String) (payload : Json) :
    Step σ Json := do
  let resource ← registry.find id
  resource.call mode id payload

namespace State

variable {σ : Type}

/-- Where control goes after a state has computed its data. An empty name is
no next state. -/
def conclude (s : State) (name : StateName) (data : Json) : Step σ Result :=
  if s.isTerminal then do
    Step.emit (.ended name)
    return .final data s.type.name
  else
    match s.next with
    | none | some "" => Step.fail (.noNext name)
    | some next => do
      Step.emit (.moved name next)
      return .step data s.type.name next

/-- Puts a computed result into the document and concludes. -/
def finish (s : State) (flow : DataFlow) (name : StateName) (document result : Json) :
    Step σ Result := do
  let data ← Step.ofExcept (flow.output document result)
  s.conclude name data

/-- Executes a state on a document at once. -/
def executeSync (s : State) (registry : Registry σ) (name : StateName) (document : Json) :
    Step σ Result :=
  match s.work with
  | .task id flow _ => do
    let payload ← Step.ofExcept (flow.payload document)
    let resource ← registry.find id
    Step.emit (.invoking name id)
    let answer ← resource.callSync id payload
    s.finish flow name document answer
  | .pass flow _ => do
    let payload ← Step.ofExcept (flow.payload document)
    s.finish flow name document payload
  | .succeed _ => s.conclude name document
  | .fail error cause _ => do
    Step.emit (.failing name error cause)
    s.conclude name document
  | .choice _ _ | .parallel _ _ | .wait _ | .map _ =>
    Step.fail (.unsupportedType s.type.name name)

/-- Executes a state with patience: a Task waits for its resource, and nothing
else has anything to wait for. -/
def executeAsync (s : State) (registry : Registry σ) (name : StateName) (document : Json) :
    Step σ Result :=
  match s.work with
  | .task id flow _ => do
    let payload ← Step.ofExcept (flow.payload document)
    let resource ← registry.find id
    Step.emit (.invoking name id)
    let answer ← resource.callAsync id payload
    s.finish flow name document answer
  | _ => s.executeSync registry name document

/-- Executes a state in one mode or the other. -/
def execute (s : State) (registry : Registry σ) (mode : Mode) (name : StateName)
    (document : Json) : Step σ Result :=
  match mode with
  | .sync => s.executeSync registry name document
  | .async => s.executeAsync registry name document

/-- **The two ways of executing a state are in step.** In either mode a state
does the same things in the same order; the mode enters where a resource is
called. -/
theorem execute_eq (s : State) (registry : Registry σ) (mode : Mode) (name : StateName)
    (document : Json) : s.execute registry mode name document =
      match s.work with
      | .task id flow _ => do
        let payload ← Step.ofExcept (flow.payload document)
        let resource ← registry.find id
        Step.emit (.invoking name id)
        let answer ← resource.call mode id payload
        s.finish flow name document answer
      | .pass flow _ => do
        let payload ← Step.ofExcept (flow.payload document)
        s.finish flow name document payload
      | .succeed _ => s.conclude name document
      | .fail error cause _ => do
        Step.emit (.failing name error cause)
        s.conclude name document
      | .choice _ _ | .parallel _ _ | .wait _ | .map _ =>
        Step.fail (.unsupportedType s.type.name name) := by
  cases mode with
  | sync => rfl
  | async =>
    simp only [execute, executeAsync, executeSync]
    cases s.work <;> rfl

end State

/-- What runs a state. -/
inductive Handler where
  | task | pass | succeed | fail | unsupported
  deriving DecidableEq, Repr

namespace Handler

/-- What runs states of a type. -/
def ofType : StateType → Handler
  | .task => task
  | .pass => pass
  | .succeed => succeed
  | .fail => fail
  | .choice | .parallel | .wait | .map => unsupported

/-- What runs a bare value: nothing does. -/
def ofJson (v : Json) : Except Fault Handler :=
  .error (.notAState v.kind)

end Handler

end Workflow
