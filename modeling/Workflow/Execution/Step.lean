import Workflow.Resource.Basic
import Workflow.State.Basic
/-!
# Workflow — steps and what they leave

Running something in a world of resources yields a value or a fault, the
events on the way in order, and the world after it. Events are kept also
when the step fails. `calls`, `entered` and `messages` are the views of the
events that reports show.
-/

namespace Workflow

/-- Something that happens in a run. -/
inductive Event where
  /-- A state is to be run, under this name. -/
  | reached (name : StateName)
  /-- A state is loaded and about to be executed. -/
  | entering (type : StateType) (name : StateName)
  /-- A Task has found its resource. -/
  | invoking (name : StateName) (id : String)
  /-- A resource is handed a payload. -/
  | called (id : String) (payload : Json)
  /-- A Fail state says why. -/
  | failing (name : StateName) (error cause : Option String)
  /-- A state ends the run. -/
  | ended (name : StateName)
  /-- A state goes on to another. -/
  | moved (name : StateName) (next : String)

namespace Event

/-- The line that an event leaves in the log, if any. -/
def message? : Event → Option String
  | reached _ | called _ _ => none
  | entering type name => some ("Entering " ++ type.name ++ " state '" ++ name.display ++ "'")
  | invoking name id =>
    some ("Task '" ++ name.display ++ "' invoking resource '" ++ id ++ "'")
  | failing name error cause =>
    some ("Fail state '" ++ name.display ++ "' reached (error=" ++
      (Json.ofText? error).display ++ ", cause=" ++ (Json.ofText? cause).display ++ ")")
  | ended name => some ("State '" ++ name.display ++ "' is terminal")
  | moved name next =>
    some ("State '" ++ name.display ++ "' transitions to '" ++ next ++ "'")

/-- The call that an event is. -/
def call? : Event → Option (String × Json)
  | called id payload => some (id, payload)
  | _ => none

/-- The state that an event reaches. -/
def reached? : Event → Option StateName
  | reached name => some name
  | _ => none

end Event

/-- What running something leaves. -/
structure Ran (σ α : Type) where
  /-- A value, or the fault that ended it. -/
  outcome : Except Fault α
  /-- What happened, in order. -/
  events : List Event
  /-- The world after it. -/
  world : σ

namespace Ran

variable {σ α : Type}

/-- The same, with events before it. -/
def after (events : List Event) (ran : Ran σ α) : Ran σ α :=
  { ran with events := events ++ ran.events }

/-- The resources that were called, with their payloads. -/
def calls (ran : Ran σ α) : List (String × Json) :=
  ran.events.filterMap Event.call?

/-- The states that were reached. -/
def entered (ran : Ran σ α) : List StateName :=
  ran.events.filterMap Event.reached?

/-- The lines of the log. -/
def messages (ran : Ran σ α) : List String :=
  ran.events.filterMap Event.message?

/-! The views read the events in order, so earlier events show first. -/

@[simp] theorem calls_after (events : List Event) (ran : Ran σ α) :
    (ran.after events).calls = events.filterMap Event.call? ++ ran.calls := by
  simp [calls, after]

@[simp] theorem entered_after (events : List Event) (ran : Ran σ α) :
    (ran.after events).entered = events.filterMap Event.reached? ++ ran.entered := by
  simp [entered, after]

@[simp] theorem messages_after (events : List Event) (ran : Ran σ α) :
    (ran.after events).messages = events.filterMap Event.message? ++ ran.messages := by
  simp [messages, after]

/-- Events before events before a step. -/
@[simp] theorem after_after (events events' : List Event) (ran : Ran σ α) :
    (ran.after events).after events' = ran.after (events' ++ events) := by
  simp [after]

end Ran

/-- Something to run in a world. -/
def Step (σ α : Type) := σ → Ran σ α

namespace Step

variable {σ α β : Type}

/-- A value, with nothing happening. -/
protected def pure (a : α) : Step σ α :=
  fun world => ⟨.ok a, [], world⟩

/-- One step, then another from its value. -/
protected def bind (s : Step σ α) (f : α → Step σ β) : Step σ β :=
  fun world =>
    let first := s world
    match first.outcome with
    | .ok a => (f a first.world).after first.events
    | .error fault => ⟨.error fault, first.events, first.world⟩

instance : Monad (Step σ) where
  pure := Step.pure
  bind := Step.bind

/-! A step without events changes nothing, and the events of steps in a row
are in a row, however the steps are grouped. -/

instance : LawfulMonad (Step σ) := LawfulMonad.mk' (Step σ)
  (fun s => by
    funext world
    rcases h : s world with ⟨_ | _, events, world'⟩ <;>
      simp [Functor.map, Step.bind, Step.pure, Ran.after, h])
  (fun a f => by
    funext world
    simp [bind, pure, Step.bind, Step.pure, Ran.after])
  (fun s f g => by
    funext world
    rcases h : s world with ⟨_ | a, events, world'⟩
    · simp [bind, Step.bind, h]
    · rcases h' : f a world' with ⟨_ | _, events', world''⟩ <;>
        simp [bind, Step.bind, Ran.after, h, h'])

/-- A value or a fault, with nothing happening. -/
def ofExcept (e : Except Fault α) : Step σ α :=
  fun world => ⟨e, [], world⟩

/-- A fault. -/
def fail (fault : Fault) : Step σ α :=
  ofExcept (.error fault)

/-- An event. -/
def emit (event : Event) : Step σ Unit :=
  fun world => ⟨.ok (), [event], world⟩

/-! In a world, an event goes before what comes next, a value is handed on
and a fault ends the step. -/

@[simp] theorem fail_apply (fault : Fault) (world : σ) :
    (fail fault : Step σ α) world = ⟨.error fault, [], world⟩ := rfl

@[simp] theorem fail_bind (fault : Fault) (f : α → Step σ β) :
    (fail fault >>= f) = fail fault := rfl

@[simp] theorem emit_bind (event : Event) (f : Unit → Step σ β) (world : σ) :
    (emit event >>= f) world = (f () world).after [event] := rfl

@[simp] theorem ok_bind (a : α) (f : α → Step σ β) (world : σ) :
    (ofExcept (.ok a) >>= f) world = f a world := rfl

@[simp] theorem error_bind (fault : Fault) (f : α → Step σ β) (world : σ) :
    (ofExcept (.error fault) >>= f) world = ⟨.error fault, [], world⟩ := rfl

end Step

end Workflow
