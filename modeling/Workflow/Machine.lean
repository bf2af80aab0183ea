import Workflow.Execution.State
import Workflow.Program
/-!
# Workflow — machines and runs

A machine runs a program over a registry of resources, one state at a
time, from the start state until one ends the run. Nothing bounds the number
of states unless the machine has a limit, so a run may go on for ever; it
has no outcome then. A run takes replies at once or waits for them, in a loop
of its own each; `Machine.walk_eq` is the equation that both loops satisfy.
-/

namespace Workflow

/-- Where a run stands before it runs a state. -/
structure Stop (σ : Type) where
  /-- The state that is to be run. -/
  name : StateName
  /-- The document that it is run on. -/
  document : Json
  /-- The world that it is run in. -/
  world : σ

/-- Where a run stands after a state, if that leads on to another. -/
def Ran.onward? {σ : Type} (ran : Ran σ Result) : Option (Stop σ) :=
  match ran.outcome with
  | .ok result => result.successor.map fun next => ⟨.str next, result.data, ran.world⟩
  | .error _ => none

/-- The same, but it fails after its last state for a transition too many. -/
def Ran.overrun {σ : Type} (ran : Ran σ Result) (limit : Int) (last : StateName) :
    Ran σ Result :=
  { ran with outcome := .error (.tooManyTransitions limit last) }

/-- A program, ready to run. -/
structure Machine (σ : Type) where
  /-- What is run. -/
  program : Program
  /-- The resources that it is run over. -/
  registry : Registry σ
  /-- The transitions that a run may make; none for any number. -/
  limit : Option Int

namespace Machine

variable {σ : Type}

/-- Loads the state that is declared under a name and executes it at once. -/
def runStateSync (m : Machine σ) (name : StateName) (document : Json) : Step σ Result := do
  Step.emit (.reached name)
  let s ← Step.ofExcept (m.program.state name)
  Step.emit (.entering s.type name)
  s.executeSync m.registry name document

/-- Loads the state that is declared under a name and executes it with patience. -/
def runStateAsync (m : Machine σ) (name : StateName) (document : Json) : Step σ Result := do
  Step.emit (.reached name)
  let s ← Step.ofExcept (m.program.state name)
  Step.emit (.entering s.type name)
  s.executeAsync m.registry name document

/-- Runs one state in one mode or the other. -/
def runState (m : Machine σ) (mode : Mode) (name : StateName) (document : Json) :
    Step σ Result :=
  match mode with
  | .sync => m.runStateSync name document
  | .async => m.runStateAsync name document

/-- What running the state leaves before which a run stands. -/
def visit (m : Machine σ) (mode : Mode) (s : Stop σ) : Ran σ Result :=
  m.runState mode s.name s.document s.world

/-- A number of transitions is past the limit. -/
def exceeds (m : Machine σ) (count : Nat) : Option Int :=
  m.limit.filter fun limit => limit < count

/-- Runs states at once from a stop on, after some transitions, until one ends
the run or fails; none if no state ever does. -/
def walkSync (m : Machine σ) (count : Nat) (s : Stop σ) : Option (Ran σ Result) :=
  let ran := m.runStateSync s.name s.document s.world
  match ran.onward? with
  | none => some ran
  | some stop =>
    match m.exceeds (count + 1) with
    | some limit => some (ran.overrun limit s.name)
    | none => do
      let rest ← (walkSync m (s := stop)) (count + 1)
      return rest.after ran.events
partial_fixpoint

/-- Runs states with patience from a stop on, after some transitions, until one
ends the run or fails; none if no state ever does. -/
def walkAsync (m : Machine σ) (count : Nat) (s : Stop σ) : Option (Ran σ Result) :=
  let ran := m.runStateAsync s.name s.document s.world
  match ran.onward? with
  | none => some ran
  | some stop =>
    match m.exceeds (count + 1) with
    | some limit => some (ran.overrun limit s.name)
    | none => do
      let rest ← (walkAsync m (s := stop)) (count + 1)
      return rest.after ran.events
partial_fixpoint

/-- Runs states in one mode or the other. -/
def walk (m : Machine σ) (mode : Mode) (count : Nat) (s : Stop σ) : Option (Ran σ Result) :=
  match mode with
  | .sync => m.walkSync count s
  | .async => m.walkAsync count s

/-- Runs a machine from its start state at once; none if the run does not end. -/
def runSync (m : Machine σ) (document : Json) (world : σ) : Option (Ran σ Result) :=
  match m.program.start with
  | .error fault => some ⟨.error fault, [], world⟩
  | .ok name => m.walkSync 0 ⟨name, document, world⟩

/-- Runs a machine from its start state with patience; none if the run does not
end. -/
def runAsync (m : Machine σ) (document : Json) (world : σ) : Option (Ran σ Result) :=
  match m.program.start with
  | .error fault => some ⟨.error fault, [], world⟩
  | .ok name => m.walkAsync 0 ⟨name, document, world⟩

/-- Runs a machine in one mode or the other. -/
def run (m : Machine σ) (mode : Mode) (document : Json) (world : σ) : Option (Ran σ Result) :=
  match mode with
  | .sync => m.runSync document world
  | .async => m.runAsync document world

/-! The two copies are in step: at each level both satisfy one equation, in which
the mode is handed down to the level below. -/

theorem runState_eq (m : Machine σ) (mode : Mode) (name : StateName) (document : Json) :
    m.runState mode name document = (do
      Step.emit (.reached name)
      let s ← Step.ofExcept (m.program.state name)
      Step.emit (.entering s.type name)
      s.execute m.registry mode name document) := by
  cases mode <;> rfl

/-- One turn of the loop in one mode or the other, with what a run comes to
further on. -/
def turn (m : Machine σ) (mode : Mode) (further : Nat → Stop σ → Option (Ran σ Result))
    (count : Nat) (s : Stop σ) : Option (Ran σ Result) :=
  match (m.visit mode s).onward? with
  | none => some (m.visit mode s)
  | some stop =>
    match m.exceeds (count + 1) with
    | some limit => some ((m.visit mode s).overrun limit s.name)
    | none => do
      let rest ← further (count + 1) stop
      return rest.after (m.visit mode s).events

theorem walk_eq (m : Machine σ) (mode : Mode) (count : Nat) (s : Stop σ) :
    m.walk mode count s = m.turn mode (m.walk mode) count s := by
  cases mode with
  | sync =>
    rw [walk, walkSync]
    rfl
  | async =>
    rw [walk, walkAsync]
    rfl

theorem run_eq (m : Machine σ) (mode : Mode) (document : Json) (world : σ) :
    m.run mode document world =
      match m.program.start with
      | .error fault => some ⟨.error fault, [], world⟩
      | .ok name => m.walk mode 0 ⟨name, document, world⟩ := by
  cases mode <;> rfl

end Machine

/-- A definition, ready to run. -/
abbrev Definition.machine {σ : Type} (d : Definition) (registry : Registry σ)
    (limit : Option Int) : Machine σ :=
  ⟨d.program, registry, limit⟩

end Workflow
