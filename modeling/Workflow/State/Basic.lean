import Workflow.DataFlow
/-!
# Workflow — states

A state is of one of eight types. Four of them are run; the other four are
loaded, loosely, so that a definition that uses them can be read.
-/

namespace Workflow

/-- The types of state. -/
inductive StateType where
  | task | pass | succeed | fail | choice | parallel | wait | map
  deriving DecidableEq, Repr

namespace StateType

/-- All types. -/
def all : List StateType :=
  [task, pass, succeed, fail, choice, parallel, wait, map]

/-- The name of a type in definitions and results. -/
def name : StateType → String
  | task => "Task"
  | pass => "Pass"
  | succeed => "Succeed"
  | fail => "Fail"
  | choice => "Choice"
  | parallel => "Parallel"
  | wait => "Wait"
  | map => "Map"

/-- The type that a value names. -/
def ofJson? (v : Json) : Option StateType :=
  v.text?.bind fun s => all.find? fun t => t.name = s

/-- A value names a type. -/
def isKnown (v : Json) : Bool :=
  (ofJson? v).isSome

end StateType

/-- Where a state leads. -/
structure Exit where
  /-- The next state. -/
  next : Option String
  /-- The run ends here. -/
  ends : Bool
  deriving DecidableEq, Repr

/-- What a state does, by type. -/
inductive Work where
  /-- Hands its input to a resource. -/
  | task (resource : String) (flow : DataFlow) (exit : Exit)
  /-- Takes its input as its result. -/
  | pass (flow : DataFlow) (exit : Exit)
  /-- Ends the run. -/
  | succeed (exit : Exit)
  /-- Ends the run and says why. -/
  | fail (error cause : Option String) (exit : Exit)
  /-- Would choose among next states. -/
  | choice (choices : List Members) (fallback : Option String)
  /-- Would run branches side by side. -/
  | parallel (branches : List Members) (exit : Exit)
  /-- Would wait. -/
  | wait (exit : Exit)
  /-- Would run once per element. -/
  | map (exit : Exit)

/-- A state of a workflow. -/
structure State where
  /-- A remark. -/
  comment : Option String
  /-- What it does. -/
  work : Work

namespace Work

/-- The type of state that does such work. -/
def type : Work → StateType
  | task _ _ _ => .task
  | pass _ _ => .pass
  | succeed _ => .succeed
  | fail _ _ _ => .fail
  | choice _ _ => .choice
  | parallel _ _ => .parallel
  | wait _ => .wait
  | map _ => .map

/-- A state ends the run: the first two types if they say so, the next two
always, the others never. -/
def isTerminal : Work → Bool
  | task _ _ exit | pass _ exit => exit.ends
  | succeed _ | fail _ _ _ => true
  | choice _ _ | parallel _ _ | wait _ | map _ => false

/-- The next state that a state names; a choice names none. -/
def next : Work → Option String
  | task _ _ exit | pass _ exit | succeed exit | fail _ _ exit
  | parallel _ exit | wait exit | map exit => exit.next
  | choice _ _ => none

end Work

namespace State

/-- The type of a state. -/
def type (s : State) : StateType := s.work.type

/-- A state ends the run. -/
def isTerminal (s : State) : Bool := s.work.isTerminal

/-- The next state that a state names. -/
def next (s : State) : Option String := s.work.next

end State

end Workflow
