import Workflow.Fault
import Workflow.Json.Same
/-!
# Workflow — results

What executing one state yields: its data, and where control goes. A result
that does not end the run names the next state. A summary has the same
parts as whoever writes it down gives them, so `Summary.check` asks that of
it; the summary of a result always passes.
-/

namespace Workflow

/-- The outcome of one state. -/
structure Result where
  /-- The document that is passed on. -/
  data : Json
  /-- The type of the state. -/
  stateType : String
  /-- The state to go on with. -/
  next : Option String
  /-- The run ends here. -/
  terminal : Bool
  /-- A run that goes on has somewhere to go. -/
  onward : next = none → terminal = true

namespace Result

/-- The result of a state that ends the run. -/
def final (data : Json) (stateType : String) : Result :=
  ⟨data, stateType, none, true, fun _ => rfl⟩

/-- The result of a state that goes on to another. -/
def step (data : Json) (stateType next : String) : Result :=
  ⟨data, stateType, some next, false, nofun⟩

/-- The state that the run goes on with. -/
def successor (r : Result) : Option String :=
  if r.terminal then none else r.next

/-- **A result either ends the run or leads on.** It has no successor
exactly if it ends the run. -/
theorem successor_eq_none_iff (r : Result) : r.successor = none ↔ r.terminal = true := by
  unfold successor
  split
  · simp_all
  · rename_i h
    exact ⟨fun hn => absurd (r.onward hn) h, fun ht => absurd ht h⟩

end Result

/-- What a result says, part by part. -/
structure Summary where
  /-- The document that is passed on. -/
  data : Json
  /-- The type of the state. -/
  stateType : Json
  /-- The state to go on with; null for none. -/
  next : Json
  /-- The run ends here. -/
  terminal : Json

namespace Summary

/-- A summary, if it either ends the run or names a next state. -/
def check (s : Summary) : Except Fault Summary :=
  match s.next with
  | .null => if s.terminal.vacuous then .error .resultInvariant else .ok s
  | _ => .ok s

/-- The parts of a summary, by name. -/
def toMembers (s : Summary) : Members :=
  [("data", s.data), ("state_type", s.stateType), ("next_state_name", s.next),
    ("is_terminal_state", s.terminal)]

/-- A summary as an object. -/
def toJson (s : Summary) : Json :=
  .obj s.toMembers

/-- A summary as JSON text. -/
def toText (s : Summary) : String :=
  s.toJson.render

/-- Two summaries count as equal, part by part. -/
def same (s t : Summary) : Bool :=
  s.data.same t.data && s.stateType.same t.stateType && s.next.same t.next &&
    s.terminal.same t.terminal

end Summary

namespace Result

/-- What a result says. -/
def summary (r : Result) : Summary where
  data := r.data
  stateType := .str r.stateType
  next := .ofText? r.next
  terminal := .bool r.terminal

/-- **Every result has a summary in order.** -/
theorem check_summary (r : Result) : r.summary.check = .ok r.summary := by
  obtain ⟨data, stateType, next, terminal, onward⟩ := r
  cases next with
  | none => simp [summary, Summary.check, Json.ofText?, Json.vacuous, onward rfl]
  | some name => rfl

/-- The parts of a result, by name. -/
def toMembers (r : Result) : Members :=
  r.summary.toMembers

/-- A result as an object. -/
def toJson (r : Result) : Json :=
  r.summary.toJson

/-- A result as JSON text. -/
def toText (r : Result) : String :=
  r.summary.toText

/-- Two results count as equal. -/
def same (r s : Result) : Bool :=
  r.summary.same s.summary

end Result

end Workflow
