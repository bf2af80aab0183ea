import Workflow.Lookup
import Workflow.Resource.Basic
/-!
# Workflow — scripted resources

A script is a stand-in for a resource that says in advance how it replies.
What it keeps between invocations is the script that is left of it, so a
table of scripts is the world of the registry that they make up.
-/

namespace Workflow

/-- How a stand-in replies. -/
inductive Script where
  /-- With the payload. -/
  | identity
  /-- With a value. -/
  | const (value : Json)
  /-- With an object that holds the payload. -/
  | wrap (key : String)
  /-- With the number of the invocation, after some that are past. -/
  | count (past : Nat)
  /-- With the sum of two members of the payload. -/
  | add
  /-- With twice the payload. -/
  | double
  /-- With a fault. -/
  | raise (fault : Fault)
  /-- As each of these in turn, and as the last one from then on. -/
  | seq (scripts : List Script)
  /-- As another, but only to one who waits. -/
  | deferred (script : Script)
  deriving Inhabited

namespace Script

/-- A fault of a stand-in's own. -/
def failure (message : String) : Except Fault Json :=
  .error (.stated (.foreign "ResourceError") [.str message])

/-- The sum of the members `val1` and `val2`. -/
def sum (payload : Json) : Except Fault Json :=
  let term (key : String) : Option Int :=
    payload.members?.bind fun ms => (Entries.get? ms key).bind Json.int?
  match term "val1", term "val2" with
  | some m, some n => .ok (.int (m + n))
  | _, _ => failure "add needs val1 and val2"

/-- Twice a number. -/
def twice (payload : Json) : Except Fault Json :=
  match payload.int? with
  | some n => .ok (.int (2 * n))
  | none => failure "double needs an int"

/-- What a script says to a payload; its world is what is left of it. -/
def invoke : Script → Json → Reply Script
  | identity, payload => .now (.ok payload) identity
  | const value, _ => .now (.ok value) (const value)
  | wrap key, payload => .now (.ok (.obj [(key, payload)])) (wrap key)
  | count past, _ => .now (.ok (.int (past + 1))) (count (past + 1))
  | add, payload => .now (sum payload) add
  | double, payload => .now (twice payload) double
  | raise fault, _ => .now (.error fault) (raise fault)
  | seq [], _ => .now (.error (.badIndex "list index out of range")) (seq [])
  | seq (s :: rest), payload =>
    (s.invoke payload).map fun left => if rest.isEmpty then seq [left] else seq rest
  | deferred s, payload =>
    match s.invoke payload with
    | .now answer left => .later (deferred s) answer (deferred left)
    | .later _ answer left => .later (deferred s) answer (deferred left)

end Script

/-- The registry of a table of scripts, which is its world. -/
def Registry.ofScripts (scripts : Entries Script) : Registry (Entries Script) where
  find? id :=
    if Entries.has scripts id then
      some fun payload world =>
        match Entries.get? world id with
        | some s => (s.invoke payload).map (Entries.insert world id)
        | none => .now (.error (.resourceNotFound (.str id))) world
    else none

end Workflow
