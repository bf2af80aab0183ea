import Workflow.Path.Basic
import Workflow.Json.Basic
/-!
# Workflow — following a path into a document

Reading a path that leads nowhere gives a default. Writing one creates the
objects that are missing on the way, and fails where the document holds
something that the path cannot go through.
-/

namespace Workflow

namespace Json

/-- The part of a value that a segment leads to. -/
def child? : Json → Segment → Option Json
  | obj members, .key name => Entries.get? members name
  | arr items, .index n => items[n]?
  | _, _ => none

/-- The part of a value that a path leads to. -/
def at? : Json → Path → Option Json
  | v, [] => some v
  | v, s :: rest => (v.child? s).bind (at? · rest)

/-- **Following a path in two legs.** What the whole path leads to is what
its second part leads to from where its first part does. -/
theorem at?_append (v : Json) (p q : Path) : v.at? (p ++ q) = (v.at? p).bind (at? · q) := by
  induction p generalizing v with
  | nil => rfl
  | cons s rest ih =>
    rw [List.cons_append, at?, at?, Option.bind_assoc]
    exact Option.bind_congr fun w _ => ih w

/-- The part of a value that a path leads to, or a default. -/
def read (v : Json) (p : Path) (default : Json) : Json :=
  (v.at? p).getD default

/-- The members that a member is put among: null counts as an object
without any. -/
def slots? : Json → Option Members
  | obj members => some members
  | null => some []
  | _ => none

/-- The value with `new` at the end of a path. Where a member is asked for,
a missing one counts as null. -/
def write : Json → Path → Json → Except PathProblem Json
  | _, [], new => .ok new
  | v, .index n :: rest, new =>
    match v.items? with
    | none => .error (.notList n)
    | some items =>
      match items[n]? with
      | none => .error (.outOfRange n)
      | some item => (fun part => arr (items.set n part)) <$> write item rest new
  | v, .key name :: rest, new =>
    match v.slots? with
    | none => .error (.notObject name)
    | some members =>
      (fun part => obj (members.insert name part)) <$>
        write ((members.get? name).getD null) rest new

end Json

end Workflow
