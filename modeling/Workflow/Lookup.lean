import Workflow.Fault
import Workflow.Json.Same
/-!
# Workflow — looking up by a value

Names and tables that come from outside may be any values. Objects have
their members under texts; lists and texts have their elements under
integers. Everything else that is looked up, or looked into, is a fault.
-/

namespace Workflow

namespace Fault

/-- A value is used in a way that its kind does not allow. -/
def misuse (words : String) : Fault :=
  .stated (.foreign "TypeError") [.str words]

/-- An index leads to no element. -/
def badIndex (words : String) : Fault :=
  .stated (.foreign "IndexError") [.str words]

/-- A value is asked for a part that its kind does not have. -/
def missingPart (kind : Json.Kind) (part : String) : Fault :=
  .stated (.foreign "AttributeError")
    [.str ("'" ++ kind.displayName ++ "' object has no attribute '" ++ part ++ "'")]

end Fault

namespace Json

/-- A value as a name: lists and objects are none. -/
def asName (v : Json) : Except Fault Json :=
  match v with
  | arr _ | obj _ => .error (.misuse ("unhashable type: '" ++ v.kind.displayName ++ "'"))
  | _ => .ok v

/-- The text that a name is. Other names are borne by nothing, so looking
one up fails. -/
def textOr (missed : Json → Fault) (name : Json) : Except Fault String := do
  match ← name.asName with
  | str s => return s
  | v => throw (missed v)

/-- The number that a value is as an index; truth values count as zero and
one. -/
def index? : Json → Option Int
  | int n => some n
  | bool b => some (if b then 1 else 0)
  | _ => none

/-- The element of a row at an index, which counts from the end if it is
negative. An index has at most 64 bits. -/
def elementAt (row : String) (elements : List Json) (index : Int) : Except Fault Json :=
  let position := if index < 0 then index + elements.length else index
  if index < -Nat.pow 2 63 ∨ Nat.pow 2 63 ≤ index then
    .error (.badIndex "cannot fit 'int' into an index-sized integer")
  else if position < 0 then .error (.badIndex (row ++ " index out of range"))
  else
    match elements[position.toNat]? with
    | some v => .ok v
    | none => .error (.badIndex (row ++ " index out of range"))

/-- A name is found in a table: among the names of an object, the elements
of a list or the parts of a text. -/
def holds (table name : Json) : Except Fault Bool :=
  match table with
  | obj members => do
    match ← name.asName with
    | str key => return Entries.has members key
    | _ => return false
  | arr items => .ok (items.any fun item => item.same name)
  | str s =>
    match name with
    | str part => .ok (1 < (s.splitOn part).length)
    | _ =>
      .error (.misuse
        ("'in <string>' requires string as left operand, not " ++ name.kind.displayName))
  | _ => .error (.misuse ("argument of type '" ++ table.kind.displayName ++ "' is not iterable"))

/-- What a table has under the name of a state. -/
def lookup (table : Json) (name : StateName) : Except Fault Json :=
  match table with
  | obj members => do
    let key ← name.textOr .stateNotFound
    match Entries.get? members key with
    | some v => return v
    | none => throw (.stateNotFound name)
  | arr items =>
    match name.index? with
    | some index => elementAt "list" items index
    | none =>
      .error (.misuse
        ("list indices must be integers or slices, not " ++ name.kind.displayName))
  | str s =>
    match name.index? with
    | some index => elementAt "string" (s.toList.map fun c => str (String.singleton c)) index
    | none =>
      .error (.misuse ("string indices must be integers, not '" ++ name.kind.displayName ++ "'"))
  | _ => .error (.misuse ("'" ++ table.kind.displayName ++ "' object is not subscriptable"))

end Json

end Workflow
