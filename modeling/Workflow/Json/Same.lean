import Workflow.Json.Basic
/-!
# Workflow — values that count as equal

Two results count as equal if they differ only in the order of members and
in how a number is given: an integer, a number with a point and a truth
value, which counts as zero or one, are equal if they have one value.
-/

namespace Workflow

namespace Json

/-- The number that a value is, in units of `2 ^ -1074`. -/
def units? : Json → Option Int
  | bool b => some (if b then Nat.pow 2 1074 else 0)
  | int n => some (n * Nat.pow 2 1074)
  | float x => some x.units
  | _ => none

/-- Two values that are no lists and no objects count as equal. -/
def sameScalar (v w : Json) : Bool :=
  match v, w with
  | null, null => true
  | str s, str t => s = t
  | _, _ =>
    match v.units?, w.units? with
    | some m, some n => m = n
    | _, _ => false

mutual

/-- Two values count as equal. -/
def same : Json → Json → Bool
  | arr vs, arr ws => sameItems vs ws
  | obj vs, obj ws => vs.length = ws.length && sameMembers vs ws
  | v, w => sameScalar v w

/-- Two lists count as equal, element by element. -/
def sameItems : List Json → List Json → Bool
  | [], [] => true
  | v :: vs, w :: ws => same v w && sameItems vs ws
  | _, _ => false

/-- Every member has an equal one of its name among `others`. -/
def sameMembers : List (String × Json) → Members → Bool
  | [], _ => true
  | (key, v) :: rest, others =>
    match others.get? key with
    | some w => same v w && sameMembers rest others
    | none => false

end

end Json

end Workflow
