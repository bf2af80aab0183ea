import Workflow.Json.Draft
/-!
# Workflow — the shapes of definitions

A shape says which kinds of value may stand where, without any conversion
between kinds. `Shape.fit` takes a draft to the value it gives, or to the
first problem in the order of the text; `Record.fit` does the same for the
members of an object with known fields. A definition given as a value and
one given as text go through the same two functions.
-/

namespace Workflow

open Json (Kind Label Draft)

/-- What may stand in a place. -/
inductive Shape where
  /-- Anything. -/
  | any
  /-- A value of one of these kinds, neither lists nor objects. -/
  | scalar (accepted : List Kind)
  /-- A list of values of one shape. -/
  | list (item : Shape)
  /-- An object of any names with values of one shape. -/
  | table (entry : Shape)

/-- A step from a value to a part of it, as reports write it. -/
inductive Place where
  /-- The member of that name. -/
  | field (key : String)
  /-- The element at that index. -/
  | element (index : Nat)
  /-- Some entry of a table. -/
  | entry
  deriving DecidableEq, Repr

/-- How a value misses what is expected of it. -/
inductive Misfit where
  /-- It is of another kind than its place takes. -/
  | wrongKind (expected : String) (got : Kind) (place : List Place)
  /-- It is a number past the largest. -/
  | outOfRange (place : List Place)
  /-- It has a field that is none of its kind's. -/
  | unknownField (key : String)
  /-- It lacks a field that its kind requires. -/
  | missingField (key : String)
  deriving DecidableEq, Repr

/-- Why a draft gives no value. -/
inductive Problem where
  /-- Its text is not JSON. -/
  | malformed
  /-- A string in it is not UTF-8. -/
  | illFormed
  /-- Its value has the wrong shape. -/
  | misfit (m : Misfit)
  deriving DecidableEq, Repr

namespace Place

/-- A step as reports write it. -/
def text : Place → String
  | field key => "." ++ key
  | element index => "[" ++ toString index ++ "]"
  | entry => "[...]"

/-- Where a part is, as reports add it. The whole is not named. -/
def trail (place : List Place) : String :=
  if place.isEmpty then "" else " - at `$" ++ String.join (place.map text) ++ "`"

end Place

namespace Misfit

/-- A misfit inside a part, seen from the whole. -/
def within (p : Place) : Misfit → Misfit
  | wrongKind expected got place => wrongKind expected got (p :: place)
  | outOfRange place => outOfRange (p :: place)
  | m => m

/-- A misfit in words. -/
def text : Misfit → String
  | wrongKind expected got place =>
    "Expected `" ++ expected ++ "`, got `" ++ got.name ++ "`" ++ Place.trail place
  | outOfRange place => "Number out of range" ++ Place.trail place
  | unknownField key => "Object contains unknown field `" ++ key ++ "`"
  | missingField key => "Object missing required field `" ++ key ++ "`"

end Misfit

namespace Problem

/-- A problem inside a part, seen from the whole. -/
def within (p : Place) : Problem → Problem
  | misfit m => misfit (m.within p)
  | problem => problem

end Problem

namespace Shape

/-- A text, or null for none. -/
def optionalText : Shape := scalar [.str, .null]

/-- An integer, or null for none. -/
def optionalInt : Shape := scalar [.int, .null]

/-- A text. -/
def text : Shape := scalar [.str]

/-- A truth value. -/
def flag : Shape := scalar [.bool]

/-- A list of objects. -/
def objects : Shape := list (table any)

/-- What a place takes, in words. -/
def expected : Shape → String
  | any => "any"
  | scalar accepted => " | ".intercalate (accepted.map Kind.name)
  | list _ => Kind.array.name
  | table _ => Kind.object.name

/-- A kind that is one token long may stand in a place. -/
def accepts : Shape → Kind → Bool
  | any, _ => true
  | scalar accepted, kind => accepted.contains kind
  | _, _ => false

/-- The shape of a list's elements, where a list may stand. -/
def item? : Shape → Option Shape
  | any => some any
  | list item => some item
  | _ => none

/-- The shape of an object's values, where an object may stand. -/
def entry? : Shape → Option Shape
  | any => some any
  | table entry => some entry
  | _ => none

/-- The problem with a value of a kind that may not stand in a place. -/
def wrong (shape : Shape) (got : Kind) : Problem :=
  .misfit (.wrongKind shape.expected got [])

/-- A value that is one token long, where it may stand. -/
def fitLeaf (shape : Shape) (v : Json) : Except Problem Json :=
  if shape.accepts v.kind then .ok v else .error (shape.wrong v.kind)

/-- A wide integer is one where an integer may stand. Elsewhere it counts as
a number with a point, and so it may be past the largest. -/
def fitWide (shape : Shape) (n : Int) : Except Problem Json :=
  if shape.accepts .int then .ok (.int n)
  else
    match Double.ofInt? n with
    | some x => shape.fitLeaf (.float x)
    | none => .error (.misfit (.outOfRange []))

mutual

/-- The value that a draft gives in a place, or the first problem. A list or
an object is refused at its bracket, other values once they are read; a
number past the largest is refused in any place. -/
def fit : Draft → Shape → Except Problem Json
  | .malformed, _ => .error .malformed
  | .illFormed, shape => .error (if shape.accepts .str then .illFormed else shape.wrong .str)
  | .outOfRange, _ => .error (.misfit (.outOfRange []))
  | .leaf v, shape => shape.fitLeaf v
  | .wide n, shape => shape.fitWide n
  | .arr items, shape =>
    match shape.item? with
    | some item => Json.arr <$> fitItems items item 0
    | none => .error (shape.wrong .array)
  | .obj members, shape =>
    match shape.entry? with
    | some entry => (fun ms => Json.obj (Entries.collect ms)) <$> fitMembers members entry
    | none => .error (shape.wrong .object)

/-- The values of elements from an index on, or the first problem. -/
def fitItems : List Draft → Shape → Nat → Except Problem (List Json)
  | [], _, _ => .ok []
  | d :: rest, shape, index => do
    let v ← (fit d shape).mapError (Problem.within (.element index))
    let vs ← fitItems rest shape (index + 1)
    return v :: vs

/-- The members with their values, or the first problem. Every value is
looked at, also one whose name comes again. -/
def fitMembers : List (Label × Draft) → Shape → Except Problem (List (String × Json))
  | [], _ => .ok []
  | (.named key, d) :: rest, shape => do
    let v ← (fit d shape).mapError (Problem.within .entry)
    let vs ← fitMembers rest shape
    return (key, v) :: vs
  | (.malformed, _) :: _, _ => .error .malformed
  | (.illFormed, _) :: _, _ | (.illFormedAlone, _) :: _, _ => .error .illFormed

end

end Shape

/-- An object with known fields. -/
structure Record where
  /-- The fields and what each may hold. -/
  fields : Entries Shape
  /-- Other fields are refused, rather than passed over. -/
  strict : Bool

namespace Record

/-- The known fields among the members, with their values, or the first
problem. A name is only judged once its colon is read. -/
def fitMembers (r : Record) : List (Label × Draft) → Except Problem (List (String × Json))
  | [] => .ok []
  | (.named key, d) :: rest =>
    match r.fields.get? key with
    | some shape => do
      let v ← (shape.fit d).mapError (Problem.within (.field key))
      let vs ← fitMembers r rest
      return (key, v) :: vs
    | none =>
      if r.strict then .error (.misfit (.unknownField key))
      else do
        let _ ← Shape.any.fit d
        fitMembers r rest
  | (.illFormed, d) :: rest =>
    if r.strict then .error .illFormed
    else do
      let _ ← Shape.any.fit d
      fitMembers r rest
  | (.illFormedAlone, _) :: _ | (.malformed, _) :: _ => .error .malformed

/-- The fields that a draft gives, or the first problem. What is no object
fails to be a table already. -/
def fit (r : Record) : Draft → Except Problem Members
  | .obj members => Entries.collect <$> r.fitMembers members
  | draft => do
    let v ← (Shape.table .any).fit draft
    return v.members?.getD []

end Record

end Workflow
