import Workflow.Entries
import Workflow.Number.Double
/-!
# Workflow — documents

A document is a JSON value. Integers have any size and are apart from the
numbers with a point or an exponent; objects keep the order of their
members.
-/

namespace Workflow

/-- A JSON value. -/
inductive Json where
  /-- The value that stands for none. -/
  | null
  /-- A truth value. -/
  | bool (b : Bool)
  /-- A number written without a point or an exponent. -/
  | int (n : Int)
  /-- A number written with one. -/
  | float (x : Double)
  /-- A text. -/
  | str (s : String)
  /-- A list. -/
  | arr (items : List Json)
  /-- An object, its members in order. -/
  | obj (members : List (String × Json))
  deriving Inhabited

/-- The members of an object. -/
abbrev Members := Entries Json

namespace Json

/-- The seven kinds of value. -/
inductive Kind where
  | null | bool | int | float | str | array | object
  deriving DecidableEq, Repr

/-- What a kind is called where a definition is refused. -/
def Kind.name : Kind → String
  | .null => "null"
  | .bool => "bool"
  | .int => "int"
  | .float => "float"
  | .str => "str"
  | .array => "array"
  | .object => "object"

/-- The kind of a value. -/
def kind : Json → Kind
  | null => .null
  | bool _ => .bool
  | int _ => .int
  | float _ => .float
  | str _ => .str
  | arr _ => .array
  | obj _ => .object

/-- The text that a value is. -/
def text? : Json → Option String
  | str s => some s
  | _ => none

/-- The integer that a value is. -/
def int? : Json → Option Int
  | int n => some n
  | _ => none

/-- The truth value that a value is. -/
def bool? : Json → Option Bool
  | bool b => some b
  | _ => none

/-- The elements of the list that a value is. -/
def items? : Json → Option (List Json)
  | arr items => some items
  | _ => none

/-- The members of the object that a value is. -/
def members? : Json → Option Members
  | obj members => some members
  | _ => none

/-- A value says nothing: it is null, false, zero or empty. -/
def vacuous : Json → Bool
  | null => true
  | bool b => !b
  | int n => n = 0
  | float x => x.mantissa = 0
  | str s => s.isEmpty
  | arr items => items.isEmpty
  | obj members => members.isEmpty

/-- A text, or null for none. -/
def ofText? : Option String → Json
  | some s => str s
  | none => null

/-! ## Values without repeated names -/

mutual

/-- No object in the value repeats a name. Reading yields such values, and
the operations on documents keep them so. -/
def WellFormed : Json → Prop
  | arr items => WellFormedItems items
  | obj members => Entries.Distinct members ∧ WellFormedMembers members
  | _ => True

/-- Every element of the list is without repeated names. -/
def WellFormedItems : List Json → Prop
  | [] => True
  | v :: rest => WellFormed v ∧ WellFormedItems rest

/-- Every member's value is without repeated names. -/
def WellFormedMembers : List (String × Json) → Prop
  | [] => True
  | (_, v) :: rest => WellFormed v ∧ WellFormedMembers rest

end

end Json

end Workflow
