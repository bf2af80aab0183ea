import Workflow.Json.Token
/-!
# Workflow — drafts of values

Reading JSON text never stops: it yields a draft of the value, in the order
of the text, in which whatever could not be read is marked. Whoever wants
the value walks the draft from left to right and meets the first mark or the
first misplaced value, whichever the text has first. A value that is already
read is a draft without marks, `Draft.ofJson`.
-/

namespace Workflow

namespace Json

/-- What stands in front of a member's value. -/
inductive Label where
  /-- A name and its colon. -/
  | named (key : String)
  /-- A name with a stray byte in it, and its colon. -/
  | illFormed
  /-- A name with a stray byte in it, and no colon. -/
  | illFormedAlone
  /-- No name, or a name and no colon. -/
  | malformed
  deriving DecidableEq

/-- A value as far as its text gives one. -/
inductive Draft where
  /-- A value that is no list and no object. -/
  | leaf (v : Json)
  /-- An integer that takes more than a machine word. -/
  | wide (n : Int)
  /-- A number with a point or an exponent that is past the largest. -/
  | outOfRange
  /-- A string with a stray byte in it. -/
  | illFormed
  /-- A list. -/
  | arr (items : List Draft)
  /-- An object, its names possibly repeated. -/
  | obj (members : List (Label × Draft))
  /-- The text stops being JSON here. -/
  | malformed

namespace Draft

mutual

/-- A value without marks. -/
def ofJson : Json → Draft
  | .arr items => .arr (ofItems items)
  | .obj members => .obj (ofMembers members)
  | .null => .leaf .null
  | .bool b => .leaf (.bool b)
  | .int n => .leaf (.int n)
  | .float x => .leaf (.float x)
  | .str s => .leaf (.str s)

/-- Elements without marks. -/
def ofItems : List Json → List Draft
  | [] => []
  | v :: rest => ofJson v :: ofItems rest

/-- Members without marks. -/
def ofMembers : List (String × Json) → List (Label × Draft)
  | [] => []
  | (key, v) :: rest => (.named key, ofJson v) :: ofMembers rest

end

mutual

/-- The draft of the value at the front of a row of tokens, and what follows
it. Nothing follows a text that stops being JSON. -/
def value : Nat → List Token → Draft × List Token
  | 0, _ => (.malformed, [])
  | _ + 1, .value v :: rest => (.leaf v, rest)
  | _ + 1, .wide n :: rest => (.wide n, rest)
  | _ + 1, .outOfRange :: rest => (.outOfRange, rest)
  | _ + 1, .illFormed :: rest => (.illFormed, rest)
  | _ + 1, .openArray :: .closeArray :: rest => (.arr [], rest)
  | fuel + 1, .openArray :: rest => ((.arr (items fuel rest).1), (items fuel rest).2)
  | _ + 1, .openObject :: .closeObject :: rest => (.obj [], rest)
  | fuel + 1, .openObject :: rest => ((.obj (members fuel rest).1), (members fuel rest).2)
  | _ + 1, _ => (.malformed, [])

/-- The elements up to the closing bracket, and what follows it. -/
def items : Nat → List Token → List Draft × List Token
  | 0, _ => ([.malformed], [])
  | fuel + 1, ts =>
    let first := value fuel ts
    match first.2 with
    | .comma :: rest => (first.1 :: (items fuel rest).1, (items fuel rest).2)
    | .closeArray :: rest => ([first.1], rest)
    | _ => ([first.1, .malformed], [])

/-- The members up to the closing brace, and what follows it. -/
def members : Nat → List Token → List (Label × Draft) × List Token
  | 0, _ => ([(.malformed, .malformed)], [])
  | fuel + 1, .value (.str key) :: .colon :: rest => afterLabel fuel (.named key) rest
  | fuel + 1, .illFormed :: .colon :: rest => afterLabel fuel .illFormed rest
  | _ + 1, .illFormed :: _ => ([(.illFormedAlone, .malformed)], [])
  | _ + 1, _ => ([(.malformed, .malformed)], [])

/-- The members from a value on whose label is read. -/
def afterLabel : Nat → Label → List Token → List (Label × Draft) × List Token
  | 0, label, _ => ([(label, .malformed)], [])
  | fuel + 1, label, ts =>
    let first := value fuel ts
    match first.2 with
    | .comma :: rest => ((label, first.1) :: (members fuel rest).1, (members fuel rest).2)
    | .closeObject :: rest => ([(label, first.1)], rest)
    | _ => ([(label, first.1), (.malformed, .malformed)], [])

end

end Draft

/-- A whole text, read. -/
structure Reading where
  /-- The draft of the value that the text starts with. -/
  draft : Draft
  /-- Something follows the value. -/
  trailing : Bool

/-- Reads a whole text. Each token is met at most three times. -/
def Reading.ofGlyphs (gs : List Text.Glyph) : Reading :=
  let ts := Token.row gs
  let read := Draft.value (3 * ts.length + 1) ts
  ⟨read.1, !read.2.isEmpty⟩

end Json

end Workflow
