import Workflow.Text.Digit
/-!
# Workflow — reference paths

A path names a place in a document: `$` is the document, `.key` a member
and `[n]` an element. Reading a path takes the longest segment each time;
where no segment starts, the rest of the text tells how far it got. An index
of too many digits is not read either, and that is no fault of the path's form.
-/

namespace Workflow

/-- A step from a value to a part of it. -/
inductive Segment where
  /-- The member of that name. -/
  | key (name : String)
  /-- The element at that index. -/
  | index (n : Nat)
  deriving DecidableEq, Repr

/-- The steps from a document to a place in it. -/
abbrev Path := List Segment

/-- Why a path cannot be read or followed. -/
inductive PathProblem where
  /-- It is no text. -/
  | notText
  /-- It does not start at the document. -/
  | notRooted
  /-- No segment starts at this character, counted from zero. -/
  | unexpected (position : Nat)
  /-- It asks for an element of a value that is no list. -/
  | notList (index : Nat)
  /-- It asks for an element past the end. -/
  | outOfRange (index : Nat)
  /-- It asks for a member of a value that is no object. -/
  | notObject (key : String)
  deriving DecidableEq, Repr

/-- The reason in words. -/
def PathProblem.text : PathProblem → String
  | notText => "paths must be strings"
  | notRooted => "paths must start with '$'"
  | unexpected position => "unexpected character at position " ++ toString position
  | notList index => "index [" ++ toString index ++ "] applied to a non-list value"
  | outOfRange index => "index [" ++ toString index ++ "] is out of range"
  | notObject key => "member '" ++ key ++ "' applied to a non-object value"

/-- Why a text is not read as a path. -/
inductive Path.Refusal where
  /-- It is none. -/
  | malformed (problem : PathProblem)
  /-- An index in it has so many digits that it is not read. -/
  | tooLong (digits : Nat)
  deriving DecidableEq, Repr

namespace Segment

/-- A character may stand in a name. -/
def isKeyChar (c : Char) : Bool :=
  c ≠ '.' && c ≠ '[' && c ≠ ']'

/-- The segment at the front of a text, and what follows it. -/
def front? : List Char → Option (Segment × List Char)
  | '.' :: rest =>
    match rest.takeWhile isKeyChar with
    | [] => none
    | name => some (key (String.ofList name), rest.dropWhile isKeyChar)
  | '[' :: rest =>
    match rest.takeWhile Text.isDigit, rest.dropWhile Text.isDigit with
    | d :: more, ']' :: rest => some (index (Text.digitsValue (d :: more)), rest)
    | _, _ => none
  | _ => none

/-- The digits of the index that a text starts with; of a name none count. -/
def digitCount : List Char → Nat
  | '[' :: rest => (rest.takeWhile Text.isDigit).length
  | _ => 0

/-- A segment takes at least one character. -/
theorem length_front?_lt {cs rest : List Char} {s : Segment} (h : front? cs = some (s, rest)) :
    rest.length < cs.length := by
  unfold front? at h
  split at h
  · rename_i r
    split at h
    · cases h
    · cases h
      have := (List.dropWhile_sublist isKeyChar (l := r)).length_le
      simp only [List.length_cons]
      omega
  · rename_i r
    split at h
    · rename_i hr
      cases h
      have := (List.dropWhile_sublist Text.isDigit (l := r)).length_le
      rw [hr] at this
      simp only [List.length_cons] at this ⊢
      omega
    · cases h
  · cases h

/-- A segment as a path writes it, indices in ASCII digits. -/
def text : Segment → List Char
  | key name => '.' :: name.toList
  | index n => '[' :: (Nat.toDigits 10 n ++ [']'])

end Segment

namespace Path

/-- Where the segments of a text cannot be read on. -/
inductive Halt where
  /-- No segment starts at the rest of the text. -/
  | stray (left : List Char)
  /-- The rest of the text starts with an index of too many digits. -/
  | tooLong (left : List Char)

namespace Halt

/-- The rest of the text. -/
def left : Halt → List Char
  | stray left | tooLong left => left

/-- What a text of some length is refused for. -/
def refusal (length : Nat) : Halt → Refusal
  | stray left => .malformed (.unexpected (length - left.length))
  | tooLong left => .tooLong (Segment.digitCount left)

end Halt

/-- The segments of a text, or where it cannot be read on. -/
def segments : List Char → Except Halt Path
  | [] => .ok []
  | c :: cs =>
    match _h : Segment.front? (c :: cs) with
    | none => .error (.stray (c :: cs))
    | some (s, rest) =>
      if Text.digitLimit < Segment.digitCount (c :: cs) then .error (.tooLong (c :: cs))
      else (s :: ·) <$> segments rest
termination_by cs => cs.length
decreasing_by exact Segment.length_front?_lt _h

/-- The path that a text writes. -/
def parse (s : String) : Except Refusal Path :=
  match s.toList with
  | '$' :: rest => (segments rest).mapError (Halt.refusal s.toList.length)
  | _ => .error (.malformed .notRooted)

/-- A path as text. -/
def text (p : Path) : String :=
  String.ofList ('$' :: p.flatMap Segment.text)

end Path

end Workflow
