import Workflow.Fault
import Workflow.Path.Document
/-!
# Workflow — what a state takes and leaves

A state takes part of its input document, puts its result into a copy of
that document and passes part of the copy on. The rules that say which part
are given as texts and read as paths when they are followed, so a malformed
one does no harm before.
-/

namespace Workflow

/-- The path that a text writes. -/
def readPath (path : String) : Except Fault Path :=
  (Path.parse path).mapError (.ofRefusal path)

/-- The text of a path that is given as a value. -/
def pathText : Json → Except Fault String
  | .str path => .ok path
  | v => .error (.invalidPath v.display .notText)

/-- Which part of a document is taken. -/
inductive Selector where
  /-- All of it: no rule is given. -/
  | whole
  /-- None of it, an empty object in its place: the rule is null. -/
  | nothing
  /-- The part that a path leads to, or null. -/
  | part (path : String)
  deriving DecidableEq, Repr

/-- The selector that a rule gives, which may be absent, null or a text. -/
def Selector.ofRule : Option (Option String) → Selector
  | none => .whole
  | some none => .nothing
  | some (some path) => .part path

namespace Json

/-- The part of a document that a path leads to, or a default. -/
def readAt (document : Json) (path : String) (default : Json) : Except Fault Json := do
  let p ← readPath path
  return document.read p default

/-- The document with a value at the end of a path. -/
def writeAt (document : Json) (path : String) (value : Json) : Except Fault Json := do
  let p ← readPath path
  (document.write p value).mapError (.invalidPath path)

/-- The part of a document that a selector takes. -/
def select (document : Json) : Selector → Except Fault Json
  | .whole => .ok document
  | .nothing => .ok (obj [])
  | .part path => document.readAt path null

/-- The document with a state's result put in; without a path the result is
dropped. -/
def merge (document : Json) (resultPath : Option String) (result : Json) : Except Fault Json :=
  match resultPath with
  | none => .ok document
  | some path => document.writeAt path result

end Json

/-- How a state that computes moves data. -/
structure DataFlow where
  /-- The input to use in place of the document's, if one is given. -/
  input : Option Json
  /-- The part of the document that is the input otherwise. -/
  inputPath : Selector
  /-- Where the result goes. -/
  resultPath : Option String
  /-- The part that is passed on. -/
  outputPath : Selector

namespace DataFlow

/-- What the state computes from. A given input hides the rule. -/
def payload (f : DataFlow) (document : Json) : Except Fault Json :=
  match f.input with
  | some input => .ok input
  | none => document.select f.inputPath

/-- What the state passes on once it has a result. -/
def output (f : DataFlow) (document result : Json) : Except Fault Json := do
  let merged ← document.merge f.resultPath result
  merged.select f.outputPath

end DataFlow

end Workflow
