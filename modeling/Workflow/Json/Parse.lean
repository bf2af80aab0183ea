import Workflow.Shape
/-!
# Workflow — values from JSON text

A text that is one JSON value gives that value. Text is JSON as the format
has it, with blanks between tokens and nothing after the value; a name that
an object repeats keeps its first place and its last value.
-/

namespace Workflow

namespace Json

/-- The value that a text is, or why it is none. -/
def parseGlyphs (gs : List Text.Glyph) : Except Problem Json := do
  let reading := Reading.ofGlyphs gs
  let v ← Shape.any.fit reading.draft
  if reading.trailing then .error .malformed else .ok v

/-- The value that a text is, or why it is none. -/
def parse (text : String) : Except Problem Json :=
  parseGlyphs (Text.glyphsOfText text)

end Json

end Workflow
