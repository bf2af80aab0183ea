import Workflow.Fault
/-!
# Workflow — definitions

A definition declares states under their names and says where a run starts.
The states stay raw until they are run, so a malformed one only fails the
run that reaches it. `Definition.load` takes a value, a text or bytes.
-/

namespace Workflow

/-- A workflow. -/
structure Definition where
  /-- The declared states, raw, under their names. -/
  states : Entries Members
  /-- The state that a run starts with. -/
  startAt : Option String
  /-- A remark. -/
  comment : Option String
  /-- The version of the language that it is written in. -/
  version : Option String
  /-- How long a run may take; runs here take no time. -/
  timeoutSeconds : Option Int

namespace Members

/-- The text of a field, absent and null alike none. -/
def text? (ms : Members) (key : String) : Option String :=
  (Entries.get? ms key).bind Json.text?

/-- The text of a field, absent and null apart. -/
def rule (ms : Members) (key : String) : Option (Option String) :=
  (Entries.get? ms key).map Json.text?

/-- The truth value of a field, absent false. -/
def flag (ms : Members) (key : String) : Bool :=
  ((Entries.get? ms key).bind Json.bool?).getD false

/-- The objects of a field that lists some, absent none. -/
def objects (ms : Members) (key : String) : List Members :=
  (((Entries.get? ms key).bind Json.items?).getD []).filterMap Json.members?

/-- The entries of a field that holds a table of objects, absent none. -/
def table (ms : Members) (key : String) : Entries Members :=
  (((Entries.get? ms key).bind Json.members?).getD []).filterMap fun (name, v) =>
    v.members?.map (name, ·)

end Members

namespace Definition

/-- The fields of a definition. -/
def record : Record where
  fields := [("States", .table (.table .any)), ("StartAt", .optionalText),
    ("Comment", .optionalText), ("Version", .optionalText), ("TimeoutSeconds", .optionalInt)]
  strict := true

/-- The definition with given fields. -/
def ofMembers (ms : Members) : Definition where
  states := Members.table ms "States"
  startAt := Members.text? ms "StartAt"
  comment := Members.text? ms "Comment"
  version := Members.text? ms "Version"
  timeoutSeconds := (Entries.get? ms "TimeoutSeconds").bind Json.int?

/-- The definition that a draft gives. -/
def ofDraft (draft : Json.Draft) : Except Fault Definition :=
  (ofMembers <$> record.fit draft).mapError Fault.ofDefinition

/-- The definition that a value gives. -/
def ofJson (v : Json) : Except Fault Definition :=
  ofDraft (.ofJson v)

/-- The definition that JSON text gives. Text after the definition is only
noticed if the definition itself is in order. -/
def ofGlyphs (gs : List Text.Glyph) : Except Fault Definition := do
  let reading := Json.Reading.ofGlyphs gs
  let d ← ofDraft reading.draft
  if reading.trailing then .error .malformedText else .ok d

/-- The definition that a text of JSON gives. -/
def ofText (text : String) : Except Fault Definition :=
  ofGlyphs (Text.glyphsOfText text)

/-- The definition that bytes of JSON text give. -/
def ofBytes (bytes : ByteArray) : Except Fault Definition :=
  ofGlyphs (Text.glyphsOfBytes bytes)

/-- What a definition is loaded from. -/
inductive Source where
  /-- A value that is read already. -/
  | value (v : Json)
  /-- JSON text. -/
  | text (s : String)
  /-- The bytes of JSON text. -/
  | bytes (bs : ByteArray)

/-- A value is its own source, unless it is a text: then it is JSON text. -/
def Source.ofJson : Json → Source
  | .str s => text s
  | v => value v

/-- The definition that a source gives. -/
def load : Source → Except Fault Definition
  | .value v => ofJson v
  | .text s => ofText s
  | .bytes bs => ofBytes bs

/-- The name of the state that a run starts with. An empty name is no name. -/
def start (d : Definition) : Except Fault String :=
  match d.startAt with
  | none | some "" => .error (.missingStart none)
  | some name =>
    if Entries.has d.states name then .ok name else .error (.missingStart (some (.str name)))

end Definition

end Workflow
