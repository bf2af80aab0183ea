import Workflow.Program
/-!
# Workflow — loose definitions

A loose definition is put together from parts, and nothing holds these to a
shape. It is what it is given; only what a run reaches is ever looked at,
and the run ends in a fault where that is of no use. `program_ofDefinition`
says that a definition in order runs the same when it is taken as a loose one.
-/

namespace Workflow

/-- The state that a raw value gives; one that is no object has no type to
look at. -/
def State.ofJson (name : StateName) : Json → Except Fault State
  | .obj raw => State.ofMembers name raw
  | v => .error (.missingPart v.kind "get")

/-- A workflow whose parts may be any values. -/
structure LooseDefinition where
  /-- The declared states. -/
  states : Json
  /-- The state that a run starts with. -/
  startAt : Json
  /-- A remark. -/
  comment : Json
  /-- The version of the language that it is written in. -/
  version : Json
  /-- How long a run may take; runs here take no time. -/
  timeoutSeconds : Json

namespace LooseDefinition

/-- What a definition says, as values. -/
def ofDefinition (d : Definition) : LooseDefinition where
  states := .obj (d.states.map fun (name, raw) => (name, .obj raw))
  startAt := .ofText? d.startAt
  comment := .ofText? d.comment
  version := .ofText? d.version
  timeoutSeconds := d.timeoutSeconds.elim .null .int

/-- The definition with given parts. Without states it has an empty table
of them, and any other missing part is null. -/
def ofMembers (ms : Members) : LooseDefinition where
  states := (Entries.get? ms "states").getD (.obj [])
  startAt := (Entries.get? ms "start_at").getD .null
  comment := (Entries.get? ms "comment").getD .null
  version := (Entries.get? ms "version").getD .null
  timeoutSeconds := (Entries.get? ms "timeout_seconds").getD .null

/-- The name of the state that a run starts with. What says nothing is no
name. -/
def start (d : LooseDefinition) : Except Fault StateName := do
  if d.startAt.vacuous then throw (.missingStart none)
  if ← d.states.holds d.startAt then return d.startAt
  throw (.missingStart (some d.startAt))

/-- The state that is declared under a name. -/
def state (d : LooseDefinition) (name : StateName) : Except Fault State := do
  let raw ← d.states.lookup name
  State.ofJson name raw

/-- A loose definition as a run sees it. -/
def program (d : LooseDefinition) : Program where
  start := d.start
  state := d.state

/-! ## Definitions in order -/

/-- What a definition declares under a name, as a value. -/
theorem get?_states (d : Definition) (name : String) :
    Entries.get? (d.states.map fun (name, raw) => (name, Json.obj raw)) name =
      (Entries.get? d.states name).map Json.obj := by
  induction d.states with
  | nil => rfl
  | cons e rest ih =>
    obtain ⟨k, raw⟩ := e
    by_cases h : k = name <;> simp [Entries.get?, h, ih]

/-- A definition in order starts the same when it is taken as a loose one. -/
theorem start_ofDefinition (d : Definition) :
    (ofDefinition d).start = d.start.map Json.str := by
  unfold start Definition.start
  cases h : d.startAt with
  | none => simp [ofDefinition, h, Json.ofText?, Json.vacuous, Except.map]; rfl
  | some name =>
    by_cases he : name = ""
    · subst he
      simp [ofDefinition, h, Json.ofText?, Json.vacuous, Except.map]; rfl
    · have hv : (Json.str name).vacuous = false := by simp [Json.vacuous, he]
      have hh : Json.holds (ofDefinition d).states (.str name) =
          .ok (Entries.has d.states name) := by
        simp [ofDefinition, Json.holds, Json.asName, Entries.has, get?_states, bind, Except.bind,
          pure, Except.pure]
      simp only [ofDefinition, h, Json.ofText?] at hh ⊢
      simp only [hv, hh, Bool.false_eq_true, if_false]
      cases Entries.has d.states name <;> rfl

/-- A definition in order declares the same states when it is taken as a
loose one. -/
theorem state_ofDefinition (d : Definition) (name : StateName) :
    (ofDefinition d).state name = d.program.state name := by
  simp only [state, Definition.program, ofDefinition, Json.lookup]
  cases name with
  | str s =>
    simp only [Json.textOr, Json.asName, Definition.state, bind, Except.bind, pure, Except.pure,
      get?_states]
    cases Entries.get? d.states s <;> rfl
  | _ => rfl

/-- **A definition in order runs the same as a loose one.** -/
theorem program_ofDefinition (d : Definition) : (ofDefinition d).program = d.program := by
  have hs : (ofDefinition d).state = d.program.state := funext (state_ofDefinition d)
  rw [program, hs, start_ofDefinition]
  rfl

end LooseDefinition

end Workflow
