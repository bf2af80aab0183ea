import Workflow.Proofs.Shape.Schema
import Workflow.Proofs.State
/-!
# Workflow — the fields of a raw state

What the fields of each type are, what they may hold and which of them are
required, said field by field (`StateType.Field`, `StateType.required`), and what a
raw state is checked for, in the order of the checks (`StateType.checks`). The
fields are those that states are loaded by (`StateType.schema_record`), and a raw
state is admitted if no check of it fails (`StateType.admits_iff`).
-/

namespace Workflow

/-! ## Fields by type -/

namespace StateType

variable {t : StateType} {key : String} {shape : Shape}

/-- The fields of a type, and what they hold. -/
inductive Field : StateType → String → Shape → Prop where
  | type (t : StateType) : Field t "Type" .text
  | comment (t : StateType) : Field t "Comment" .optionalText
  | resource : Field task "Resource" .text
  | resultPath {t : StateType} (ht : t = task ∨ t = pass) : Field t "ResultPath" .optionalText
  | inputPath {t : StateType} (ht : t = task ∨ t = pass) : Field t "InputPath" .optionalText
  | input {t : StateType} (ht : t = task ∨ t = pass) : Field t "Input" .any
  | outputPath {t : StateType} (ht : t = task ∨ t = pass) : Field t "OutputPath" .optionalText
  | next {t : StateType} (ht : t ≠ choice) : Field t "Next" .optionalText
  | ends {t : StateType} (ht : t ≠ choice) : Field t "End" .flag
  | error : Field fail "Error" .optionalText
  | cause : Field fail "Cause" .optionalText
  | choices : Field choice "Choices" .objects
  | fallback : Field choice "Default" .optionalText
  | branches : Field parallel "Branches" .objects

/-- The fields that a type requires, in the order in which they are missed. -/
def required : StateType → List String
  | task => ["Resource", "ResultPath"]
  | pass => ["ResultPath"]
  | succeed | fail | choice | parallel | wait | map => []

/-- The fields of a type; those that are run take no others. -/
def schema (t : StateType) : Schema where
  field := t.Field
  strict := t = task ∨ t = pass ∨ t = succeed ∨ t = fail

theorem field_exit (ht : t ≠ choice) : ∀ e ∈ exitFields, t.Field e.1 e.2 := by
  simp only [exitFields, List.forall_mem_cons]
  exact ⟨.next ht, .ends ht, nofun⟩

theorem field_flow (ht : t = task ∨ t = pass) : ∀ e ∈ flowFields, t.Field e.1 e.2 := by
  simp only [flowFields, List.forall_mem_cons]
  exact ⟨.resultPath ht, .inputPath ht, .input ht, .outputPath ht, nofun⟩

theorem field_own (t : StateType) : ∀ e ∈ t.ownFields, t.Field e.1 e.2 := by
  cases t with
  | task =>
    have hflow : ∀ e ∈ flowFields ++ exitFields, task.Field e.1 e.2 :=
      List.forall_mem_append.2 ⟨field_flow (.inl rfl), field_exit nofun⟩
    exact List.forall_mem_cons.2 ⟨.resource, hflow⟩
  | pass => exact List.forall_mem_append.2 ⟨field_flow (.inr rfl), field_exit nofun⟩
  | fail =>
    have hreason : ∀ e ∈ [("Error", Shape.optionalText), ("Cause", .optionalText)],
        fail.Field e.1 e.2 := by
      simp only [List.forall_mem_cons]
      exact ⟨.error, .cause, nofun⟩
    exact List.forall_mem_append.2 ⟨hreason, field_exit nofun⟩
  | choice =>
    simp only [ownFields, List.forall_mem_cons]
    exact ⟨.choices, .fallback, nofun⟩
  | parallel => exact List.forall_mem_cons.2 ⟨.branches, field_exit nofun⟩
  | succeed | wait | map => exact field_exit nofun

/-- **A record has the fields of its type.** -/
theorem get?_fields_iff : t.record.fields.get? key = some shape ↔ t.Field key shape := by
  constructor
  · intro h
    have hcommon : ∀ e ∈ [("Type", Shape.text), ("Comment", .optionalText)], t.Field e.1 e.2 := by
      simp only [List.forall_mem_cons]
      exact ⟨.type t, .comment t, nofun⟩
    exact List.forall_mem_append.2 ⟨hcommon, field_own t⟩ _ (Entries.mem_of_get? h)
  · intro h
    cases h with
    | type t | comment t => cases t <;> rfl
    | resource | error | cause | choices | fallback | branches => rfl
    | resultPath ht | inputPath ht | input ht | outputPath ht => rcases ht with rfl | rfl <;> rfl
    | next ht | ends ht => cases t <;> first | rfl | exact absurd rfl ht

theorem schema_record (t : StateType) : t.record.schema = t.schema := by
  have hfield : t.record.schema.field = t.schema.field :=
    funext fun _ => funext fun _ => propext get?_fields_iff
  have hstrict : t.record.schema.strict = t.schema.strict := by
    cases t <;> simp [Record.schema, schema, record, isRun]
  exact congr (congrArg Schema.mk hfield) hstrict

/-! ## Checks -/

/-- What a raw state is checked for. -/
inductive Check where
  /-- A member, as it stands. -/
  | member (e : String × Json)
  /-- A field that must be there. -/
  | required (key : String)

/-- The checks of a raw state: member by member in its own order, and then the
required fields. -/
def checks (t : StateType) (raw : Members) : List Check :=
  raw.map .member ++ t.required.map .required

/-- A check of a raw state fails. -/
inductive Fails (t : StateType) (raw : Members) : Check → Problem → Prop where
  /-- A member is missed. -/
  | member {e : String × Json} {m : Misfit} (h : t.schema.Misses e m) :
      Fails t raw (.member e) (.misfit m)
  /-- A required field is not there. -/
  | required {key : String} (h : key ∉ Entries.keys raw) :
      Fails t raw (.required key) (.misfit (.missingField key))

/-- A type admits a raw state. -/
structure Admits (t : StateType) (raw : Members) : Prop where
  /-- Every member is taken. -/
  members : ∀ e ∈ raw, t.schema.Takes e
  /-- Every required field is there. -/
  required : ∀ key ∈ t.required, key ∈ Entries.keys raw

variable {raw : Members} {v : Json} {p : Problem}

theorem fails_member_iff {e : String × Json} :
    t.Fails raw (.member e) p ↔ ∃ m, t.schema.Misses e m ∧ p = .misfit m := by
  constructor
  · rintro ⟨h⟩
    exact ⟨_, h, rfl⟩
  · rintro ⟨m, h, rfl⟩
    exact .member h

theorem fails_required_iff :
    t.Fails raw (.required key) p ↔
      Entries.get? raw key = none ∧ p = .misfit (.missingField key) := by
  rw [← Option.not_isSome_iff_eq_none, Entries.get?_isSome_iff]
  constructor
  · rintro ⟨⟩
    exact ⟨‹_›, rfl⟩
  · rintro ⟨h, rfl⟩
    exact .required h

/-- A member is taken or missed. -/
theorem takes_iff (t : StateType) (e : String × Json) :
    t.schema.Takes e ↔ ∀ m, ¬ t.schema.Misses e m := by
  rw [← schema_record]
  refine ⟨Record.not_misses_of_takes, fun h => ?_⟩
  exact (Record.takes_or_misses t.record e).resolve_right fun ⟨m, hm⟩ => h m hm

/-- **A raw state is admitted if no check fails.** -/
theorem admits_iff : t.Admits raw ↔ ∀ check ∈ t.checks raw, ∀ p, ¬ t.Fails raw check p := by
  constructor
  · rintro ⟨hmembers, hrequired⟩ check hcheck p hfails
    rcases List.mem_append.1 hcheck with hmem | hmem
    · obtain ⟨e, he, rfl⟩ := List.mem_map.1 hmem
      cases hfails with
      | member h => exact (takes_iff t e).1 (hmembers e he) _ h
    · obtain ⟨key, hkey, rfl⟩ := List.mem_map.1 hmem
      cases hfails with
      | required h => exact h (hrequired key hkey)
  · intro h
    refine ⟨fun e he => (takes_iff t e).2 fun m hm => ?_, fun key hkey => ?_⟩
    · exact h _ (List.mem_append_left _ (List.mem_map_of_mem he)) _ (.member hm)
    · refine Decidable.byContradiction fun hnot => ?_
      exact h _ (List.mem_append_right _ (List.mem_map_of_mem hkey)) _ (.required hnot)

/-- A field of a raw state that is there holds what the type takes. -/
theorem takes_of_get? (hall : ∀ e ∈ raw, t.schema.Takes e) (hkey : t.Field key shape)
    (hget : Entries.get? raw key = some v) : shape.Takes v := by
  have htakes := hall _ (Entries.mem_of_get? hget)
  rw [← schema_record] at htakes
  exact Record.takes_of_field (get?_fields_iff.2 hkey) htakes

end StateType

end Workflow
