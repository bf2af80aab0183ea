import Mathlib.Data.Set.List
import Workflow.Proofs.State.Field
/-!
# Workflow — what the fields of a raw state give

What a state is given by its raw form, field by field (`Work.GivenBy`,
`State.GivenBy`). Of members that are all taken, work comes to what they give
(`Work.ofMembers_eq_ok_iff`), or to nothing for the first required field that is not
there (`Work.ofMembers_eq_error_iff`).
-/

namespace Workflow

/-! ## Values by shape -/

namespace Shape

variable {v : Json}

theorem takes_text_iff : text.Takes v ↔ ∃ s, v = .str s := by
  rw [text, takes_scalar_iff]
  cases v <;> simp [Json.kind, Json.isLeaf]

theorem takes_optionalText_iff : optionalText.Takes v ↔ v = .null ∨ ∃ s, v = .str s := by
  rw [optionalText, takes_scalar_iff]
  cases v <;> simp [Json.kind, Json.isLeaf]

theorem takes_flag_iff : flag.Takes v ↔ ∃ b, v = .bool b := by
  rw [flag, takes_scalar_iff]
  cases v <;> simp [Json.kind, Json.isLeaf]

theorem takes_objects_iff :
    objects.Takes v ↔ ∃ objects : List Members, v = .arr (objects.map .obj) := by
  constructor
  · intro h
    cases h with
    | @list _ vs h =>
      have hobjects : vs ∈ {vs | ∀ v ∈ vs, v ∈ Set.range Json.obj} := fun v hv => by
        cases h v hv with
        | @table _ ms _ => exact ⟨ms, rfl⟩
      rw [← Set.range_list_map] at hobjects
      obtain ⟨objects, rfl⟩ := hobjects
      exact ⟨objects, rfl⟩
  · rintro ⟨objects, rfl⟩
    refine .list fun v hv => ?_
    obtain ⟨ms, -, rfl⟩ := List.mem_map.1 hv
    exact .table fun e _ => .any e.2

end Shape

/-! ## What fields give -/

/-- The text that a field gives, none if it is absent or null. -/
inductive GivesText : Option Json → Option String → Prop where
  | absent : GivesText none none
  | null : GivesText (some .null) none
  | text (s : String) : GivesText (some (.str s)) (some s)

/-- The selector that a field gives, absent and null apart. -/
inductive GivesRule : Option Json → Selector → Prop where
  | absent : GivesRule none .whole
  | null : GivesRule (some .null) .nothing
  | path (s : String) : GivesRule (some (.str s)) (.part s)

/-- The truth value that a field gives, false if it is absent. -/
inductive GivesFlag : Option Json → Bool → Prop where
  | absent : GivesFlag none false
  | flag (b : Bool) : GivesFlag (some (.bool b)) b

/-- The objects that a field gives, none if it is absent. -/
inductive GivesObjects : Option Json → List Members → Prop where
  | absent : GivesObjects none []
  | objects (objects : List Members) : GivesObjects (some (.arr (objects.map .obj))) objects

section Gives

variable {field : Option Json}

theorem GivesText.bind_text? {text : Option String} (h : GivesText field text) :
    field.bind Json.text? = text := by
  cases h <;> rfl

theorem GivesText.of_takes (h : ∀ v, field = some v → Shape.optionalText.Takes v) :
    GivesText field (field.bind Json.text?) := by
  cases field with
  | none => exact .absent
  | some v =>
    obtain rfl | ⟨s, rfl⟩ := Shape.takes_optionalText_iff.1 (h v rfl)
    · exact .null
    · exact .text s

theorem GivesRule.ofRule {selector : Selector} (h : GivesRule field selector) :
    Selector.ofRule (field.map Json.text?) = selector := by
  cases h <;> rfl

theorem GivesRule.of_takes (h : ∀ v, field = some v → Shape.optionalText.Takes v) :
    GivesRule field (.ofRule (field.map Json.text?)) := by
  cases field with
  | none => exact .absent
  | some v =>
    obtain rfl | ⟨s, rfl⟩ := Shape.takes_optionalText_iff.1 (h v rfl)
    · exact .null
    · exact .path s

theorem GivesFlag.bind_bool? {b : Bool} (h : GivesFlag field b) :
    (field.bind Json.bool?).getD false = b := by
  cases h <;> rfl

theorem GivesFlag.of_takes (h : ∀ v, field = some v → Shape.flag.Takes v) :
    GivesFlag field ((field.bind Json.bool?).getD false) := by
  cases field with
  | none => exact .absent
  | some v =>
    obtain ⟨b, rfl⟩ := Shape.takes_flag_iff.1 (h v rfl)
    exact .flag b

theorem filterMap_members?_map_obj (objects : List Members) :
    (objects.map Json.obj).filterMap Json.members? = objects := by
  rw [List.filterMap_map]
  exact List.filterMap_some

theorem GivesObjects.filterMap {objects : List Members} (h : GivesObjects field objects) :
    ((field.bind Json.items?).getD []).filterMap Json.members? = objects := by
  cases h with
  | absent => rfl
  | objects => exact filterMap_members?_map_obj objects

theorem GivesObjects.of_takes (h : ∀ v, field = some v → Shape.objects.Takes v) :
    GivesObjects field (((field.bind Json.items?).getD []).filterMap Json.members?) := by
  cases field with
  | none => exact .absent
  | some v =>
    obtain ⟨objects, rfl⟩ := Shape.takes_objects_iff.1 (h v rfl)
    exact (filterMap_members?_map_obj objects).symm ▸ .objects objects

end Gives

/-! ## What a raw state gives -/

/-- Where a state leads is given by its raw form. -/
structure Exit.GivenBy (exit : Exit) (raw : Members) : Prop where
  next : GivesText (Entries.get? raw "Next") exit.next
  ends : GivesFlag (Entries.get? raw "End") exit.ends

/-- How a state moves data is given by its raw form; an input that is null is one
that is there. -/
structure DataFlow.GivenBy (flow : DataFlow) (raw : Members) : Prop where
  input : flow.input = Entries.get? raw "Input"
  inputPath : GivesRule (Entries.get? raw "InputPath") flow.inputPath
  resultPath : "ResultPath" ∈ Entries.keys raw ∧
    GivesText (Entries.get? raw "ResultPath") flow.resultPath
  outputPath : GivesRule (Entries.get? raw "OutputPath") flow.outputPath

/-- What a state does is given by its raw form. -/
inductive Work.GivenBy : Work → Members → Prop where
  | task {resource : String} {flow : DataFlow} {exit : Exit} {raw : Members}
      (hresource : Entries.get? raw "Resource" = some (.str resource)) (hflow : flow.GivenBy raw)
      (hexit : exit.GivenBy raw) : Work.GivenBy (.task resource flow exit) raw
  | pass {flow : DataFlow} {exit : Exit} {raw : Members} (hflow : flow.GivenBy raw)
      (hexit : exit.GivenBy raw) : Work.GivenBy (.pass flow exit) raw
  | succeed {exit : Exit} {raw : Members} (hexit : exit.GivenBy raw) :
      Work.GivenBy (.succeed exit) raw
  | fail {error cause : Option String} {exit : Exit} {raw : Members}
      (herror : GivesText (Entries.get? raw "Error") error)
      (hcause : GivesText (Entries.get? raw "Cause") cause) (hexit : exit.GivenBy raw) :
      Work.GivenBy (.fail error cause exit) raw
  | choice {choices : List Members} {fallback : Option String} {raw : Members}
      (hchoices : GivesObjects (Entries.get? raw "Choices") choices)
      (hfallback : GivesText (Entries.get? raw "Default") fallback) :
      Work.GivenBy (.choice choices fallback) raw
  | parallel {branches : List Members} {exit : Exit} {raw : Members}
      (hbranches : GivesObjects (Entries.get? raw "Branches") branches)
      (hexit : exit.GivenBy raw) : Work.GivenBy (.parallel branches exit) raw
  | wait {exit : Exit} {raw : Members} (hexit : exit.GivenBy raw) : Work.GivenBy (.wait exit) raw
  | map {exit : Exit} {raw : Members} (hexit : exit.GivenBy raw) : Work.GivenBy (.map exit) raw

/-- A state is given by its raw form. -/
structure State.GivenBy (st : State) (raw : Members) : Prop where
  comment : GivesText (Entries.get? raw "Comment") st.comment
  work : st.work.GivenBy raw

variable {raw : Members} {t : StateType} {p : Problem}

theorem Exit.GivenBy.exit_eq {exit : Exit} (h : exit.GivenBy raw) : Members.exit raw = exit := by
  obtain ⟨next, ends⟩ := exit
  exact congr (congrArg Exit.mk h.next.bind_text?) h.ends.bind_bool?

/-- The fields that say where a state leads give that. -/
theorem Exit.givenBy_of_takes (hall : ∀ e ∈ raw, t.schema.Takes e) (ht : t ≠ .choice) :
    (Members.exit raw).GivenBy raw where
  next := GivesText.of_takes fun _ => StateType.takes_of_get? hall (.next ht)
  ends := GivesFlag.of_takes fun _ => StateType.takes_of_get? hall (.ends ht)

namespace Members

variable {key : String}

/-- A required text is missed exactly if its field is not there. -/
theorem requireText_eq_error_iff (hall : ∀ e ∈ raw, t.schema.Takes e) (hkey : t.Field key .text) :
    requireText raw key = .error p ↔ t.Fails raw (.required key) p := by
  rw [StateType.fails_required_iff, requireText, text?]
  cases hget : Entries.get? raw key with
  | none => simp [eq_comm]
  | some v =>
    obtain ⟨s, rfl⟩ := Shape.takes_text_iff.1 (StateType.takes_of_get? hall hkey hget)
    simp [Json.text?]

theorem requireText_eq_ok_iff {s : String} :
    requireText raw key = .ok s ↔ Entries.get? raw key = some (.str s) := by
  rw [← text?_eq_some_iff, requireText]
  cases text? raw key <;> simp

theorem requireRule_eq_ok_iff {text : Option String} :
    requireRule raw key = .ok text ↔ (Entries.get? raw key).map Json.text? = some text := by
  rw [requireRule, rule]
  cases (Entries.get? raw key).map Json.text? <;> simp

/-- So is a required text that may be null. -/
theorem requireRule_eq_error_iff :
    requireRule raw key = .error p ↔ t.Fails raw (.required key) p := by
  rw [StateType.fails_required_iff, requireRule, rule]
  cases Entries.get? raw key <;> simp [eq_comm]

/-- Only the place of the result has to be there for data to be moved. -/
theorem flow_eq_error_iff : flow raw = .error p ↔ t.Fails raw (.required "ResultPath") p := by
  simp only [← requireRule_eq_error_iff, flow, bind_pure_comp, Except.map_eq_error_iff]

end Members

theorem DataFlow.GivenBy.flow_eq {flow : DataFlow} (h : flow.GivenBy raw) :
    Members.flow raw = .ok flow := by
  obtain ⟨hthere, hgives⟩ := h.resultPath
  obtain ⟨v, hget⟩ :=
    Option.isSome_iff_exists.1 ((Entries.get?_isSome_iff raw "ResultPath").2 hthere)
  have hpath : Members.requireRule raw "ResultPath" = .ok flow.resultPath := by
    rw [Members.requireRule_eq_ok_iff, hget, Option.map_some, ← hgives.bind_text?, hget]
    rfl
  rw [Members.flow, hpath]
  obtain ⟨input, inputPath, resultPath, outputPath⟩ := flow
  simp only [Members.rule, h.inputPath.ofRule, h.outputPath.ofRule, ← h.input]
  rfl

theorem DataFlow.givenBy_of_flow (hall : ∀ e ∈ raw, t.schema.Takes e) (ht : t = .task ∨ t = .pass)
    {flow : DataFlow} (h : Members.flow raw = .ok flow) : flow.GivenBy raw := by
  obtain ⟨path, hpath, hflow⟩ := Except.bind_eq_ok_iff.1 h
  cases hflow
  rw [Members.requireRule_eq_ok_iff] at hpath
  obtain ⟨v, hget, htext⟩ := Option.map_eq_some_iff.1 hpath
  have hpath := GivesText.of_takes fun _ => StateType.takes_of_get? hall (.resultPath ht)
  refine ⟨rfl, ?_, ⟨?_, ?_⟩, ?_⟩
  · exact GivesRule.of_takes fun _ => StateType.takes_of_get? hall (.inputPath ht)
  · simp [← Entries.get?_isSome_iff, hget]
  · rw [hget] at hpath ⊢
    exact htext ▸ hpath
  · exact GivesRule.of_takes fun _ => StateType.takes_of_get? hall (.outputPath ht)

/-! ## What a state does -/

namespace Work

variable {work : Work}

/-- The fields of a raw state give the work that they load as. -/
theorem ofMembers_of_givenBy (h : work.GivenBy raw) : ofMembers raw work.type = .ok work := by
  cases h with
  | task hresource hflow hexit =>
    rw [type, ofMembers, Members.requireText, Members.text?_eq_some_iff.2 hresource,
      hflow.flow_eq, hexit.exit_eq]
    rfl
  | pass hflow hexit =>
    rw [type, ofMembers, hflow.flow_eq, hexit.exit_eq]
    rfl
  | succeed hexit | wait hexit | map hexit => rw [type, ofMembers, hexit.exit_eq]
  | fail herror hcause hexit =>
    rw [type, ofMembers, Members.text?, Members.text?, herror.bind_text?, hcause.bind_text?,
      hexit.exit_eq]
  | choice hchoices hfallback =>
    rw [type, ofMembers, Members.objects, Members.text?, hchoices.filterMap, hfallback.bind_text?]
  | parallel hbranches hexit =>
    rw [type, ofMembers, Members.objects, hbranches.filterMap, hexit.exit_eq]

/-- And what they load as is given by them. -/
theorem givenBy_of_ofMembers (hall : ∀ e ∈ raw, t.schema.Takes e)
    (h : ofMembers raw t = .ok work) : work.GivenBy raw := by
  have htext {key : String} (hkey : t.Field key .optionalText) :
      GivesText (Entries.get? raw key) (Members.text? raw key) :=
    GivesText.of_takes fun _ => StateType.takes_of_get? hall hkey
  have hobjects {key : String} (hkey : t.Field key .objects) :
      GivesObjects (Entries.get? raw key) (Members.objects raw key) :=
    GivesObjects.of_takes fun _ => StateType.takes_of_get? hall hkey
  cases t with
  | task =>
    obtain ⟨resource, hresource, hrest⟩ := Except.bind_eq_ok_iff.1 h
    obtain ⟨flow, hflow, hwork⟩ := Except.bind_eq_ok_iff.1 hrest
    cases hwork
    exact .task (Members.requireText_eq_ok_iff.1 hresource)
      (DataFlow.givenBy_of_flow hall (.inl rfl) hflow) (Exit.givenBy_of_takes hall nofun)
  | pass =>
    obtain ⟨flow, hflow, hwork⟩ := Except.bind_eq_ok_iff.1 h
    cases hwork
    exact .pass (DataFlow.givenBy_of_flow hall (.inr rfl) hflow) (Exit.givenBy_of_takes hall nofun)
  | succeed =>
    cases h
    exact .succeed (Exit.givenBy_of_takes hall nofun)
  | fail =>
    cases h
    exact .fail (htext .error) (htext .cause) (Exit.givenBy_of_takes hall nofun)
  | choice =>
    cases h
    exact .choice (hobjects .choices) (htext .fallback)
  | parallel =>
    cases h
    exact .parallel (hobjects .branches) (Exit.givenBy_of_takes hall nofun)
  | wait =>
    cases h
    exact .wait (Exit.givenBy_of_takes hall nofun)
  | map =>
    cases h
    exact .map (Exit.givenBy_of_takes hall nofun)

/-- **Work is what the fields give**, of the type asked for. -/
theorem ofMembers_eq_ok_iff (hall : ∀ e ∈ raw, t.schema.Takes e) :
    ofMembers raw t = .ok work ↔ work.type = t ∧ work.GivenBy raw := by
  constructor
  · intro h
    exact ⟨(of_ofMembers h).1, givenBy_of_ofMembers hall h⟩
  · rintro ⟨rfl, h⟩
    exact ofMembers_of_givenBy h

/-- **There is none if a required field is not there**; the first that is missed
is the problem. -/
theorem ofMembers_eq_error_iff (hall : ∀ e ∈ raw, t.schema.Takes e) :
    ofMembers raw t = .error p ↔
      Except.FirstOf (t.Fails raw) (t.required.map .required) p := by
  have hflow {β : Type} (f : DataFlow → β) (p : Problem) :
      (do let flow ← Members.flow raw; return f flow) = Except.error p ↔
        Except.FirstOf (t.Fails raw) [.required "ResultPath"] p := by
    rw [Except.firstOf_singleton_iff, ← Members.flow_eq_error_iff, bind_pure_comp,
      Except.map_eq_error_iff]
  cases t with
  | task =>
    have hcauses : StateType.task.required.map StateType.Check.required =
        [.required "Resource"] ++ [.required "ResultPath"] := rfl
    rw [hcauses]
    refine Except.firstOf_bind (fun p => ?_) (fun resource _ => hflow _) p
    rw [Except.firstOf_singleton_iff, Members.requireText_eq_error_iff hall .resource]
  | pass => exact hflow _ p
  | succeed | fail | choice | parallel | wait | map =>
    constructor <;> intro h <;> cases h

/-- Only the fields of the type count. -/
theorem ofMembers_congr {ms ms' : Members}
    (h : ∀ key shape, t.Field key shape → Entries.get? ms key = Entries.get? ms' key) :
    ofMembers ms t = ofMembers ms' t := by
  have hexit (ht : t ≠ .choice) : Members.exit ms = Members.exit ms' := by
    simp only [Members.exit, Members.text?, Members.flag, h _ _ (.next ht), h _ _ (.ends ht)]
  have hflow (ht : t = .task ∨ t = .pass) : Members.flow ms = Members.flow ms' := by
    simp only [Members.flow, Members.requireRule, Members.rule, h _ _ (.resultPath ht),
      h _ _ (.inputPath ht), h _ _ (.input ht), h _ _ (.outputPath ht)]
  cases t with
  | task =>
    simp only [ofMembers, Members.requireText, Members.text?, h _ _ .resource, hflow (.inl rfl),
      hexit (by decide)]
  | pass => simp only [ofMembers, hflow (.inr rfl), hexit (by decide)]
  | succeed | wait | map => simp only [ofMembers, hexit (by decide)]
  | fail => simp only [ofMembers, Members.text?, h _ _ .error, h _ _ .cause, hexit (by decide)]
  | choice => simp only [ofMembers, Members.objects, Members.text?, h _ _ .choices, h _ _ .fallback]
  | parallel => simp only [ofMembers, Members.objects, h _ _ .branches, hexit (by decide)]

end Work

end Workflow
