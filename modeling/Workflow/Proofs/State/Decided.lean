import Workflow.Proofs.State.Given
/-!
# Workflow — what a raw state loads as

Loading decides every raw state. One of a known type loads as the state that it
gives if its type admits it (`State.fit_eq_ok_iff`), and is refused for the first
check that fails otherwise (`State.fit_eq_error_iff`); what a definition declares
under a name is loaded by the type that it says it is of
(`Definition.state_decided`).
-/

namespace Workflow

open Json (Draft)

variable {raw : Members} {t : StateType} {p : Problem}

/-! ## States -/

namespace StateType

/-- The fields of a type stand in a raw state as among its known fields. -/
theorem get?_known {key : String} {shape : Shape} (hkey : t.Field key shape) (raw : Members) :
    Entries.get? (t.record.known raw) key = Entries.get? raw key :=
  Record.get?_known (Option.isSome_of_eq_some (get?_fields_iff.2 hkey)) raw

/-- What the checks of the members find is what the record of the type does. -/
theorem firstOf_member_iff : Except.FirstOf (t.Fails raw) (raw.map .member) p ↔
    t.record.fit (.obj (Draft.ofMembers raw)) = .error p := by
  simp only [Except.firstOf_map_iff, fails_member_iff, Record.fit_eq_error_iff, schema_record]

end StateType

namespace State

variable {st : State}

/-- Members that are all taken load as the state that they give, if any. -/
theorem fit_of_takes (hraw : (Json.obj raw).WellFormed) (hall : ∀ e ∈ raw, t.schema.Takes e) :
    fit t raw = (⟨Members.text? raw "Comment", ·⟩) <$> Work.ofMembers raw t := by
  have hget {key : String} {shape : Shape} (hkey : t.Field key shape) :=
    StateType.get?_known hkey raw
  have hcomment : Members.text? (t.record.known raw) "Comment" = Members.text? raw "Comment" :=
    congrArg (Option.bind · Json.text?) (hget (.comment t))
  have hwork : Work.ofMembers (t.record.known raw) t = Work.ofMembers raw t :=
    Work.ofMembers_congr fun _ _ hkey => hget hkey
  have hfields : t.record.fit (.obj (Draft.ofMembers raw)) = .ok (t.record.known raw) :=
    (Record.fit_eq_ok_iff hraw).2 ⟨(StateType.schema_record t).symm ▸ hall, rfl⟩
  calc fit t raw
    _ = do
        let work ← Work.ofMembers (t.record.known raw) t
        return ⟨Members.text? (t.record.known raw) "Comment", work⟩ := by
      rw [fit, hfields]
      rfl
    _ = (⟨Members.text? raw "Comment", ·⟩) <$> Work.ofMembers raw t := by
      rw [hwork, hcomment, bind_pure_comp]

/-- **A raw state is refused for the first check that fails.** -/
theorem fit_eq_error_iff (hraw : (Json.obj raw).WellFormed) :
    fit t raw = .error p ↔ Except.FirstOf (t.Fails raw) (t.checks raw) p := by
  refine Except.firstOf_bind (fun p => StateType.firstOf_member_iff.symm) (fun ms hms p => ?_) p
  have hall : ∀ e ∈ raw, t.schema.Takes e :=
    StateType.schema_record t ▸ ((Record.fit_eq_ok_iff hraw).1 hms).1
  have hfit := fit_of_takes hraw hall
  rw [fit, hms] at hfit
  have hwork : (State.mk (Members.text? raw "Comment") ·) <$> Work.ofMembers raw t = .error p ↔
      Work.ofMembers raw t = .error p := Except.map_eq_error_iff
  rw [← Work.ofMembers_eq_error_iff hall, ← hwork, ← hfit]
  rfl

/-- **A raw state loads exactly if its type admits it.** -/
theorem exists_fit_iff (hraw : (Json.obj raw).WellFormed) :
    (∃ st, fit t raw = .ok st) ↔ t.Admits raw := by
  have hfails : (∃ p, fit t raw = .error p) ↔ ¬ t.Admits raw := by
    simp only [fit_eq_error_iff hraw, Except.exists_firstOf_iff, StateType.admits_iff, not_forall,
      not_not, exists_prop]
  rw [← not_iff_not, ← hfails]
  cases fit t raw <;> simp

/-- **It loads as the state that it gives.** -/
theorem fit_eq_ok_iff (hraw : (Json.obj raw).WellFormed) :
    fit t raw = .ok st ↔ t.Admits raw ∧ st.type = t ∧ st.GivenBy raw := by
  have hload (hadmits : t.Admits raw) :
      fit t raw = .ok st ↔ st.type = t ∧ st.GivenBy raw := by
    rw [fit_of_takes hraw hadmits.members, Except.map_eq_ok_iff]
    have hcomment := GivesText.of_takes fun _ =>
      StateType.takes_of_get? hadmits.members (.comment t)
    constructor
    · rintro ⟨work, hwork, rfl⟩
      obtain ⟨htype, hgiven⟩ := (Work.ofMembers_eq_ok_iff hadmits.members).1 hwork
      exact ⟨htype, hcomment, hgiven⟩
    · rintro ⟨htype, hgiven, hwork⟩
      exact ⟨st.work, (Work.ofMembers_eq_ok_iff hadmits.members).2 ⟨htype, hwork⟩,
        congrArg (State.mk · st.work) hgiven.bind_text?⟩
  constructor
  · intro h
    have hadmits := (exists_fit_iff hraw).1 ⟨st, h⟩
    exact ⟨hadmits, (hload hadmits).1 h⟩
  · rintro ⟨hadmits, h⟩
    exact (hload hadmits).2 h

end State

/-! ## States of a definition -/

namespace Definition

variable {d : Definition} {name : String}

/-- A definition declares a raw state of a type under a name. -/
structure Declares (d : Definition) (name : String) (t : StateType) (raw : Members) : Prop where
  declared : Entries.get? d.states name = some raw
  type : Entries.get? raw "Type" = some (.str t.name)

/-- A definition declares a raw state under a name whose type is none. -/
structure Misdeclares (d : Definition) (name : String) (raw : Members) : Prop where
  declared : Entries.get? d.states name = some raw
  type (t : StateType) : Entries.get? raw "Type" ≠ some (.str t.name)

theorem Misdeclares.state_eq (h : d.Misdeclares name raw) :
    d.state name = .error (.invalidType (Entries.get? raw "Type") (.str name)) := by
  have htype : (Entries.get? raw "Type").bind StateType.ofJson? = none := by
    refine Option.eq_none_iff_forall_ne_some.2 fun t ht => ?_
    obtain ⟨v, hv, hname⟩ := Option.bind_eq_some_iff.1 ht
    exact h.type t (hv.trans (congrArg some (StateType.ofJson?_eq_some_iff.1 hname)))
  simp only [state, h.declared, State.ofMembers, htype]

theorem Declares.state_eq (h : d.Declares name t raw) :
    d.state name = (State.fit t raw).mapError (State.faultOf (.str name)) := by
  have htype : (Entries.get? raw "Type").bind StateType.ofJson? = some t := by
    rw [h.type, Option.bind_some, StateType.ofJson?_name]
  simp only [state, h.declared, State.ofMembers, htype]

/-- A state is not declared, or it is of no type or of some. -/
theorem declared_cases (d : Definition) (name : String) :
    name ∉ Entries.keys d.states ∨ (∃ raw, d.Misdeclares name raw) ∨
      ∃ t raw, d.Declares name t raw := by
  cases hget : Entries.get? d.states name with
  | none =>
    rw [← Entries.get?_isSome_iff, hget]
    exact .inl nofun
  | some raw =>
    by_cases htype : ∃ t : StateType, Entries.get? raw "Type" = some (.str t.name)
    · obtain ⟨t, ht⟩ := htype
      exact .inr (.inr ⟨t, raw, hget, ht⟩)
    · exact .inr (.inl ⟨raw, hget, fun t ht => htype ⟨t, ht⟩⟩)

/-- A state that is declared with a type is only refused for its shape. -/
theorem Declares.badState {fault : Fault} (h : d.Declares name t raw)
    (hfault : d.state name = .error fault) : ∃ m, fault = .badState (.str name) m := by
  rw [h.state_eq, Except.mapError_eq_error_iff] at hfault
  obtain ⟨p, hfit, rfl⟩ := hfault
  obtain ⟨m, rfl⟩ := State.misfit_of_fit hfit
  exact ⟨m, rfl⟩

/-- **A state is not found exactly if it is not declared.** -/
theorem state_notFound_iff :
    (∃ fault, d.state name = .error fault ∧ fault.family = .stateNotFound) ↔
      name ∉ Entries.keys d.states := by
  constructor
  · rintro ⟨fault, hfault, hfamily⟩
    obtain h | ⟨raw, h⟩ | ⟨t, raw, h⟩ := declared_cases d name
    · exact h
    · cases h.state_eq.symm.trans hfault
      cases hfamily
    · obtain ⟨m, rfl⟩ := h.badState hfault
      cases hfamily
  · intro h
    exact ⟨_, state_undeclared h, rfl⟩

/-- **It is refused for its type exactly if that is none.** -/
theorem state_invalidType_iff :
    (∃ fault, d.state name = .error fault ∧ fault.family = .invalidType) ↔
      ∃ raw, d.Misdeclares name raw := by
  constructor
  · rintro ⟨fault, hfault, hfamily⟩
    obtain h | h | ⟨t, raw, h⟩ := declared_cases d name
    · cases (state_undeclared h).symm.trans hfault
      cases hfamily
    · exact h
    · obtain ⟨m, rfl⟩ := h.badState hfault
      cases hfamily
  · rintro ⟨raw, h⟩
    exact ⟨_, h.state_eq, rfl⟩

theorem Declares.state_eq_ok_iff {st : State} (h : d.Declares name t raw)
    (hraw : (Json.obj raw).WellFormed) :
    d.state name = .ok st ↔ t.Admits raw ∧ st.type = t ∧ st.GivenBy raw := by
  rw [h.state_eq, Except.mapError_eq_ok_iff, State.fit_eq_ok_iff hraw]

/-- **A state of a type loads exactly if the type admits it.** -/
theorem Declares.exists_state_iff (h : d.Declares name t raw) (hraw : (Json.obj raw).WellFormed) :
    (∃ st, d.state name = .ok st ∧ st.type = t) ↔ t.Admits raw := by
  constructor
  · rintro ⟨st, hst, -⟩
    exact ((h.state_eq_ok_iff hraw).1 hst).1
  · intro hadmits
    obtain ⟨st, hfit⟩ := (State.exists_fit_iff hraw).2 hadmits
    have hst := (State.fit_eq_ok_iff hraw).1 hfit
    exact ⟨st, (h.state_eq_ok_iff hraw).2 hst, hst.2.1⟩

/-- One that is not admitted is refused for the first check that fails. -/
theorem Declares.refused (h : d.Declares name t raw) (hraw : (Json.obj raw).WellFormed)
    (hnot : ¬ t.Admits raw) : ∃ m, Except.FirstOf (t.Fails raw) (t.checks raw) (.misfit m) ∧
      d.state name = .error (.badState (.str name) m) := by
  cases hfit : State.fit t raw with
  | ok st => exact absurd ((State.exists_fit_iff hraw).1 ⟨st, hfit⟩) hnot
  | error p =>
    obtain ⟨m, rfl⟩ := State.misfit_of_fit hfit
    refine ⟨m, (State.fit_eq_error_iff hraw).1 hfit, ?_⟩
    rw [h.state_eq, hfit]
    rfl

/-- **Loading decides every raw state.** A state is not found exactly if it is not
declared, and refused for its type exactly if that is none, whatever else it is
declared with. One of a known type loads exactly if that admits it, as the state
that it gives, and is refused by its name for the first check that fails otherwise. -/
theorem state_decided (d : Definition) (name : String) :
    ((∃ fault, d.state name = .error fault ∧ fault.family = .stateNotFound) ↔
      name ∉ Entries.keys d.states) ∧
    ((∃ fault, d.state name = .error fault ∧ fault.family = .invalidType) ↔
      ∃ raw, d.Misdeclares name raw) ∧
    ∀ t raw, d.Declares name t raw → (Json.obj raw).WellFormed →
      ((∃ st, d.state name = .ok st ∧ st.type = t) ↔ t.Admits raw) ∧
      (∀ st, d.state name = .ok st ↔ t.Admits raw ∧ st.type = t ∧ st.GivenBy raw) ∧
      (¬ t.Admits raw → ∃ m, Except.FirstOf (t.Fails raw) (t.checks raw) (.misfit m) ∧
        ∃ fault, d.state name = .error fault ∧ fault.family = .definition ∧
          fault.message = some ("State '" ++ name ++ "' is invalid: " ++ m.text)) := by
  refine ⟨state_notFound_iff, state_invalidType_iff, fun t raw h hraw => ?_⟩
  refine ⟨h.exists_state_iff hraw, fun st => h.state_eq_ok_iff hraw, fun hnot => ?_⟩
  obtain ⟨m, hfirst, hstate⟩ := h.refused hraw hnot
  exact ⟨m, hfirst, _, hstate, rfl, rfl⟩

/-- A task that gives its fields in an order of its own, and a pass that lacks a field
and has an unknown one. -/
def depot : Definition where
  states := [
    ("Pack", [("ResultPath", .null), ("InputPath", .null), ("Type", .str "Task"),
      ("End", .bool true), ("Resource", .str "pack")]),
    ("Ship", [("To", .str "home"), ("Type", .str "Pass")])]
  startAt := some "Pack"
  comment := none
  version := none
  timeoutSeconds := none

/-- The task loads with what it gives; the pass is refused for the field that it has,
not for the one that it lacks. -/
theorem depot_state_decided :
    depot.state "Pack" =
      .ok ⟨none, .task "pack" ⟨none, .nothing, none, .whole⟩ ⟨none, true⟩⟩ ∧
    ∃ fault, depot.state "Ship" = .error fault ∧ fault.family = .definition ∧
      fault.message = some "State 'Ship' is invalid: Object contains unknown field `To`" := by
  have hleaves {raw : Members} (hnames : (Entries.keys raw).Nodup)
      (hleaf : ∀ e ∈ raw, e.2.isLeaf) : (Json.obj raw).WellFormed :=
    Json.wellFormed_obj_iff.2 ⟨hnames, fun e he => Json.wellFormed_of_isLeaf (hleaf e he)⟩
  constructor
  · refine (((state_decided depot "Pack").2.2 .task _ ⟨rfl, rfl⟩
      (hleaves (by decide) (by decide))).2.1 _).2 ⟨⟨?_, by decide⟩, rfl, ?_⟩
    · simp only [List.forall_mem_cons]
      refine ⟨.field (StateType.Field.resultPath (.inl rfl)) ?_,
        .field (StateType.Field.inputPath (.inl rfl)) ?_, .field (StateType.Field.type _) ?_,
        .field (StateType.Field.ends (by decide)) ?_, .field StateType.Field.resource ?_,
        List.forall_mem_nil _⟩
      · exact Shape.takes_optionalText_iff.2 (.inl rfl)
      · exact Shape.takes_optionalText_iff.2 (.inl rfl)
      · exact Shape.takes_text_iff.2 ⟨_, rfl⟩
      · exact Shape.takes_flag_iff.2 ⟨_, rfl⟩
      · exact Shape.takes_text_iff.2 ⟨_, rfl⟩
    · exact ⟨.absent, .task rfl ⟨rfl, .null, ⟨by decide, .null⟩, .absent⟩ ⟨.absent, .flag true⟩⟩
  · have hlacks : ¬ StateType.Admits .pass [("To", .str "home"), ("Type", .str "Pass")] :=
      fun hadmits => absurd (hadmits.required "ResultPath" (by decide)) (by decide)
    obtain ⟨m, hfirst, fault, hfault, hfamily, hmessage⟩ :=
      ((state_decided depot "Ship").2.2 .pass _ ⟨rfl, rfl⟩
        (hleaves (by decide) (by decide))).2.2 hlacks
    have hnone : StateType.pass.record.fields.get? "To" = none := rfl
    have hunknown (shape : Shape) : ¬ StateType.Field .pass "To" shape := by
      simp [← StateType.get?_fields_iff, hnone]
    obtain rfl : m = .unknownField "To" := by
      cases hfirst with
      | here h =>
        obtain ⟨m, hm, heq⟩ := StateType.fails_member_iff.1 h
        cases heq
        cases hm with
        | field hkey _ => exact absurd hkey (hunknown _)
        | other _ _ => rfl
      | later hno _ => exact absurd (.member (.other hunknown (.inr (.inl rfl)))) (hno _)
    exact ⟨fault, hfault, hfamily, hmessage.trans (by decide)⟩

end Definition

end Workflow
