import Workflow.Proofs.Shape.Given
import Workflow.State.Load
/-!
# Workflow — raw states and what they load as

A raw state that repeats no name and is of a type that is run loads with the
values that it gives: its type, its next state and whether it ends the run
are read off the raw fields (`State.next_of_fit`, `State.isTerminal_of_fit`), and
the texts that it follows as paths are rules of the raw state
(`State.hasRule_of_follows`). A state that does not load fails for want of it, by
its type or by its shape (`Definition.family_of_state`).
-/

namespace Workflow

open Json (Draft)

/-! ## Fields of a raw state -/

namespace Members

variable {ms : Members} {key : String}

theorem text?_eq_some_iff {s : String} :
    text? ms key = some s ↔ Entries.get? ms key = some (.str s) := by
  unfold text?
  cases Entries.get? ms key with
  | none => simp
  | some v => cases v <;> simp [Json.text?]

theorem flag_eq_true_iff : flag ms key = true ↔ Entries.get? ms key = some (.bool true) := by
  unfold flag
  cases Entries.get? ms key with
  | none => simp
  | some v => cases v <;> simp [Json.bool?]

/-- A field that says nothing on how data is moved does not change that. -/
theorem flow_insert (hkey : StateType.flowFields.get? key = none) (ms : Members) (v : Json) :
    flow (Entries.insert ms key v) = flow ms := by
  have hother (field : String) (hfield : (StateType.flowFields.get? field).isSome) :
      Entries.get? (Entries.insert ms key v) field = Entries.get? ms field := by
    rw [Entries.get?_insert, if_neg]
    rintro rfl
    rw [hkey] at hfield
    cases hfield
  simp only [flow, requireRule, rule, hother "ResultPath" rfl, hother "Input" rfl,
    hother "InputPath" rfl, hother "OutputPath" rfl]

/-- Nor does one that says nothing on where a state leads. -/
theorem exit_insert (hkey : StateType.exitFields.get? key = none) (ms : Members) (v : Json) :
    exit (Entries.insert ms key v) = exit ms := by
  have hother (field : String) (hfield : (StateType.exitFields.get? field).isSome) :
      Entries.get? (Entries.insert ms key v) field = Entries.get? ms field := by
    rw [Entries.get?_insert, if_neg]
    rintro rfl
    rw [hkey] at hfield
    cases hfield
  simp only [exit, text?, flag, hother "Next" rfl, hother "End" rfl]

/-- The fields that hold rules, which are followed as paths. -/
def ruleFields : List String :=
  ["InputPath", "ResultPath", "OutputPath"]

/-- A raw state has a text as one of its rules. -/
def HasRule (raw : Members) (path : String) : Prop :=
  ∃ key ∈ ruleFields, Entries.get? raw key = some (.str path)

theorem rule_eq_some_some_iff {path : String} :
    rule ms key = some (some path) ↔ Entries.get? ms key = some (.str path) := by
  rw [← text?_eq_some_iff, text?, rule, Option.map_eq_some_iff, Option.bind_eq_some_iff]

end Members

/-- The rule that selects a part is a text, which is the path to it. -/
theorem Selector.ofRule_eq_part_iff {rule : Option (Option String)} {path : String} :
    ofRule rule = .part path ↔ rule = some (some path) := by
  rcases rule with _ | _ | text <;> simp [ofRule]

namespace StateType

theorem ofJson?_name (t : StateType) : ofJson? (.str t.name) = some t := by
  cases t <;> rfl

/-- A value names a type exactly if it is the name of that type. -/
theorem ofJson?_eq_some_iff {v : Json} {t : StateType} : ofJson? v = some t ↔ v = .str t.name := by
  constructor
  · intro h
    obtain ⟨s, hs, hfind⟩ := Option.bind_eq_some_iff.1 h
    have hname : t.name = s := by simpa using List.find?_some hfind
    cases v with
    | str s' =>
      cases hs
      rw [hname]
    | _ => cases hs
  · rintro rfl
    exact ofJson?_name t

/-- A type that is run is held to its fields. -/
theorem record_strict {t : StateType} (h : t.isRun) : t.record.strict := h

/-- A type that computes is run, and has rules. -/
theorem rule_fields {t : StateType} (h : t = .task ∨ t = .pass) :
    t.isRun ∧ ∀ key ∈ Members.ruleFields, t.record.fields.get? key = some .optionalText := by
  simp only [Members.ruleFields, List.forall_mem_cons]
  rcases h with rfl | rfl
  · exact ⟨rfl, rfl, rfl, rfl, nofun⟩
  · exact ⟨rfl, rfl, rfl, rfl, nofun⟩

/-- A type's next state and its end are fields without parts. -/
theorem exit_fields {t : StateType} (h : t.isRun) :
    t.record.fields.get? "Next" = some (.scalar [.str, .null]) ∧
      t.record.fields.get? "End" = some (.scalar [.bool]) := by
  cases t <;> first | exact ⟨rfl, rfl⟩ | cases h

end StateType

/-- The texts that are followed as paths where data is moved so. An input that is
given hides the rule for it. -/
inductive DataFlow.Follows (flow : DataFlow) : String → Prop where
  | input {path : String} (hinput : flow.input = none) (hpath : flow.inputPath = .part path) :
      Follows flow path
  | result {path : String} (hpath : flow.resultPath = some path) : Follows flow path
  | output {path : String} (hpath : flow.outputPath = .part path) : Follows flow path

/-- They are rules among the fields that say how data is moved. -/
theorem Members.hasRule_of_follows {ms : Members} {flow : DataFlow} {path : String}
    (h : Members.flow ms = .ok flow) (hpath : flow.Follows path) : HasRule ms path := by
  obtain ⟨resultPath, hresult, hflow⟩ := Except.bind_eq_ok_iff.1 h
  cases hflow
  cases hpath with
  | input _ hpath =>
    exact ⟨"InputPath", by decide, rule_eq_some_some_iff.1 (Selector.ofRule_eq_part_iff.1 hpath)⟩
  | result hpath =>
    obtain rfl : resultPath = some path := hpath
    unfold requireRule at hresult
    split at hresult
    · rename_i hrule
      cases hresult
      exact ⟨"ResultPath", by decide, rule_eq_some_some_iff.1 hrule⟩
    · cases hresult
  | output hpath =>
    exact ⟨"OutputPath", by decide, rule_eq_some_some_iff.1 (Selector.ofRule_eq_part_iff.1 hpath)⟩

namespace Work

/-- How work moves data, if it computes. -/
def flow? : Work → Option DataFlow
  | task _ flow _ | pass flow _ => some flow
  | succeed _ | fail _ _ _ | choice _ _ | parallel _ _ | wait _ | map _ => none

variable {ms : Members} {t : StateType} {work : Work}

/-- Work is of the type that it is asked for, and its exit is read off the
fields. -/
theorem of_ofMembers (h : ofMembers ms t = .ok work) :
    work.type = t ∧ (t.isRun → work.next = Members.text? ms "Next" ∧
      (work.isTerminal = true ↔ t = .succeed ∨ t = .fail ∨ Members.flag ms "End" = true)) := by
  cases t with
  | task =>
    obtain ⟨resource, -, hrest⟩ := Except.bind_eq_ok_iff.1 h
    obtain ⟨flow, -, hwork⟩ := Except.bind_eq_ok_iff.1 hrest
    cases hwork
    exact ⟨rfl, fun _ => ⟨rfl, by simp [isTerminal, Members.exit]⟩⟩
  | pass =>
    obtain ⟨flow, -, hwork⟩ := Except.bind_eq_ok_iff.1 h
    cases hwork
    exact ⟨rfl, fun _ => ⟨rfl, by simp [isTerminal, Members.exit]⟩⟩
  | succeed | fail =>
    cases h
    exact ⟨rfl, fun _ => ⟨rfl, by simp [isTerminal]⟩⟩
  | choice | parallel | wait | map =>
    cases h
    exact ⟨rfl, nofun⟩

/-- Work that computes is of a type that does, and moves data as its fields say. -/
theorem of_flow?_of_ofMembers {flow : DataFlow} (h : ofMembers ms t = .ok work)
    (hflow : work.flow? = some flow) : (t = .task ∨ t = .pass) ∧ Members.flow ms = .ok flow := by
  cases t with
  | task =>
    obtain ⟨resource, -, hrest⟩ := Except.bind_eq_ok_iff.1 h
    obtain ⟨flow', hflow', hwork⟩ := Except.bind_eq_ok_iff.1 hrest
    cases hwork
    cases hflow
    exact ⟨.inl rfl, hflow'⟩
  | pass =>
    obtain ⟨flow', hflow', hwork⟩ := Except.bind_eq_ok_iff.1 h
    cases hwork
    cases hflow
    exact ⟨.inr rfl, hflow'⟩
  | _ =>
    cases h
    cases hflow

/-- A type's fields are refused for want of a required one only. -/
theorem misfit_of_ofMembers {p : Problem} (h : ofMembers ms t = .error p) : ∃ m, p = .misfit m := by
  have htext (key : String) {q : Problem} (hq : Members.requireText ms key = .error q) :
      ∃ m, q = .misfit m := by
    unfold Members.requireText at hq
    split at hq <;> cases hq
    exact ⟨_, rfl⟩
  have hflow {q : Problem} (hq : Members.flow ms = .error q) : ∃ m, q = .misfit m := by
    unfold Members.flow Members.requireRule at hq
    split at hq <;> cases hq
    exact ⟨_, rfl⟩
  cases t with
  | task =>
    obtain hresource | ⟨resource, -, hrest⟩ := Except.bind_eq_error_iff.1 h
    · exact htext _ hresource
    · obtain hf | ⟨flow, -, hwork⟩ := Except.bind_eq_error_iff.1 hrest
      · exact hflow hf
      · cases hwork
  | pass =>
    obtain hf | ⟨flow, -, hwork⟩ := Except.bind_eq_error_iff.1 h
    · exact hflow hf
    · cases hwork
  | _ => cases h

end Work

namespace State

variable {raw : Members} {t : StateType} {st : State} {next : String}

/-- A raw state that loads has the work of its fitted fields. -/
theorem exists_of_fit (h : fit t raw = .ok st) :
    ∃ ms, t.record.fit (.obj (Draft.ofMembers raw)) = .ok ms ∧
      Work.ofMembers ms t = .ok st.work := by
  obtain ⟨ms, hms, hrest⟩ := Except.bind_eq_ok_iff.1 h
  obtain ⟨work, hwork, hst⟩ := Except.bind_eq_ok_iff.1 hrest
  cases hst
  exact ⟨ms, hms, hwork⟩

/-- One that does not load misses its shape. -/
theorem misfit_of_fit {p : Problem} (h : fit t raw = .error p) : ∃ m, p = .misfit m := by
  obtain hms | ⟨ms, -, hrest⟩ := Except.bind_eq_error_iff.1 h
  · exact Record.misfit_of_fitMembers (Except.map_eq_error_iff.1 hms)
  · obtain hwork | ⟨work, -, hst⟩ := Except.bind_eq_error_iff.1 hrest
    · exact Work.misfit_of_ofMembers hwork
    · cases hst

/-- A state is of the type that it loads as. -/
theorem type_of_fit (h : fit t raw = .ok st) : st.type = t := by
  obtain ⟨ms, -, hwork⟩ := exists_of_fit h
  exact (Work.of_ofMembers hwork).1

/-- **The next state is the raw one.** -/
theorem next_of_fit (ht : t.isRun) (hraw : Entries.Distinct raw) (h : fit t raw = .ok st) :
    st.next = some next ↔ Entries.get? raw "Next" = some (.str next) := by
  obtain ⟨ms, hms, hwork⟩ := exists_of_fit h
  have hnext := Record.get?_of_fit (StateType.record_strict ht) hraw hms
    (StateType.exit_fields ht).1
  change st.work.next = some next ↔ _
  rw [((Work.of_ofMembers hwork).2 ht).1, Members.text?_eq_some_iff, hnext]

/-- **A state is terminal by its type or by its raw end**, whatever next state
it names. -/
theorem isTerminal_of_fit (ht : t.isRun) (hraw : Entries.Distinct raw) (h : fit t raw = .ok st) :
    st.isTerminal = true ↔
      t = .succeed ∨ t = .fail ∨ Entries.get? raw "End" = some (.bool true) := by
  obtain ⟨ms, hms, hwork⟩ := exists_of_fit h
  have hend := Record.get?_of_fit (StateType.record_strict ht) hraw hms
    (StateType.exit_fields ht).2
  change st.work.isTerminal = true ↔ _
  rw [((Work.of_ofMembers hwork).2 ht).2, Members.flag_eq_true_iff, hend]

/-- An input that a state is given repeats no name. -/
theorem wellFormed_of_input {flow : DataFlow} {input : Json} (h : fit t raw = .ok st)
    (hflow : st.work.flow? = some flow) (hinput : flow.input = some input) :
    input.WellFormed := by
  obtain ⟨ms, hms, hwork⟩ := exists_of_fit h
  obtain ⟨ht, hmoves⟩ := Work.of_flow?_of_ofMembers hwork hflow
  obtain ⟨path, -, hflow'⟩ := Except.bind_eq_ok_iff.1 hmoves
  cases hflow'
  exact Record.wellFormed_of_get? (StateType.rule_fields ht).1 hms hinput

/-- The texts that a state follows as paths, if it computes. -/
def Follows (s : State) (path : String) : Prop :=
  ∃ flow, s.work.flow? = some flow ∧ flow.Follows path

/-- **A state follows no other texts than its raw rules.** -/
theorem hasRule_of_follows {path : String} (hraw : Entries.Distinct raw) (h : fit t raw = .ok st)
    (hpath : st.Follows path) : Members.HasRule raw path := by
  obtain ⟨flow, hflow, hfollows⟩ := hpath
  obtain ⟨ms, hms, hwork⟩ := exists_of_fit h
  obtain ⟨ht, hmoves⟩ := Work.of_flow?_of_ofMembers hwork hflow
  obtain ⟨hrun, hfields⟩ := StateType.rule_fields ht
  obtain ⟨key, hkey, hget⟩ := Members.hasRule_of_follows hmoves hfollows
  refine ⟨key, hkey, ?_⟩
  rw [← hget, Record.get?_of_fit (StateType.record_strict hrun) hraw hms (hfields key hkey)]

/-- A raw state that loads names its type, and fits the fields of that type. -/
theorem fit_of_ofMembers {declared : StateName} (h : ofMembers declared raw = .ok st) :
    Entries.get? raw "Type" = some (.str st.type.name) ∧ fit st.type raw = .ok st := by
  unfold ofMembers at h
  dsimp only at h
  split at h
  · cases h
  · rename_i t ht
    have hfit := Except.mapError_eq_ok_iff.1 h
    obtain ⟨v, hv, hname⟩ := Option.bind_eq_some_iff.1 ht
    rw [StateType.ofJson?_eq_some_iff] at hname
    rw [type_of_fit hfit]
    exact ⟨hname ▸ hv, hfit⟩

end State

/-! ## States of a definition -/

namespace Definition

variable {d : Definition} {name : String} {st : State} {fault : Fault}

/-- A state that is not declared is not found. -/
theorem state_undeclared (h : name ∉ Entries.keys d.states) :
    d.state name = .error (.stateNotFound (.str name)) := by
  rw [← Entries.get?_isSome_iff, Option.not_isSome_iff_eq_none] at h
  rw [state, h]

/-- **What a declared state loads as.** Its raw form names its type, and fits
the fields of that type. -/
theorem exists_of_state (h : d.state name = .ok st) :
    ∃ raw, Entries.get? d.states name = some raw ∧
      Entries.get? raw "Type" = some (.str st.type.name) ∧ State.fit st.type raw = .ok st := by
  unfold state at h
  split at h
  · cases h
  · rename_i raw hraw
    exact ⟨raw, hraw, State.fit_of_ofMembers h⟩

/-- A state fails to load for want of it, by its type or by its shape. -/
theorem family_of_state (h : d.state name = .error fault) :
    fault.family ∈ [.stateNotFound, .invalidType, .definition] := by
  unfold state at h
  split at h
  · cases h
    simp [Fault.family]
  · rename_i raw _
    unfold State.ofMembers at h
    dsimp only at h
    split at h
    · cases h
      simp [Fault.family]
    · rename_i t _
      obtain ⟨p, hfit, rfl⟩ := Except.mapError_eq_error_iff.1 h
      obtain ⟨m, rfl⟩ := State.misfit_of_fit hfit
      simp [Fault.family, State.faultOf]

end Definition

end Workflow
