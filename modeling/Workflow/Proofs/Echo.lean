import Workflow.Proofs.State
import Workflow.Proofs.Visit
/-!
# Workflow — a Pass as a Task

A resource that answers a payload with the payload is an echo. A raw Pass with
the type of a Task and an echo for its resource loads as the Task that moves data
the same way and leads to the same place (`State.ofMembers_asTask`). Executing
that comes to the same, but for the type in the result and for the call
(`State.pass_as_task`).
-/

namespace Workflow

variable {σ : Type}

/-! ## Loading -/

/-- The members of a raw state, with those of a Task in place of its type. -/
def Members.asTask (raw : Members) (id : String) : Members :=
  Entries.insert (Entries.insert raw "Type" (.str "Task")) "Resource" (.str id)

/-- A Task has the fields of a Pass, and its resource. -/
theorem StateType.field_task {key : String} (h : key ≠ "Resource") :
    task.record.fields.get? key = pass.record.fields.get? key := by
  simp [record, ownFields, Entries.get?, Ne.symm h]

/-- The work of fields that a Pass has is that of a Task with a resource. -/
theorem Work.ofMembers_asTask {ms : Members} {flow : DataFlow} {exit : Exit} (id : String)
    (h : ofMembers ms .pass = .ok (.pass flow exit)) :
    ofMembers (ms.asTask id) .task = .ok (.task id flow exit) := by
  obtain ⟨flow', hflow', hwork⟩ := Except.bind_eq_ok_iff.1 h
  cases hwork
  have hresource : Members.requireText (ms.asTask id) "Resource" = .ok id := by
    rw [Members.requireText, Members.text?, Members.asTask, Entries.get?_insert, if_pos rfl]
    rfl
  have hflow : Members.flow (ms.asTask id) = .ok flow := by
    rw [Members.asTask, Members.flow_insert rfl, Members.flow_insert rfl, hflow']
  have hexit : Members.exit (ms.asTask id) = Members.exit ms := by
    rw [Members.asTask, Members.exit_insert rfl, Members.exit_insert rfl]
  simp only [ofMembers, hresource, hflow, hexit]
  rfl

namespace State

variable {raw : Members} {s : State} {declared : StateName} {id : String}

/-- The type of a Task and a resource are put into the record of a Pass. -/
theorem fit_asTask {ms : Members} (hraw : Entries.Distinct raw)
    (htype : Entries.get? raw "Type" = some (.str "Pass"))
    (h : StateType.pass.record.fit (.obj (Json.Draft.ofMembers raw)) = .ok ms) :
    StateType.task.record.fit (.obj (Json.Draft.ofMembers (raw.asTask id))) =
      .ok (ms.asTask id) := by
  have hno (key : String) (hkey : key ∈ Entries.keys raw) : key ≠ "Resource" := by
    rintro rfl
    cases Record.isSome_field_of_fit rfl h hkey
  have htask : StateType.task.record.fit (.obj (Json.Draft.ofMembers raw)) = .ok ms := by
    rw [← h]
    exact Record.fit_congr rfl fun key hkey => StateType.field_task (hno key hkey)
  have htyped (v : Json) (hv : Entries.get? raw "Type" = some v) :
      Shape.text.fit (.ofJson v) = .ok v := by
    rw [← Option.some.inj (htype.symm.trans hv)]
    rfl
  have hresource (v : Json)
      (hv : Entries.get? (Entries.insert raw "Type" (.str "Task")) "Resource" = some v) :
      Shape.text.fit (.ofJson v) = .ok v := by
    rw [Entries.get?_insert, if_neg (by decide)] at hv
    have hmem := (Entries.get?_isSome_iff raw "Resource").1 (by rw [hv]; rfl)
    exact absurd rfl (hno _ hmem)
  rw [Members.asTask, Record.fit_insert rfl (Entries.distinct_insert hraw _ _) rfl rfl hresource,
    Record.fit_insert rfl hraw rfl rfl htyped, htask]
  rfl

/-- **A raw Pass as a Task loads as the Task** with the same remark, that moves data
the same way and leads to the same place. -/
theorem ofMembers_asTask (hraw : Entries.Distinct raw) (hload : ofMembers declared raw = .ok s)
    (htype : s.type = .pass) (id : String) : ∃ flow exit, s.work = .pass flow exit ∧
      ofMembers declared (raw.asTask id) = .ok ⟨s.comment, .task id flow exit⟩ := by
  obtain ⟨hname, hfit⟩ := fit_of_ofMembers hload
  rw [htype] at hname hfit
  obtain ⟨ms, hms, hrest⟩ := Except.bind_eq_ok_iff.1 hfit
  obtain ⟨work, hwork, hs⟩ := Except.bind_eq_ok_iff.1 hrest
  cases hs
  cases work with
  | pass flow exit =>
    refine ⟨flow, exit, rfl, ?_⟩
    have htask : Entries.get? (raw.asTask id) "Type" = some (.str "Task") := by
      rw [Members.asTask, Entries.get?_insert, if_neg (by decide), Entries.get?_insert, if_pos rfl]
    have hcomment : Members.text? (ms.asTask id) "Comment" = Members.text? ms "Comment" := by
      rw [Members.text?, Members.asTask, Entries.get?_insert, if_neg (by decide),
        Entries.get?_insert, if_neg (by decide)]
      rfl
    have hfit : fit .task (raw.asTask id) =
        .ok ⟨Members.text? ms "Comment", .task id flow exit⟩ := by
      rw [fit, fit_asTask hraw hname hms, ← hcomment]
      show (do
        let work ← Work.ofMembers (ms.asTask id) .task
        return (⟨Members.text? (ms.asTask id) "Comment", work⟩ : State)) = _
      rw [Work.ofMembers_asTask id hwork]
      rfl
    simp only [ofMembers, htask, Option.bind_some]
    show (fit .task (raw.asTask id)).mapError _ = _
    rw [hfit]
    rfl
  | _ => cases htype

end State

/-! ## Executing -/

/-- The resource under an id answers every payload with the payload, to one who
takes replies that way. -/
def Registry.Echoes (registry : Registry σ) (mode : Mode) (id : String) : Prop :=
  ∃ resource, registry.find? id = some resource ∧
    ∀ payload world, ((resource payload world).take mode id).1 = .ok payload

/-- The result, as a Task has it. -/
def Result.asTask (r : Result) : Result :=
  { r with stateType := "Task" }

namespace State

variable {comment : Option String} {id : String} {flow : DataFlow} {exit : Exit}

/-- Only the type in the result tells how a Task concludes from how a Pass does. -/
theorem conclude_asTask (name : StateName) (data : Json) :
    (⟨comment, .task id flow exit⟩ : State).conclude name data =
      (Result.asTask <$> (⟨comment, .pass flow exit⟩ : State).conclude name data :
        Step σ Result) := by
  obtain ⟨next, ends⟩ := exit
  cases ends with
  | true => rfl
  | false =>
    cases next with
    | none => rfl
    | some next =>
      -- a name that is empty stands for none
      by_cases hempty : next = ""
      · subst hempty
        rfl
      · funext world
        rw [conclude_of_leadsTo ⟨rfl, rfl, hempty⟩]
        show _ = (Step.bind ((⟨comment, .pass flow ⟨some next, false⟩⟩ : State).conclude name data)
          fun r => Step.pure r.asTask) world
        rw [Step.bind, conclude_of_leadsTo ⟨rfl, rfl, hempty⟩]
        rfl

/-- Nor does anything else after the result. -/
theorem finish_asTask (name : StateName) (document result : Json) :
    (⟨comment, .task id flow exit⟩ : State).finish flow name document result =
      (Result.asTask <$> (⟨comment, .pass flow exit⟩ : State).finish flow name document result :
        Step σ Result) := by
  simp only [finish, conclude_asTask, map_bind]

end State

/-- What a Task leaves that has an echo for its resource, next to what a Pass
leaves that takes the same, if it can take it. -/
structure Ran.Echoed (name : StateName) (id : String) (payload : Except Fault Json)
    (pass task : Ran σ Result) : Prop where
  /-- One fault, or results that are the same but for the type. -/
  outcome : task.outcome = Result.asTask <$> pass.outcome
  /-- The type of the other result. -/
  type : ∀ r, pass.outcome = .ok r → r.stateType = "Pass"
  /-- The Pass calls nothing. -/
  calls : pass.calls = []
  /-- The Task calls its resource with what it takes, and the rest is the same. -/
  called : ∀ input, payload = .ok input →
    task.events = .invoking name id :: .called id input :: pass.events
  /-- A Task that takes nothing comes to the same fault at once. -/
  missed : ∀ fault, payload = .error fault → task = pass

namespace State

variable {comment : Option String} {id : String} {flow : DataFlow} {exit : Exit}
  {registry : Registry σ} {mode : Mode}

/-- **A Task whose resource is an echo does what the Pass does**, and one call. -/
theorem execute_echo (hecho : registry.Echoes mode id) (name : StateName) (document : Json)
    (world : σ) :
    Ran.Echoed name id (flow.payload document)
      ((⟨comment, .pass flow exit⟩ : State).execute registry mode name document world)
      ((⟨comment, .task id flow exit⟩ : State).execute registry mode name document world) := by
  obtain ⟨resource, hfind, hreply⟩ := hecho
  have hstill : ((⟨comment, .pass flow exit⟩ : State).execute registry mode name document :
      Step σ Result).Still := by
    rw [execute_eq]
    exact .bind (.ofExcept _) fun input => still_finish _ flow name document input
  have htype (r : Result) (hr : ((⟨comment, .pass flow exit⟩ : State).execute registry mode name
      document world).outcome = .ok r) : r.stateType = "Pass" := by
    obtain ⟨data, ⟨-, rfl, -⟩ | ⟨next, -, rfl, -⟩⟩ := result_of_execute hr
    · rfl
    · rfl
  cases hpayload : flow.payload document with
  | error fault =>
    have hmissed (work : Work) (hwork : work = .pass flow exit ∨ work = .task id flow exit) :
        (⟨comment, work⟩ : State).execute registry mode name document world =
          ⟨.error fault, [], world⟩ := by
      rcases hwork with rfl | rfl <;> simp [execute_eq, hpayload]
    rw [hmissed _ (.inl rfl), hmissed _ (.inr rfl)]
    refine ⟨rfl, fun r hr => ?_, rfl, fun input hinput => ?_, fun _ _ => rfl⟩
    · cases hr
    · cases hinput
  | ok input =>
    have hfinish : ((⟨comment, .pass flow exit⟩ : State).execute registry mode name document :
        Step σ Result) = (⟨comment, .pass flow exit⟩ : State).finish flow name document input := by
      simp only [execute_eq, hpayload]
      rfl
    have hanswer : (resource input world).take mode id =
        (.ok input, ((resource input world).take mode id).2) :=
      Prod.ext (hreply input world) rfl
    have htask := execute_of_call (s := ⟨comment, .task id flow exit⟩) name rfl hpayload hfind
      hanswer
    -- what the resource makes of the world does not matter from here on
    rw [Step.ok_bind, finish_asTask, ← hfinish, Step.map_apply, hstill.apply_eq world] at htask
    rw [htask]
    refine ⟨rfl, htype, hstill.calls_eq_nil world, fun _ hinput => ?_, fun _ hfault => ?_⟩
    · cases hinput
      rfl
    · cases hfault

/-- **A Pass is a Task whose resource is an echo.** A raw Pass that loads does so as a
Task too. Executing the Pass and executing the Task, in one place over one document,
comes to the same result but for the type, or to the same fault. The Task makes
one call more, if it takes anything. -/
theorem pass_as_task {raw : Members} {declared : StateName} {s : State}
    (hraw : Entries.Distinct raw) (hload : ofMembers declared raw = .ok s)
    (htype : s.type = .pass) (hecho : registry.Echoes mode id) :
    ∃ flow exit task, ofMembers declared (raw.asTask id) = .ok task ∧
      s = ⟨s.comment, .pass flow exit⟩ ∧ task = ⟨s.comment, .task id flow exit⟩ ∧
      ∀ name document world, Ran.Echoed name id (flow.payload document)
        (s.execute registry mode name document world)
        (task.execute registry mode name document world) := by
  obtain ⟨flow, exit, hwork, htask⟩ := ofMembers_asTask hraw hload htype id
  obtain ⟨comment, work⟩ := s
  obtain rfl : work = .pass flow exit := hwork
  exact ⟨flow, exit, _, htask, rfl, rfl, fun name document world =>
    execute_echo hecho name document world⟩

/-- A Pass that is given an input and puts it into its document, as a Task whose
resource counts its calls. -/
theorem stamp_as_task :
    let raw : Members := [("Type", .str "Pass"), ("Input", .str "seen"),
      ("ResultPath", .str "$.stamp"), ("Next", .str "File")]
    let flow : DataFlow := ⟨some (.str "seen"), .whole, some "$.stamp", .whole⟩
    let registry : Registry Nat := ⟨fun _ => some fun payload n => .now (.ok payload) (n + 1)⟩
    Entries.Distinct raw ∧
    ofMembers (.str "Stamp") raw = .ok ⟨none, .pass flow ⟨some "File", false⟩⟩ ∧
    registry.Echoes .sync "echo" ∧
    ofMembers (.str "Stamp") (raw.asTask "echo") =
      .ok ⟨none, .task "echo" flow ⟨some "File", false⟩⟩ ∧
    Ran.Echoed (.str "Stamp") "echo" (.ok (.str "seen"))
      ((⟨none, .pass flow ⟨some "File", false⟩⟩ : State).execute registry .sync (.str "Stamp")
        (.obj []) 0)
      ((⟨none, .task "echo" flow ⟨some "File", false⟩⟩ : State).execute registry .sync
        (.str "Stamp") (.obj []) 0) := by
  intro raw flow registry
  have hraw : Entries.Distinct raw := by
    simp [raw, Entries.Distinct, Entries.keys]
  have hload : ofMembers (.str "Stamp") raw = .ok ⟨none, .pass flow ⟨some "File", false⟩⟩ := rfl
  have hecho : registry.Echoes .sync "echo" := ⟨_, rfl, fun _ _ => rfl⟩
  obtain ⟨flow', exit', task, htask, hs, rfl, hechoed⟩ := pass_as_task hraw hload rfl hecho
  cases hs
  exact ⟨hraw, hload, hecho, htask, hechoed (.str "Stamp") (.obj []) 0⟩

end State

end Workflow
