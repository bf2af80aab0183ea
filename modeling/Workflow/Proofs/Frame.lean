import Workflow.Proofs.Course
import Workflow.Proofs.Document
/-!
# Workflow — what a run leaves alone

A state that computes puts its result at one place of the document and, unless
it names a part, passes the whole on; other states pass on the document as it
is (`State.data_of_execute`). So a place that no state on the way writes to is
read in the end as at the start (`Definition.run_keeps_place`).
-/

namespace Workflow

variable {σ : Type}

/-! ## States that leave a place alone -/

/-- A state that moves data so leaves a place alone: it passes on the whole
document, and puts its result nowhere or where the way to the place does not
lead. -/
structure DataFlow.Spares (flow : DataFlow) (q : Path) : Prop where
  /-- No part is named that is passed on. -/
  whole : flow.outputPath = .whole
  /-- The path of the result, if there is one, parts from the way to the place. -/
  diverges : ∀ path p, flow.resultPath = some path → Path.parse path = .ok p → p.Diverges q

/-- A state leaves a place alone if it computes nothing, or moves data so. -/
def State.Spares (s : State) (q : Path) : Prop :=
  ∀ flow, s.work.flow? = some flow → flow.Spares q

/-- Data that is passed on reads as the document did at a place that is left
alone. -/
theorem DataFlow.at?_output {flow : DataFlow} {q : Path} {document result data : Json}
    (hq : flow.Spares q) (h : flow.output document result = .ok data) :
    data.at? q = document.at? q := by
  -- the whole document is passed on, so the data is the merged document
  obtain ⟨merged, hmerge, hselect⟩ := Except.bind_eq_ok_iff.1 h
  rw [hq.whole] at hselect
  cases hselect
  cases hpath : flow.resultPath with
  | none =>
    rw [hpath] at hmerge
    rw [Except.ok.inj hmerge]
  | some path =>
    rw [hpath] at hmerge
    obtain ⟨p, hp, hw⟩ := Json.exists_write_of_writeAt hmerge
    exact Json.at?_write_of_diverges hw (hq.diverges path p hpath hp)

namespace State

variable {s : State} {registry : Registry σ} {mode : Mode} {name : StateName}
  {document result data : Json} {world : σ} {r : Result}

/-- A state concludes with the data that it is given. -/
theorem data_of_conclude (h : (s.conclude name data world).outcome = .ok r) : r.data = data := by
  rcases s.conclude_cases name data world with ⟨-, hc⟩ | ⟨next, -, hc⟩ | ⟨-, -, hc⟩ <;>
    rw [hc] at h <;> cases h
  · rfl
  · rfl

/-- One that has a result concludes with what is passed on of it. -/
theorem data_of_finish {flow : DataFlow}
    (h : (s.finish flow name document result world).outcome = .ok r) :
    flow.output document result = .ok r.data := by
  cases ho : flow.output document result with
  | error fault => simp [finish, ho] at h
  | ok data =>
    simp only [finish, ho, Step.ok_bind] at h
    rw [data_of_conclude h]

/-- **The data of a state that runs.** If it computes, that is what is passed on
of its result; otherwise it is the document. -/
theorem data_of_execute (h : (s.execute registry mode name document world).outcome = .ok r) :
    (∃ flow result, s.work.flow? = some flow ∧ flow.output document result = .ok r.data) ∨
      s.work.flow? = none ∧ r.data = document := by
  cases hw : s.work with
  | task id flow exit =>
    left
    cases hp : flow.payload document with
    | error fault => simp [execute_eq, hw, hp] at h
    | ok payload =>
      cases hr : registry.find? id with
      | none => simp [execute_eq, hw, hp, Registry.find, hr] at h
      | some resource =>
        rcases ht : (resource payload world).take mode id with ⟨answer, world'⟩
        rw [execute_of_call name hw hp hr ht] at h
        cases answer with
        | error fault => cases h
        | ok result =>
          rw [Step.ok_bind] at h
          exact ⟨flow, result, rfl, data_of_finish h⟩
  | pass flow exit =>
    left
    cases hp : flow.payload document with
    | error fault => simp [execute_eq, hw, hp] at h
    | ok payload =>
      simp only [execute_eq, hw, hp, Step.ok_bind] at h
      exact ⟨flow, payload, rfl, data_of_finish h⟩
  | succeed exit =>
    simp only [execute_eq, hw] at h
    exact .inr ⟨rfl, data_of_conclude h⟩
  | fail error cause exit =>
    simp only [execute_eq, hw, Step.emit_bind] at h
    exact .inr ⟨rfl, data_of_conclude h⟩
  | choice _ _ | parallel _ _ | wait _ | map _ => simp [execute_eq, hw] at h

end State

namespace Machine

variable {m : Machine σ} {mode : Mode} {s s' last : Stop σ} {passed : List (Stop σ)} {r : Result}
  {q : Path}

/-- The state that a visit loads leaves a place alone. -/
def Spares (m : Machine σ) (q : Path) (s : Stop σ) : Prop :=
  ∀ st, m.program.state s.name = .ok st → st.Spares q

/-- **A visit keeps a place that its state leaves alone.** -/
theorem at?_of_visit (hq : m.Spares q s) (h : (m.visit mode s).outcome = .ok r) :
    r.data.at? q = s.document.at? q := by
  cases hst : m.program.state s.name with
  | error fault =>
    rw [visit_of_error hst] at h
    cases h
  | ok st =>
    rw [visit_of_ok hst] at h
    rcases State.data_of_execute h with ⟨flow, result, hflow, hout⟩ | ⟨-, hdata⟩
    · exact DataFlow.at?_output (hq st hst flow hflow) hout
    · rw [hdata]

/-- So does a route. -/
theorem at?_of_route (h : m.Route mode s passed last) (hq : ∀ t ∈ passed, m.Spares q t) :
    last.document.at? q = s.document.at? q := by
  induction h with
  | here s => rfl
  | @on s s' last passed hleads _ ih =>
    obtain ⟨hs, hpassed⟩ := List.forall_mem_cons.1 hq
    obtain ⟨r, next, hr, -, -, rfl⟩ := hleads
    exact (ih hpassed).trans (at?_of_visit hs hr)

end Machine

/-! ## Whole runs -/

namespace Definition

variable {d : Definition} {registry : Registry σ} {limit : Option Int} {mode : Mode}
  {document : Json} {world : σ} {ran : Ran σ Result} {r : Result} {path : String} {q : Path}

/-- **A run keeps every place that the states which it enters leave alone**,
whatever the resources answer and however many states there are: the place
reads in the result as in the document, with any default. -/
theorem run_keeps_place (hpath : Path.parse path = .ok q)
    (h : (d.machine registry limit).run mode document world = some ran)
    (hr : ran.outcome = .ok r)
    (hq : ∀ name st, .str name ∈ ran.entered → d.state name = .ok st → st.Spares q) :
    ∀ default, ∃ v, r.data.readAt path default = .ok v ∧ document.readAt path default = .ok v := by
  obtain ⟨name, passed, last', names, last, st, data, -, hroute, -, -, -, -, rfl, hnames⟩ :=
    final_of_ok h hr
  have hspares : ∀ t ∈ passed ++ [last'], (d.machine registry limit).Spares q t := by
    intro t ht st hst
    have hentered : t.name ∈ (passed ++ [last']).map Stop.name := List.mem_map_of_mem ht
    obtain ⟨n, -, hn⟩ := List.mem_map.1 (hnames ▸ hentered)
    rw [← hn] at hst
    refine hq n st ?_ hst
    rw [Machine.entered_along, hn]
    exact hentered
  have hplace : r.data.at? q = document.at? q := by
    rw [Machine.at?_of_visit (hspares last' (by simp)) hr]
    exact Machine.at?_of_route hroute fun t ht => hspares t (List.mem_append_left _ ht)
  intro default
  have hread : r.data.read q default = document.read q default := by
    rw [Json.read, Json.read, hplace]
  exact ⟨document.read q default, hread ▸ Json.readAt_of_parse hpath r.data default,
    Json.readAt_of_parse hpath document default⟩

/-- What a run of the relay leaves when seven invocations are past, on a
document that keeps something. -/
def keptRelayed : Ran Nat Result :=
  { relayed with
    outcome := .ok (.final (.obj [("kept", .arr [.str "a"]), ("n", .int 8)]) "Succeed")
    events := relayed.events.map fun
      | .called id _ => .called id (.obj [("kept", .arr [.str "a"])])
      | e => e }

/-- The relay leaves alone what it does not count with. -/
theorem relay_spares_kept {name : String} {st : State} (h : .str name ∈ keptRelayed.entered)
    (hst : relay.state name = .ok st) : st.Spares [.key "kept", .index 0] := by
  have hn : Path.parse "$.n" = .ok [.key "n"] := by
    with_unfolding_all rfl
  have hentered : keptRelayed.entered = [.str "Draw", .str "Hold", .str "Done"] := rfl
  rw [hentered] at h
  simp only [List.mem_cons, Json.str.injEq, List.not_mem_nil, or_false] at h
  intro flow hflow
  rcases h with rfl | rfl | rfl
  · cases hst
    cases hflow
    refine ⟨rfl, fun path p hpath hp => ?_⟩
    cases hpath
    cases hn.symm.trans hp
    decide
  · cases hst
    cases hflow
    refine ⟨rfl, fun path p hpath => ?_⟩
    cases hpath
  · cases hst
    cases hflow

/-- The relay counts, and keeps what it is given. -/
theorem relay_keeps_place :
    (relay.machine ticking none).run .sync (.obj [("kept", .arr [.str "a"])]) 7 =
        some keptRelayed ∧
      ∃ r, keptRelayed.outcome = .ok r ∧
        (∀ name st, .str name ∈ keptRelayed.entered → relay.state name = .ok st →
          st.Spares [.key "kept", .index 0]) ∧
        ∀ default, ∃ v, r.data.readAt "$.kept[0]" default = .ok v ∧
          (Json.obj [("kept", .arr [.str "a"])]).readAt "$.kept[0]" default = .ok v := by
  have hname : relay.StartsAt "Draw" := ⟨rfl, by decide, by decide⟩
  have hpath : Path.parse "$.kept[0]" = .ok [.key "kept", .index 0] := by
    with_unfolding_all rfl
  have h : (relay.machine ticking none).run .sync (.obj [("kept", .arr [.str "a"])]) 7 =
      some keptRelayed := by
    rw [run_of_startsAt hname, Machine.walk_eq_some_iff]
    refine ⟨[⟨.str "Draw", .obj [("kept", .arr [.str "a"])], 7⟩,
      ⟨.str "Hold", .obj [("kept", .arr [.str "a"]), ("n", .int 8)], 8⟩],
      ⟨.str "Done", .obj [("kept", .arr [.str "a"]), ("n", .int 8)], 8⟩,
      .on ?_ (.on ?_ (.here _)), by decide, .inl ⟨?_, ?_⟩⟩
    · rw [← Machine.onward?_eq_some_iff]
      with_unfolding_all rfl
    · rw [← Machine.onward?_eq_some_iff]
      with_unfolding_all rfl
    · with_unfolding_all rfl
    · with_unfolding_all rfl
  exact ⟨h, _, rfl, fun _ _ => relay_spares_kept,
    run_keeps_place hpath h rfl fun _ _ => relay_spares_kept⟩

end Definition

end Workflow
