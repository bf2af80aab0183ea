import Workflow.Proofs.Document
import Workflow.Proofs.InStep
import Workflow.Proofs.Json.Equal
/-!
# Workflow — runs on equal documents

Results count as equal whatever the order of members in their data and however
its numbers are given. A run makes nothing of these either: states compute equal
payloads from equal documents and pass on equal data
(`Definition.keeps_equal_of_state`), so over resources that make nothing of them
two runs on equal documents go on in step, to results that count as equal or to
one fault (`Definition.run_respects_equality`).
-/

namespace Workflow

variable {σ : Type} {R : σ → σ → Prop} {mode : Mode}

namespace Json

variable {v w v' w' : Json}

namespace Equal

/-- Equal documents are read equally by the text of a path, with equal defaults. -/
theorem readAt (h : v.Equal w) (h' : v'.Equal w') (path : String) :
    Except.Rel Equal (v.readAt path v') (w.readAt path w') :=
  Except.Rel.of_bind fun p => .ok (h.read h' p)

/-- And written to equally. -/
theorem writeAt (h : v.Equal w) (h' : v'.Equal w') (path : String) :
    Except.Rel Equal (v.writeAt path v') (w.writeAt path w') :=
  Except.Rel.of_bind fun p => (h.write h' p).mapError _

theorem select (h : v.Equal w) (selector : Selector) :
    Except.Rel Equal (v.select selector) (w.select selector) := by
  cases selector with
  | whole => exact .ok h
  | nothing => exact .ok (.refl ⟨List.nodup_nil, trivial⟩)
  | part path => exact h.readAt (.refl (wellFormed_of_isLeaf rfl)) path

theorem merge (h : v.Equal w) (h' : v'.Equal w') (resultPath : Option String) :
    Except.Rel Equal (v.merge resultPath v') (w.merge resultPath w') := by
  cases resultPath with
  | none => exact .ok h
  | some path => exact h.writeAt h' path

end Equal

end Json

/-- **A state computes and passes on equal data from equal documents**, if the
input that it is given repeats no name. -/
theorem DataFlow.keeps_equal {flow : DataFlow}
    (hinput : ∀ input, flow.input = some input → input.WellFormed) : flow.Keeps Json.Equal where
  payload h := by
    unfold payload
    cases hgiven : flow.input with
    | none => exact h.select flow.inputPath
    | some input => exact .ok (.refl (hinput input hgiven))
  output h hresult := (h.merge hresult flow.resultPath).bind fun _ _ hmerged =>
    hmerged.select flow.outputPath

/-- Results with equal data that are the same otherwise count as equal. -/
theorem Result.same_of_rel {r r' : Result} (h : Result.Rel Json.Equal r r') :
    r.same r' = true := by
  have hself (v : Json) (hv : v.isLeaf) : v.same v = true := by
    rw [Json.same_of_isLeaf hv]
    exact Json.sameLeaf_refl hv
  have hnext : (Json.ofText? r'.next).isLeaf := by
    cases r'.next with
    | none => rfl
    | some next => rfl
  have hparts := And.intro (hself (.str r'.stateType) rfl)
    (And.intro (hself _ hnext) (hself (.bool r'.terminal) rfl))
  simp only [same, summary, Summary.same, h.data.same, h.stateType, h.next, h.terminal, hparts,
    Bool.and_self]

/-- The resources of a registry make nothing of how equal payloads differ: in
related worlds they answer them with equal values, or with one fault, and leave
related worlds. Worlds may be related that remember equal payloads. -/
def Registry.RespectsEqual (registry : Registry σ) (mode : Mode) (R : σ → σ → Prop) : Prop :=
  ∀ id resource, registry.find? id = some resource →
    ∀ payload payload' world world', payload.Equal payload' → R world world' →
      Except.Rel Json.Equal ((resource payload world).take mode id).1
        ((resource payload' world').take mode id).1 ∧
      R ((resource payload world).take mode id).2 ((resource payload' world').take mode id).2

/-- Such a registry answers alike under every id. -/
theorem Registry.RespectsEqual.relAt {registry : Registry σ} (h : registry.RespectsEqual mode R)
    (id : String) : registry.RelAt R Json.Equal mode registry id := by
  unfold RelAt
  cases hfind : registry.find? id with
  | none => exact .none
  | some resource => exact .some (h id resource hfind)

namespace Definition

variable {d : Definition} {name : String} {st : State} {registry : Registry σ}
  {limit : Option Int} {document document' : Json} {world world' : σ} {events : List Event}

/-- **A declared state keeps equality.** An input that it is given repeats no
name once it is loaded, whatever the raw one does. -/
theorem keeps_equal_of_state (h : d.state name = .ok st) {flow : DataFlow}
    (hflow : st.work.flow? = some flow) : flow.Keeps Json.Equal := by
  obtain ⟨raw, -, -, hfit⟩ := exists_of_state h
  exact DataFlow.keeps_equal fun input hinput => State.wellFormed_of_input hfit hflow hinput

/-- Visits to one state with equal documents leave what is equal. -/
theorem visit_rel_equal (hregistry : registry.RespectsEqual mode R) {s s' : Stop σ}
    (h : Stop.Rel R Json.Equal s s') :
    Ran.Rel R Json.Equal (Result.Rel Json.Equal) ((d.machine registry limit).visit mode s)
      ((d.machine registry limit).visit mode s') := by
  obtain ⟨n, document, world⟩ := s
  obtain ⟨n', document', world'⟩ := s'
  obtain ⟨rfl, hdocument, hworld⟩ := h
  cases hst : d.program.state n with
  | error fault =>
    have hreached : List.Forall₂ (Event.Rel Json.Equal) [.reached n] [.reached n] :=
      .cons (.same rfl) .nil
    rw [Machine.visit_of_error (s := ⟨n, document, world⟩) hst,
      Machine.visit_of_error (s := ⟨n, document', world'⟩) hst]
    exact ⟨.error fault, hreached, hworld⟩
  | ok st =>
    obtain ⟨name, -, hstate⟩ := exists_state_of_program hst
    have hentering : List.Forall₂ (Event.Rel Json.Equal) [.reached n, .entering st.type n]
        [.reached n, .entering st.type n] := .cons (.same rfl) (.cons (.same rfl) .nil)
    have hexecute := State.execute_rel (fun flow => keeps_equal_of_state hstate)
      (fun id _ _ _ => hregistry.relAt id) n hdocument world world' hworld
    rw [Machine.visit_of_ok (s := ⟨n, document, world⟩) hst,
      Machine.visit_of_ok (s := ⟨n, document', world'⟩) hst]
    exact hexecute.after hentering

/-- **A machine is in step with itself on equal documents.** -/
theorem inStep_equal (hregistry : registry.RespectsEqual mode R) :
    Machine.InStep (Ran.Rel R Json.Equal (Result.Rel Json.Equal)) (Stop.Rel R Json.Equal) mode
      (d.machine registry limit) (d.machine registry limit) where
  limit := rfl
  visit hs := visit_rel_equal hregistry hs
  onward hs := (visit_rel_equal hregistry hs).onward?
  after hs hran := hran.after (visit_rel_equal hregistry hs).events
  overrun limit hs hran := by
    rw [hs.name]
    exact hran.overrun limit _

/-- Runs on equal documents end alike, or neither ends. -/
theorem run_rel_equal (d : Definition) (hregistry : registry.RespectsEqual mode R)
    (limit : Option Int) (hdocument : document.Equal document') (hworld : R world world') :
    Option.Rel (Ran.Rel R Json.Equal (Result.Rel Json.Equal))
      ((d.machine registry limit).run mode document world)
      ((d.machine registry limit).run mode document' world') := by
  exact run_rel_of_inStep (inStep_equal hregistry) (fun _ => Iff.rfl)
    (fun _ _ => ⟨rfl, hdocument, hworld⟩) ⟨.error _, .nil, hworld⟩

/-- Whatever the one has left by some point the other has left by some point,
with equal payloads. -/
theorem exists_trace_equal (hregistry : registry.RespectsEqual mode R)
    (hdocument : document.Equal document') (hworld : R world world') :
    (d.Trace registry limit mode document world events →
      ∃ events', d.Trace registry limit mode document' world' events' ∧
        List.Forall₂ (Event.Rel Json.Equal) events events') ∧
    (d.Trace registry limit mode document' world' events →
      ∃ events', d.Trace registry limit mode document world events' ∧
        List.Forall₂ (Event.Rel Json.Equal) events' events) := by
  have hstep : Machine.InStep _ _ mode (d.machine registry limit) (d.machine registry limit) :=
    inStep_equal hregistry
  have hs (name : String) :
      Stop.Rel R Json.Equal ⟨.str name, document, world⟩ ⟨.str name, document', world'⟩ :=
    ⟨rfl, hdocument, hworld⟩
  constructor
  · intro htrace
    have htraces := exists_trace_of_inStep hstep
      (fun _ => Iff.rfl) (fun name _ => hs name) htrace
    rcases htraces with rfl | ⟨ran, ran', hran, rfl, htrace'⟩
    · exact ⟨[], .inl rfl, .nil⟩
    · exact ⟨_, htrace', hran.events⟩
  · intro htrace
    have htraces := exists_trace_of_inStep hstep.flip
      (fun _ => Iff.rfl) (fun name _ => hs name) htrace
    rcases htraces with rfl | ⟨ran', ran, hran, rfl, htrace'⟩
    · exact ⟨[], .inl rfl, .nil⟩
    · exact ⟨_, htrace', Ran.Rel.events hran⟩

/-- **Runs make nothing of how equal documents differ.** Over resources that
answer equal payloads equally, two runs of a definition on documents that count
as equal enter the same states, call the same resources with equal payloads, and
come to results that count as equal or to one fault, or neither ends; and
whatever the one has left by some point the other has left by some point, up to
equal payloads. One level down, equal documents are read equally, with equal
defaults, and stay equal when equal values are written to them, or are refused
by one fault. -/
theorem run_respects_equality (d : Definition) {registry : Registry σ} {mode : Mode}
    {R : σ → σ → Prop} (hregistry : registry.RespectsEqual mode R) (limit : Option Int)
    {document document' : Json} (hdocument : document.Equal document') {world world' : σ}
    (hworld : R world world') :
    Option.Rel (fun ran ran' => ran.entered = ran'.entered ∧
        List.Forall₂ (fun call call' => call.1 = call'.1 ∧ call.2.Equal call'.2)
          ran.calls ran'.calls ∧
        Except.Rel (fun r r' => r.same r' = true) ran.outcome ran'.outcome)
      ((d.machine registry limit).run mode document world)
      ((d.machine registry limit).run mode document' world') ∧
    (∀ events, d.Trace registry limit mode document world events →
      ∃ events', d.Trace registry limit mode document' world' events' ∧
        List.Forall₂ (Event.Rel Json.Equal) events events') ∧
    (∀ events', d.Trace registry limit mode document' world' events' →
      ∃ events, d.Trace registry limit mode document world events ∧
        List.Forall₂ (Event.Rel Json.Equal) events events') ∧
    ∀ value value' path, Json.Equal value value' →
      Except.Rel Json.Equal (document.readAt path value) (document'.readAt path value') ∧
      Except.Rel Json.Equal (document.writeAt path value) (document'.writeAt path value') := by
  refine ⟨?_, ?_, ?_, ?_⟩
  · have hrun := run_rel_equal d hregistry limit hdocument hworld
    generalize (d.machine registry limit).run mode document world = ends at hrun ⊢
    generalize (d.machine registry limit).run mode document' world' = ends' at hrun ⊢
    cases hrun with
    | none => exact .none
    | some hran =>
      have houtcome := hran.outcome.imp fun r r' _ _ hr => Result.same_of_rel hr
      exact .some ⟨Event.reached?_of_rel hran.events, Event.call?_of_rel hran.events, houtcome⟩
  · exact fun events => (exists_trace_equal hregistry hdocument hworld).1
  · exact fun events' => (exists_trace_equal hregistry hdocument hworld).2
  · exact fun value value' path hvalue =>
      ⟨hdocument.readAt hvalue path, hdocument.writeAt hvalue path⟩

/-- A resource that answers with the payload before. -/
def remembering : Registry Json where
  find? id := if id = "recall" then some fun payload last => .now (.ok last) payload else none

/-- Two Tasks that ask it for what they hand it, and an end. -/
def memoir : Definition where
  states := [
    ("Tell", [("Type", .str "Task"), ("Resource", .str "recall"), ("InputPath", .str "$.item"),
      ("ResultPath", .str "$.last"), ("Next", .str "Ask")]),
    ("Ask", [("Type", .str "Task"), ("Resource", .str "recall"), ("Input", .int 0),
      ("ResultPath", .str "$.item.told"), ("Next", .str "Done")]),
    ("Done", [("Type", .str "Succeed")])]
  startAt := some "Tell"
  comment := none
  version := none
  timeoutSeconds := none

/-- A document to tell of. -/
def told : Json :=
  .obj [("item", .obj [("a", .int 1), ("b", .arr [.bool true])]), ("last", .null)]

/-- The same in another order, with other numbers of the same value. -/
def retold : Json :=
  .obj [("last", .null), ("item", .obj [("b", .arr [.int 1]),
    ("a", .float ⟨false, 4503599627370496, -52, by decide⟩)])]

/-- The memoir makes nothing of how it is told, whatever the payload before. -/
theorem memoir_respects_equality :
    remembering.RespectsEqual .sync Json.Equal ∧ told.Equal retold ∧ Json.Equal .null .null ∧
      Option.Rel (fun ran ran' => ran.entered = ran'.entered ∧
          List.Forall₂ (fun call call' => call.1 = call'.1 ∧ call.2.Equal call'.2)
            ran.calls ran'.calls ∧
          Except.Rel (fun r r' => r.same r' = true) ran.outcome ran'.outcome)
        ((memoir.machine remembering (some 2)).run .sync told .null)
        ((memoir.machine remembering (some 2)).run .sync retold .null) := by
  have hresource : remembering.RespectsEqual .sync Json.Equal := by
    intro id resource hfind payload payload' world world' hpayload hworld
    obtain ⟨-, hresource⟩ := Option.ite_none_right_eq_some.1 hfind
    obtain rfl := Option.some.inj hresource
    exact ⟨.ok hworld, hpayload⟩
  have hpair {a b : String} (hab : a ≠ b) (v w : Json) : Entries.Distinct [(a, v), (b, w)] := by
    simpa [Entries.Distinct, Entries.keys] using hab
  have htold : told.Equal retold := {
    left := ⟨hpair (by decide) _ _,
      ⟨hpair (by decide) _ _, trivial, ⟨trivial, trivial⟩, trivial⟩, trivial, trivial⟩
    right := ⟨hpair (by decide) _ _, trivial,
      ⟨hpair (by decide) _ _, ⟨trivial, trivial⟩, trivial, trivial⟩, trivial⟩
    same := by decide +kernel }
  have hnull : Json.Equal .null .null := .refl trivial
  exact ⟨hresource, htold, hnull, (run_respects_equality memoir hresource (some 2) htold hnull).1⟩

end Definition

end Workflow
