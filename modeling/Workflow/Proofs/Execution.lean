import Workflow.Machine
import Workflow.Proofs.Path
import Workflow.Proofs.State
/-!
# Workflow — what a step leaves

Executing a state comes to one of two ends: the state fails at its work, by a
fault of its own or of the resource that it invokes, or it concludes
(`State.execute_cases`). A fault of its own is of a few families, or of a text that
it follows as a path and that has too long a number in it (`Fault.Own`). One of a
resource is handed on as it is, or as it comes out of waiting
(`Reply.throws_of_take`). Concluding looks at the state alone, never at the
data: it ends the run, leads on to the state's next one or fails
(`State.conclude_cases`). Only a Task looks at the world or changes it
(`State.execute_of_not_task`).
-/

namespace Workflow

variable {σ : Type}

/-! ## Faults of paths -/

/-- A number in one of some texts has so many digits that the text is not read as a
path. -/
inductive Fault.Overlong (texts : String → Prop) : Fault → Prop where
  | mk {path : String} {digits : Nat} (hpath : texts path)
      (hparse : Path.parse path = .error (.tooLong digits)) : Overlong texts (.longNumeral digits)

/-- That is a fault of a family of somebody else's. -/
theorem Fault.Overlong.family_eq {texts : String → Prop} {fault : Fault}
    (h : fault.Overlong texts) : fault.family = .foreign "ValueError" := by
  cases h
  rfl

/-- A fault is one of some families, or that a number in one of some texts is too
long. -/
def Fault.Own (families : List Family) (texts : String → Prop) (fault : Fault) : Prop :=
  fault.family ∈ families ∨ fault.Overlong texts

theorem Fault.Own.families {families families' : List Family} {texts : String → Prop}
    {fault : Fault} (h : fault.Own families texts) (hsub : families ⊆ families') :
    fault.Own families' texts :=
  h.imp (fun hmem => hsub hmem) id

theorem Fault.Own.texts {families : List Family} {texts texts' : String → Prop} {fault : Fault}
    (h : fault.Own families texts) (hsub : ∀ path, texts path → texts' path) :
    fault.Own families texts' := by
  rcases h with hmem | ⟨hpath, hparse⟩
  · exact .inl hmem
  · exact .inr ⟨hsub _ hpath, hparse⟩

/-- A text that is no path is a fault of that path. -/
theorem own_of_readPath {path : String} {fault : Fault} (h : readPath path = .error fault) :
    fault.Own [.invalidPath] (· = path) := by
  obtain ⟨refusal, hparse, rfl⟩ := Except.mapError_eq_error_iff.1 h
  cases refusal with
  | malformed problem => exact .inl (List.mem_singleton_self _)
  | tooLong digits => exact .inr ⟨rfl, hparse⟩

/-- Taking a part of a document fails only by its path. -/
theorem Json.own_of_select {document : Json} {selector : Selector} {fault : Fault}
    (h : document.select selector = .error fault) :
    fault.Own [.invalidPath] (selector = .part ·) := by
  cases selector with
  | whole => cases h
  | nothing => cases h
  | part path =>
    obtain hpath | ⟨p, -, hread⟩ := Except.bind_eq_error_iff.1 h
    · exact (own_of_readPath hpath).texts fun _ hsame => hsame ▸ rfl
    · cases hread

/-- Putting a result into a document fails only by the path. -/
theorem Json.own_of_merge {document result : Json} {resultPath : Option String} {fault : Fault}
    (h : document.merge resultPath result = .error fault) :
    fault.Own [.invalidPath] (resultPath = some ·) := by
  cases resultPath with
  | none => cases h
  | some path =>
    obtain hpath | ⟨p, -, hwrite⟩ := Except.bind_eq_error_iff.1 h
    · exact (own_of_readPath hpath).texts fun _ hsame => hsame ▸ rfl
    · obtain ⟨problem, -, rfl⟩ := Except.mapError_eq_error_iff.1 hwrite
      exact .inl (List.mem_singleton_self _)

namespace DataFlow

variable {flow : DataFlow} {document result : Json} {fault : Fault}

/-- A payload is missed only by the path that leads to it. -/
theorem own_of_payload (h : flow.payload document = .error fault) :
    fault.Own [.invalidPath] flow.Follows := by
  unfold payload at h
  split at h
  · cases h
  · rename_i hinput
    exact (Json.own_of_select h).texts fun _ hpath => .input hinput hpath

/-- Data is missed only by the paths that lead to it. -/
theorem own_of_output (h : flow.output document result = .error fault) :
    fault.Own [.invalidPath] flow.Follows := by
  obtain hmerge | ⟨merged, -, hselect⟩ := Except.bind_eq_error_iff.1 h
  · exact (Json.own_of_merge hmerge).texts fun _ hpath => .result hpath
  · exact (Json.own_of_select hselect).texts fun _ hpath => .output hpath

end DataFlow

/-! ## Faults of resources -/

/-- A fault that comes out of waiting as what it is. -/
def Fault.Lasting (fault : Fault) : Prop :=
  fault.awaited = fault

/-- That an iterator has nothing left does not; all else does. -/
theorem Fault.lasting_iff {fault : Fault} :
    fault.Lasting ↔ ∀ name about, fault ≠ .stated (.exhausted name) about := by
  unfold Lasting
  cases fault with
  | stated family about => cases family <;> simp [awaited]
  | _ => simp [awaited]

theorem Fault.lasting_of_family {fault : Fault} (h : ∀ name, fault.family ≠ .exhausted name) :
    fault.Lasting := by
  refine lasting_iff.2 fun name about hfault => h name ?_
  rw [hfault]
  rfl

/-- The fault that comes out where a resource raises one: that one itself, or
what waiting makes of it. -/
def Mode.handsOn : Mode → Fault → Fault
  | .sync, raised => raised
  | .async, raised => raised.awaited

/-- **It is the same fault, unless one waits for it and it says that an iterator has
nothing left.** -/
theorem Mode.handsOn_eq_self_iff {mode : Mode} {raised : Fault} : mode.handsOn raised = raised ↔
    mode = .sync ∨ ∀ name about, raised ≠ .stated (.exhausted name) about := by
  cases mode with
  | sync => simp [handsOn]
  | async =>
    rw [← Fault.lasting_iff]
    simp [handsOn, Fault.Lasting]

/-- A reply raises a fault: at once, or to one who waits. -/
inductive Reply.Throws (mode : Mode) (raised : Fault) : Reply σ → Prop
  | now {world : σ} : Reply.Throws mode raised (.now (.error raised) world)
  | later {unawaited awaited : σ} (h : mode = .async) :
      Reply.Throws mode raised (.later unawaited (.error raised) awaited)

namespace Reply

variable {mode : Mode} {raised fault : Fault} {id : String} {reply : Reply σ}

/-- What a reply raises is handed on to the one who takes it. -/
theorem Throws.take_eq (h : reply.Throws mode raised) (id : String) :
    (reply.take mode id).1 = .error (mode.handsOn raised) := by
  cases h with
  | now => cases mode <;> rfl
  | later hmode =>
    cases hmode
    rfl

/-- One who takes a fault takes one that the reply raises, or does not wait for a
reply that is deferred. -/
theorem throws_of_take (h : (reply.take mode id).1 = .error fault) :
    (∃ raised, reply.Throws mode raised ∧ fault = mode.handsOn raised) ∨
      mode = .sync ∧ fault = .deferredResource id := by
  cases mode with
  | sync =>
    cases reply with
    | now answer world =>
      obtain rfl : answer = .error fault := h
      exact .inl ⟨fault, .now, rfl⟩
    | later unawaited answer awaited => exact .inr ⟨rfl, (Except.error.inj h).symm⟩
  | async =>
    cases reply with
    | now answer world =>
      obtain ⟨raised, rfl, rfl⟩ := Except.mapError_eq_error_iff.1 h
      exact .inl ⟨raised, .now, rfl⟩
    | later unawaited answer awaited =>
      obtain ⟨raised, rfl, rfl⟩ := Except.mapError_eq_error_iff.1 h
      exact .inl ⟨raised, .later rfl, rfl⟩

end Reply

namespace Registry

variable {registry : Registry σ} {mode : Mode} {world : σ} {call : String × Json} {fault : Fault}

/-- A registered resource answers a call with a fault, in a world. -/
def Raises (registry : Registry σ) (mode : Mode) (world : σ) (call : String × Json)
    (fault : Fault) : Prop :=
  ∃ resource, registry.find? call.1 = some resource ∧
    ((resource call.2 world).take mode call.1).1 = .error fault

/-- A fault comes of one that a registered resource raises when it is called in a
world. -/
def Throws (registry : Registry σ) (mode : Mode) (world : σ) (call : String × Json)
    (fault : Fault) : Prop :=
  ∃ resource raised, registry.find? call.1 = some resource ∧
    (resource call.2 world).Throws mode raised ∧ fault = mode.handsOn raised

/-- A call is answered with a fault if the resource raises it, or defers its
reply where nobody waits. -/
theorem Raises.throws (h : registry.Raises mode world call fault) :
    registry.Throws mode world call fault ∨ mode = .sync ∧ fault = .deferredResource call.1 := by
  obtain ⟨resource, hfind, htake⟩ := h
  rcases Reply.throws_of_take htake with ⟨raised, hthrows, hfault⟩ | hdeferred
  · exact .inl ⟨resource, raised, hfind, hthrows, hfault⟩
  · exact .inr hdeferred

end Registry

/-! ## Steps that leave the world alone -/

/-- A change of the value of a step leaves everything else as it is. -/
theorem Step.map_apply {α β : Type} (f : α → β) (step : Step σ α) (world : σ) :
    (f <$> step) world =
      ⟨f <$> (step world).outcome, (step world).events, (step world).world⟩ := by
  show Step.bind step (fun x => Step.pure (f x)) world = _
  rcases h : step world with ⟨_ | x, events, world'⟩
  · simp only [Step.bind, h]
    rfl
  · simp only [Step.bind, Step.pure, Ran.after, h, List.append_nil]
    rfl

/-- A step is still: it calls nothing, and neither looks at the world nor changes
it. -/
def Step.Still {α : Type} (step : Step σ α) : Prop :=
  ∃ outcome events, events.filterMap Event.call? = [] ∧
    ∀ world, step world = ⟨outcome, events, world⟩

namespace Step.Still

variable {α β : Type} {step : Step σ α}

protected theorem ofExcept (e : Except Fault α) : (Step.ofExcept e : Step σ α).Still :=
  ⟨e, [], rfl, fun _ => rfl⟩

protected theorem emit {event : Event} (h : event.call? = none) :
    (Step.emit event : Step σ Unit).Still :=
  ⟨.ok (), [event], by simp [h], fun _ => rfl⟩

/-- Two still steps are still together. -/
protected theorem bind {f : α → Step σ β} (h : step.Still) (hf : ∀ x, (f x).Still) :
    (step >>= f).Still := by
  obtain ⟨outcome, events, hcalls, hstep⟩ := h
  cases outcome with
  | error fault =>
    refine ⟨.error fault, events, hcalls, fun world => ?_⟩
    simp [bind, Step.bind, hstep]
  | ok x =>
    obtain ⟨outcome, events', hcalls', hnext⟩ := hf x
    refine ⟨outcome, events ++ events', by simp [hcalls, hcalls'], fun world => ?_⟩
    simp [bind, Step.bind, hstep, hnext, Ran.after]

theorem calls_eq_nil (h : step.Still) (world : σ) : (step world).calls = [] := by
  obtain ⟨_, _, hcalls, hstep⟩ := h
  rw [hstep]
  exact hcalls

theorem world_eq (h : step.Still) (world : σ) : (step world).world = world := by
  obtain ⟨_, _, _, hstep⟩ := h
  rw [hstep]

/-- It leaves the same in any other world, but for the world. -/
theorem apply_eq (h : step.Still) (world world' : σ) :
    step world' = { step world with world := world' } := by
  obtain ⟨_, _, _, hstep⟩ := h
  rw [hstep, hstep]

end Step.Still

/-! ## Concluding -/

namespace State

variable {s : State} {next : String}

/-- A state leads on to another, whatever its data. -/
def LeadsTo (s : State) (next : String) : Prop :=
  s.isTerminal = false ∧ s.next = some next ∧ next ≠ ""

/-- A state that leads on moves there. -/
theorem conclude_of_leadsTo (h : s.LeadsTo next) (name : StateName) (data : Json) (world : σ) :
    s.conclude name data world =
      ⟨.ok (.step data s.type.name next), [.moved name next], world⟩ := by
  obtain ⟨ht, hn, hne⟩ := h
  have hmove : (s.conclude name data : Step σ Result) = do
      Step.emit (.moved name next)
      return .step data s.type.name next := by
    rw [conclude, if_neg (by simp [ht]), hn]
    split
    · rename_i hnone
      cases hnone
    · rename_i hempty
      exact absurd (Option.some.inj hempty) hne
    · rename_i hnext
      cases hnext
      rfl
  rw [hmove]
  rfl

/-- **Concluding looks at the state alone.** A terminal state ends the run,
one that leads on moves there, and any other fails. -/
theorem conclude_cases (s : State) (name : StateName) (data : Json) (world : σ) :
    (s.isTerminal = true ∧
      s.conclude name data world = ⟨.ok (.final data s.type.name), [.ended name], world⟩) ∨
    (∃ next, s.LeadsTo next ∧
      s.conclude name data world =
        ⟨.ok (.step data s.type.name next), [.moved name next], world⟩) ∨
    (s.isTerminal = false ∧ (∀ next, ¬ s.LeadsTo next) ∧
      s.conclude name data world = ⟨.error (.noNext name), [], world⟩) := by
  cases ht : s.isTerminal with
  | true =>
    refine .inl ⟨rfl, ?_⟩
    rw [conclude, if_pos ht]
    rfl
  | false =>
    by_cases hn : ∃ next, s.LeadsTo next
    · obtain ⟨next, hn⟩ := hn
      exact .inr (.inl ⟨next, hn, conclude_of_leadsTo hn name data world⟩)
    · refine .inr (.inr ⟨rfl, fun next h => hn ⟨next, h⟩, ?_⟩)
      rw [conclude, if_neg (by simp [ht])]
      rcases hs : s.next with _ | next
      · rfl
      · -- a name that is empty stands for none
        by_cases he : next = ""
        · subst he
          rfl
        · exact absurd ⟨next, ht, hs, he⟩ hn

/-- A state that computes either misses its data or concludes with it. -/
theorem finish_cases (s : State) (flow : DataFlow) (name : StateName) (document result : Json)
    (world : σ) :
    (∃ fault, fault.Own [.invalidPath] flow.Follows ∧
      s.finish flow name document result world = ⟨.error fault, [], world⟩) ∨
    ∃ data, s.finish flow name document result world = s.conclude name data world := by
  cases ho : flow.output document result with
  | error fault =>
    refine .inl ⟨fault, DataFlow.own_of_output ho, ?_⟩
    simp [finish, ho]
  | ok data =>
    refine .inr ⟨data, ?_⟩
    simp [finish, ho]

/-- Concluding is still. -/
theorem still_conclude (s : State) (name : StateName) (data : Json) :
    (s.conclude name data : Step σ Result).Still := by
  unfold conclude
  split
  · exact .bind (.emit rfl) fun _ => .ofExcept _
  · split
    · exact .ofExcept _
    · exact .ofExcept _
    · exact .bind (.emit rfl) fun _ => .ofExcept _

/-- So is a state that has its result. -/
theorem still_finish (s : State) (flow : DataFlow) (name : StateName) (document result : Json) :
    (s.finish flow name document result : Step σ Result).Still :=
  .bind (.ofExcept _) fun data => s.still_conclude name data

end State

/-! ## Executing -/

/-- An event of a state's own work, before it concludes. -/
def Event.isWork : Event → Bool
  | invoking _ _ | called _ _ | failing _ _ _ => true
  | reached _ | entering _ _ | ended _ | moved _ _ => false

/-- The families of the faults that a state raises at its work by itself. -/
def Family.ofWork : List Family :=
  [.invalidPath, .resourceNotFound, .unsupportedType]

namespace State

/-- **A Task that finds its resource finishes with the answer**, after the two
events of its work. -/
theorem execute_of_call {s : State} {registry : Registry σ} {mode : Mode}
    {document payload : Json} {world world' : σ} {id : String} {flow : DataFlow} {exit : Exit}
    {resource : Resource σ} {answer : Except Fault Json} (name : StateName)
    (hw : s.work = .task id flow exit) (hp : flow.payload document = .ok payload)
    (hr : registry.find? id = some resource)
    (ht : (resource payload world).take mode id = (answer, world')) :
    s.execute registry mode name document world =
      ((Step.ofExcept answer >>= fun result => s.finish flow name document result)
        world').after [.invoking name id, .called id payload] := by
  simp only [execute_eq, hw, hp, Registry.find, hr, Step.ok_bind, pure_bind, Step.emit_bind]
  cases answer <;>
    simp [bind, Step.bind, Resource.call_apply, ht, Step.ofExcept, Ran.after]

/-- A fault of the paths that a state computes by is one of its work. -/
theorem own_of_flow? {s : State} {flow : DataFlow} {fault : Fault}
    (hflow : s.work.flow? = some flow) (h : fault.Own [.invalidPath] flow.Follows) :
    fault.Own Family.ofWork s.Follows :=
  (h.texts fun _ hpath => ⟨flow, hflow, hpath⟩).families (by simp [Family.ofWork])

/-- **Executing a state either fails at its work or concludes.** A fault at
the work is one of the state's own or one that the resource raised which was
called. -/
theorem execute_cases (s : State) (registry : Registry σ) (mode : Mode) (name : StateName)
    (document : Json) (world : σ) :
    (∃ fault events world',
      s.execute registry mode name document world = ⟨.error fault, events, world'⟩ ∧
      (∀ e ∈ events, e.isWork = true) ∧
      (fault.Own Family.ofWork s.Follows ∨
        ∃ call ∈ events.filterMap Event.call?, registry.Raises mode world call fault)) ∨
    ∃ data events world',
      s.execute registry mode name document world =
        (s.conclude name data world').after events ∧
      ∀ e ∈ events, e.isWork = true := by
  cases hw : s.work with
  | task id flow exit =>
    have hflow : s.work.flow? = some flow := congrArg Work.flow? hw
    cases hp : flow.payload document with
    | error fault =>
      refine .inl ⟨fault, [], world, by simp [execute_eq, hw, hp], by simp, .inl ?_⟩
      exact own_of_flow? hflow (DataFlow.own_of_payload hp)
    | ok payload =>
      cases hr : registry.find? id with
      | none =>
        refine .inl ⟨.resourceNotFound (.str id), [], world, ?_, by simp, .inl ?_⟩
        · simp [execute_eq, hw, hp, Registry.find, hr, Step.fail]
        · exact .inl (by simp [Fault.family, Family.ofWork])
      | some resource =>
        rcases ht : (resource payload world).take mode id with ⟨answer, world'⟩
        have hexec := execute_of_call name hw hp hr ht
        cases answer with
        | error fault =>
          refine .inl ⟨fault, [.invoking name id, .called id payload], world', ?_, ?_, .inr ?_⟩
          · rw [hexec]
            simp [Ran.after]
          · simp [Event.isWork]
          · exact ⟨(id, payload), by simp [Event.call?], resource, hr, by rw [ht]⟩
        | ok result =>
          rw [Step.ok_bind] at hexec
          rcases s.finish_cases flow name document result world' with
            ⟨fault, hown, hf⟩ | ⟨data, hf⟩
          · refine .inl ⟨fault, [.invoking name id, .called id payload], world', ?_, ?_, .inl ?_⟩
            · rw [hexec, hf]
              simp [Ran.after]
            · simp [Event.isWork]
            · exact own_of_flow? hflow hown
          · exact .inr ⟨data, _, world', by rw [hexec, hf], by simp [Event.isWork]⟩
  | pass flow exit =>
    have hflow : s.work.flow? = some flow := congrArg Work.flow? hw
    cases hp : flow.payload document with
    | error fault =>
      refine .inl ⟨fault, [], world, by simp [execute_eq, hw, hp], by simp, .inl ?_⟩
      exact own_of_flow? hflow (DataFlow.own_of_payload hp)
    | ok payload =>
      have hexec : s.execute registry mode name document world =
          s.finish flow name document payload world := by
        simp [execute_eq, hw, hp]
      rcases s.finish_cases flow name document payload world with ⟨fault, hown, hf⟩ | ⟨data, hf⟩
      · refine .inl ⟨fault, [], world, by rw [hexec, hf], by simp, .inl ?_⟩
        exact own_of_flow? hflow hown
      · exact .inr ⟨data, [], world, by rw [hexec, hf]; rfl, by simp⟩
  | succeed exit =>
    exact .inr ⟨document, [], world, by simp [execute_eq, hw]; rfl, by simp⟩
  | fail error cause exit =>
    exact .inr ⟨document, [.failing name error cause], world, by simp [execute_eq, hw],
      by simp [Event.isWork]⟩
  | choice _ _ | parallel _ _ | wait _ | map _ =>
    refine .inl ⟨.unsupportedType s.type.name name, [], world, ?_, by simp, .inl ?_⟩
    · simp [execute_eq, hw]
    · exact .inl (by simp [Fault.family, Family.ofWork])

/-- **No state but a Task calls anything.** Any other is still, and does not look
at the resources. -/
theorem execute_of_not_task {s : State} (htype : s.type ≠ .task) (name : StateName)
    (document : Json) : ∃ step : Step σ Result, step.Still ∧
      ∀ registry mode, s.execute registry mode name document = step := by
  refine ⟨s.execute (.empty σ) .sync name document, ?_⟩
  simp only [execute_eq]
  cases hw : s.work with
  | task _ _ _ => exact absurd (congrArg Work.type hw) htype
  | pass flow _ =>
    exact ⟨.bind (.ofExcept _) fun _ => s.still_finish flow name document _, fun _ _ => rfl⟩
  | succeed _ => exact ⟨s.still_conclude name document, fun _ _ => rfl⟩
  | fail _ _ _ =>
    exact ⟨.bind (.emit rfl) fun _ => s.still_conclude name document, fun _ _ => rfl⟩
  | choice _ _ | parallel _ _ | wait _ | map _ => exact ⟨.ofExcept _, fun _ _ => rfl⟩

end State

end Workflow
