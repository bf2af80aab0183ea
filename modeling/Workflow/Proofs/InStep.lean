import Workflow.Proofs.Trace
/-!
# Workflow — machines in step

Two runs are compared step by step: a relation on data holds of what the one
hands on and what the other does, and a relation on worlds is kept by every
reply. Steps that are put together from related steps are related
(`Step.Rel.bind`), and so is executing one state on related documents
(`State.execute_rel`). Two machines are in step if their visits at related
stops leave what is related and lead to related stops; `Machine.InStep` asks
this of one visit, `Machine.InStep.walk_rel` gives it of a run.
-/

namespace Workflow

variable {σ τ α α' β β' : Type} {R : σ → τ → Prop} {D : Json → Json → Prop} {A : α → α' → Prop}
  {B : β → β' → Prop} {mode : Mode}

/-! ## What is left, but for data and worlds -/

/-- Two events are the same, but for payloads, which are related. -/
inductive Event.Rel (D : Json → Json → Prop) : Event → Event → Prop
  | called {id : String} {payload payload' : Json} (h : D payload payload') :
      Event.Rel D (.called id payload) (.called id payload')
  | same {event : Event} (h : event.call? = none) : Event.Rel D event event

/-- Two results are the same, but for their data, which is related. -/
structure Result.Rel (D : Json → Json → Prop) (r r' : Result) : Prop where
  /-- The data is related. -/
  data : D r.data r'.data
  /-- The types are equal. -/
  stateType : r.stateType = r'.stateType
  /-- So are the next states. -/
  next : r.next = r'.next
  /-- Both end the run or neither does. -/
  terminal : r.terminal = r'.terminal

/-- What is left is the same, but for values, payloads and worlds, which are
related. -/
structure Ran.Rel (R : σ → τ → Prop) (D : Json → Json → Prop) (A : α → α' → Prop)
    (ran : Ran σ α) (ran' : Ran τ α') : Prop where
  /-- The outcomes are related values or one fault. -/
  outcome : Except.Rel A ran.outcome ran'.outcome
  /-- The same happened, but for payloads. -/
  events : List.Forall₂ (Event.Rel D) ran.events ran'.events
  /-- The worlds are related. -/
  world : R ran.world ran'.world

/-- Two runs stand before one state, with related documents in related worlds. -/
structure Stop.Rel (R : σ → τ → Prop) (D : Json → Json → Prop) (s : Stop σ) (s' : Stop τ) :
    Prop where
  /-- The states are one. -/
  name : s.name = s'.name
  /-- The documents are related. -/
  document : D s.document s'.document
  /-- So are the worlds. -/
  world : R s.world s'.world

/-- Two registries answer alike under an id: neither has a resource there, or
theirs answer related payloads in related worlds with related values, or with
one fault, and leave related worlds. -/
def Registry.RelAt (R : σ → τ → Prop) (D : Json → Json → Prop) (mode : Mode)
    (registry : Registry σ) (registry' : Registry τ) (id : String) : Prop :=
  Option.Rel (fun resource resource' => ∀ payload payload' world world', D payload payload' →
    R world world' →
      Except.Rel D ((resource payload world).take mode id).1
        ((resource' payload' world').take mode id).1 ∧
      R ((resource payload world).take mode id).2 ((resource' payload' world').take mode id).2)
    (registry.find? id) (registry'.find? id)

/-- Events that are the same but for payloads reach the same states. -/
theorem Event.reached?_of_rel {events events' : List Event}
    (h : List.Forall₂ (Event.Rel D) events events') :
    events.filterMap Event.reached? = events'.filterMap Event.reached? := by
  induction h with
  | nil => rfl
  | cons hevent _ ih =>
    cases hevent with
    | called _ => exact ih
    | same _ => simp only [List.filterMap_cons, ih]

/-- And their calls are of the same resources, with related payloads. -/
theorem Event.call?_of_rel {events events' : List Event}
    (h : List.Forall₂ (Event.Rel D) events events') :
    List.Forall₂ (fun call call' => call.1 = call'.1 ∧ D call.2 call'.2)
      (events.filterMap Event.call?) (events'.filterMap Event.call?) := by
  induction h with
  | nil => exact .nil
  | cons hevent _ ih =>
    cases hevent with
    | called hpayload => exact .cons ⟨rfl, hpayload⟩ ih
    | same hnone =>
      rw [List.filterMap_cons_none hnone, List.filterMap_cons_none hnone]
      exact ih

namespace Ran.Rel

/-- Related events before both change nothing. -/
theorem after {ran : Ran σ α} {ran' : Ran τ α'} {events events' : List Event}
    (h : Ran.Rel R D A ran ran') (hevents : List.Forall₂ (Event.Rel D) events events') :
    Ran.Rel R D A (ran.after events) (ran'.after events') :=
  ⟨h.outcome, List.rel_append hevents h.events, h.world⟩

/-- Nor does an overrun of both. -/
theorem overrun {ran : Ran σ Result} {ran' : Ran τ Result} (h : Ran.Rel R D (Result.Rel D) ran ran')
    (limit : Int) (last : StateName) :
    Ran.Rel R D (Result.Rel D) (ran.overrun limit last) (ran'.overrun limit last) :=
  ⟨.error _, h.events, h.world⟩

/-- Related runs go on from related stops, or both end. -/
theorem onward? {ran : Ran σ Result} {ran' : Ran τ Result}
    (h : Ran.Rel R D (Result.Rel D) ran ran') :
    Option.Rel (Stop.Rel R D) ran.onward? ran'.onward? := by
  have houtcome := h.outcome
  unfold Ran.onward?
  generalize ran.outcome = outcome at houtcome ⊢
  generalize ran'.outcome = outcome' at houtcome ⊢
  cases houtcome with
  | error fault => exact .none
  | @ok r r' hr =>
    have hsuccessor : r.successor = r'.successor := by
      rw [Result.successor, Result.successor, hr.terminal, hr.next]
    simp only [hsuccessor]
    cases r'.successor with
    | none => exact .none
    | some next => exact .some ⟨rfl, hr.data, h.world⟩

end Ran.Rel

/-! ## Steps -/

/-- Two steps leave what is related in worlds that are. -/
def Step.Rel (R : σ → τ → Prop) (D : Json → Json → Prop) (A : α → α' → Prop) (s : Step σ α)
    (s' : Step τ α') : Prop :=
  ∀ world world', R world world' → Ran.Rel R D A (s world) (s' world')

namespace Step.Rel

/-- Related values are left, or one fault. -/
theorem ofExcept {e : Except Fault α} {e' : Except Fault α'} (h : Except.Rel A e e') :
    Step.Rel R D A (Step.ofExcept e) (Step.ofExcept e') :=
  fun _ _ hworld => ⟨h, .nil, hworld⟩

/-- An event that is no call leaves itself. -/
theorem emit {event : Event} (h : event.call? = none) :
    Step.Rel R D (· = ·) (Step.emit event) (Step.emit event) :=
  fun _ _ hworld => ⟨.ok rfl, .cons (.same h) .nil, hworld⟩

/-- **Steps in a row are related if each is.** -/
theorem bind {s : Step σ α} {s' : Step τ α'} {f : α → Step σ β} {f' : α' → Step τ β'}
    (h : Step.Rel R D A s s') (hf : ∀ a a', A a a' → Step.Rel R D B (f a) (f' a')) :
    Step.Rel R D B (s >>= f) (s' >>= f') := by
  intro world world' hworld
  obtain ⟨houtcome, hevents, hleft⟩ := h world world' hworld
  rcases hs : s world with ⟨outcome, events, left⟩
  rcases hs' : s' world' with ⟨outcome', events', left'⟩
  rw [hs, hs'] at houtcome hevents hleft
  simp only [Bind.bind, Step.bind, hs, hs']
  cases houtcome with
  | error fault => exact ⟨.error fault, hevents, hleft⟩
  | ok ha => exact (hf _ _ ha left left' hleft).after hevents

end Step.Rel

/-! ## Executing a state -/

/-- A state that moves data so computes related payloads from related documents,
and passes on related data from related results. -/
structure DataFlow.Keeps (D : Json → Json → Prop) (flow : DataFlow) : Prop where
  /-- The payloads are related, or fail to be computed for one reason. -/
  payload : ∀ {document document'}, D document document' →
    Except.Rel D (flow.payload document) (flow.payload document')
  /-- So is what is passed on. -/
  output : ∀ {document document' result result'}, D document document' → D result result' →
    Except.Rel D (flow.output document result) (flow.output document' result')

namespace State

variable {registry : Registry σ} {registry' : Registry τ} {document document' result result' : Json}

/-- Concluding looks at no data. -/
theorem conclude_rel (s : State) (name : StateName) (h : D document document') :
    Step.Rel R D (Result.Rel D) (s.conclude name document) (s.conclude name document') := by
  have hleft (r r' : Result) (hr : Result.Rel D r r') :
      Step.Rel R D (Result.Rel D) (pure r : Step σ Result) (pure r') :=
    fun _ _ hworld => ⟨.ok hr, .nil, hworld⟩
  -- whether it ends the run and where it leads is settled by the state, for both
  unfold conclude
  split
  · exact (Step.Rel.emit rfl).bind fun _ _ _ => hleft _ _ ⟨h, rfl, rfl, rfl⟩
  · split
    · exact .ofExcept (.error _)
    · exact .ofExcept (.error _)
    · exact (Step.Rel.emit rfl).bind fun _ _ _ => hleft _ _ ⟨h, rfl, rfl, rfl⟩

/-- Finishing passes related data on. -/
theorem finish_rel {flow : DataFlow} (s : State) (hflow : flow.Keeps D) (name : StateName)
    (h : D document document') (hresult : D result result') :
    Step.Rel R D (Result.Rel D) (s.finish flow name document result)
      (s.finish flow name document' result') :=
  (Step.Rel.ofExcept (hflow.output h hresult)).bind fun _ _ hdata => s.conclude_rel name hdata

/-- **Executing a state on related documents leaves what is related**, if the
state keeps the relation and its resources answer alike. -/
theorem execute_rel {s : State} (hflow : ∀ flow, s.work.flow? = some flow → flow.Keeps D)
    (hresource : ∀ id flow exit, s.work = .task id flow exit →
      registry.RelAt R D mode registry' id)
    (name : StateName) (h : D document document') :
    Step.Rel R D (Result.Rel D) (s.execute registry mode name document)
      (s.execute registry' mode name document') := by
  simp only [execute_eq]
  cases hw : s.work with
  | task id flow exit =>
    have hkeeps : flow.Keeps D := hflow flow (by rw [hw]; rfl)
    have hid := hresource id flow exit hw
    refine (Step.Rel.ofExcept (hkeeps.payload h)).bind fun payload payload' hpayload => ?_
    unfold Registry.RelAt at hid
    unfold Registry.find
    generalize registry.find? id = found at hid ⊢
    generalize registry'.find? id = found' at hid ⊢
    cases hid with
    | none => exact .ofExcept (.error _)
    | @some resource resource' htake =>
      simp only [pure_bind]
      have hcall : Step.Rel R D D (resource.call mode id payload)
          (resource'.call mode id payload') := by
        intro world world' hworld
        obtain ⟨hanswer, hleft⟩ := htake payload payload' world world' hpayload hworld
        rw [Resource.call_apply, Resource.call_apply]
        exact ⟨hanswer, .cons (.called hpayload) .nil, hleft⟩
      refine (Step.Rel.emit rfl).bind fun _ _ _ => hcall.bind fun answer answer' hanswer => ?_
      exact s.finish_rel hkeeps name h hanswer
  | pass flow exit =>
    have hkeeps : flow.Keeps D := hflow flow (by rw [hw]; rfl)
    refine (Step.Rel.ofExcept (hkeeps.payload h)).bind fun payload payload' hpayload => ?_
    exact s.finish_rel hkeeps name h hpayload
  | succeed exit => exact s.conclude_rel name h
  | fail error cause exit =>
    exact (Step.Rel.emit rfl).bind fun _ _ _ => s.conclude_rel name h
  | choice _ _ | parallel _ _ | wait _ | map _ => exact .ofExcept (.error _)

end State

/-! ## Machines -/

namespace Machine

variable {m : Machine σ} {m' : Machine τ} {Q : Ran σ Result → Ran τ Result → Prop}
  {S : Stop σ → Stop τ → Prop} {s last : Stop σ} {s' : Stop τ} {passed : List (Stop σ)}
  {count : Nat} {ran : Ran σ Result} {ran' : Ran τ Result}

/-- Visits at related stops leave what is related, also before what is related
and where they are one too many, and lead to related stops. -/
structure InStep (Q : Ran σ Result → Ran τ Result → Prop) (S : Stop σ → Stop τ → Prop)
    (mode : Mode) (m : Machine σ) (m' : Machine τ) : Prop where
  /-- The limits are equal. -/
  limit : m.limit = m'.limit
  /-- Visits at related stops leave what is related. -/
  visit : ∀ {s s'}, S s s' → Q (m.visit mode s) (m'.visit mode s')
  /-- They lead to related stops, or both nowhere. -/
  onward : ∀ {s s'}, S s s' →
    Option.Rel S (m.visit mode s).onward? (m'.visit mode s').onward?
  /-- What is left after them stays related. -/
  after : ∀ {s s' ran ran'}, S s s' → Q ran ran' →
    Q (ran.after (m.visit mode s).events) (ran'.after (m'.visit mode s').events)
  /-- So does an overrun. -/
  overrun : ∀ {s s' ran ran'} (limit : Int), S s s' → Q ran ran' →
    Q (ran.overrun limit s.name) (ran'.overrun limit s'.name)

namespace InStep

/-- It is the same from either side. -/
theorem flip (h : InStep Q S mode m m') : InStep (flip Q) (flip S) mode m' m where
  limit := h.limit.symm
  visit hs := h.visit hs
  onward hs := (h.onward hs).flip
  after hs hran := h.after hs hran
  overrun limit hs hran := h.overrun limit hs hran

/-- No number of transitions is past one limit and not past the other. -/
theorem exceeds (h : InStep Q S mode m m') (k : Nat) : m.exceeds k = m'.exceeds k := by
  rw [Machine.exceeds, Machine.exceeds, h.limit]

/-- Where one machine goes on the other does. -/
theorem exists_leads (h : InStep Q S mode m m') (hs : S s s') {t : Stop σ}
    (ht : m.Leads mode s t) : ∃ t', m'.Leads mode s' t' ∧ S t t' := by
  obtain ⟨t', ht', hrel⟩ := (h.onward hs).exists_of_eq_some (onward?_eq_some_iff.2 ht)
  exact ⟨t', onward?_eq_some_iff.1 ht', hrel⟩

/-- **A route of one machine is one of the other**, and what the visits leave is
related. -/
theorem route (h : InStep Q S mode m m') (hroute : m.Route mode s passed last) (hs : S s s') :
    ∃ passed' last', m'.Route mode s' passed' last' ∧ passed'.length = passed.length ∧
      S last last' ∧ Q (m.along mode passed last) (m'.along mode passed' last') := by
  induction hroute generalizing s' with
  | here s => exact ⟨[], s', .here s', rfl, hs, h.visit hs⟩
  | on hleads _ ih =>
    obtain ⟨t', hleads', ht⟩ := h.exists_leads hs hleads
    obtain ⟨passed', last', hroute', hlen, hlast, halong⟩ := ih ht
    refine ⟨s' :: passed', last', .on hleads' hroute', by simp [hlen], hlast, ?_⟩
    rw [along_cons, along_cons]
    exact h.after hs halong

/-- What one machine takes the other takes. -/
theorem walk_eq_some (h : InStep Q S mode m m') (hs : S s s')
    (hwalk : m.walk mode count s = some ran) :
    ∃ ran', m'.walk mode count s' = some ran' ∧ Q ran ran' := by
  obtain ⟨passed, last, hroute, hwithin, hend⟩ := walk_eq_some_iff.1 hwalk
  obtain ⟨passed', last', hroute', hlen, hlast, halong⟩ := h.route hroute hs
  have hwithin' : ∀ i < passed'.length, m'.exceeds (count + i + 1) = none := by
    intro i hi
    rw [← h.exceeds]
    exact hwithin i (hlen ▸ hi)
  rcases hend with ⟨hnone, rfl⟩ | ⟨next, n, hleads, hover, rfl⟩
  · have hnone' := (h.onward hlast).eq_none hnone
    exact ⟨_, walk_eq_some_iff.2 ⟨passed', last', hroute', hwithin', .inl ⟨hnone', rfl⟩⟩, halong⟩
  · obtain ⟨next', hleads', -⟩ := h.exists_leads hlast hleads
    rw [h.exceeds, ← hlen] at hover
    exact ⟨_, walk_eq_some_iff.2 ⟨passed', last', hroute', hwithin',
      .inr ⟨next', n, hleads', hover, rfl⟩⟩, h.overrun n hlast halong⟩

/-- **Machines in step run in step from related stops on.** -/
theorem walk_rel (h : InStep Q S mode m m') (hs : S s s') (count : Nat) :
    Option.Rel Q (m.walk mode count s) (m'.walk mode count s') := by
  cases hwalk : m.walk mode count s with
  | some ran =>
    obtain ⟨ran', hwalk', hran⟩ := h.walk_eq_some hs hwalk
    rw [hwalk']
    exact .some hran
  | none =>
    cases hwalk' : m'.walk mode count s' with
    | none => exact .none
    | some ran' =>
      obtain ⟨ran, hran, -⟩ := h.flip.walk_eq_some hs hwalk'
      rw [hwalk] at hran
      cases hran

end InStep

end Machine

/-! ## From the start -/

namespace Definition

variable {d d' : Definition} {registry : Registry σ} {registry' : Registry τ}
  {limit limit' : Option Int} {document document' : Json} {world : σ} {world' : τ}
  {events : List Event} {Q : Ran σ Result → Ran τ Result → Prop} {S : Stop σ → Stop τ → Prop}

/-- **Runs in step end in step**, or neither ends, if they start at related stops
or fail to start in step. -/
theorem run_rel_of_inStep
    (h : Machine.InStep Q S mode (d.machine registry limit) (d'.machine registry' limit'))
    (hstarts : ∀ name, d.StartsAt name ↔ d'.StartsAt name)
    (hs : ∀ name, d.StartsAt name →
      S ⟨.str name, document, world⟩ ⟨.str name, document', world'⟩)
    (hno : Q ⟨.error d.noStart, [], world⟩ ⟨.error d'.noStart, [], world'⟩) :
    Option.Rel Q ((d.machine registry limit).run mode document world)
      ((d'.machine registry' limit').run mode document' world') := by
  by_cases hstart : ∃ name, d.StartsAt name
  · obtain ⟨name, hname⟩ := hstart
    rw [run_of_startsAt hname, run_of_startsAt ((hstarts name).1 hname)]
    exact h.walk_rel (hs name hname) 0
  · have hnone : ∀ name, ¬ d.StartsAt name := fun name hname => hstart ⟨name, hname⟩
    have hnone' : ∀ name, ¬ d'.StartsAt name :=
      fun name hname => hnone name ((hstarts name).2 hname)
    rw [run_of_noStart hnone, run_of_noStart hnone']
    exact .some hno

/-- And leave related traces on the way. -/
theorem exists_trace_of_inStep
    (h : Machine.InStep Q S mode (d.machine registry limit) (d'.machine registry' limit'))
    (hstarts : ∀ name, d.StartsAt name ↔ d'.StartsAt name)
    (hs : ∀ name, d.StartsAt name →
      S ⟨.str name, document, world⟩ ⟨.str name, document', world'⟩)
    (htrace : d.Trace registry limit mode document world events) :
    events = [] ∨ ∃ ran ran', Q ran ran' ∧ events = ran.events ∧
      d'.Trace registry' limit' mode document' world' ran'.events := by
  rcases htrace with rfl | ⟨name, passed, last, hname, hroute, hwithin, rfl⟩
  · exact .inl rfl
  · obtain ⟨passed', last', hroute', hlen, -, halong⟩ := h.route hroute (hs name hname)
    have hwithin' : ∀ i < passed'.length, (d'.machine registry' limit').exceeds (i + 1) = none := by
      intro i hi
      rw [← h.exceeds]
      exact hwithin i (hlen ▸ hi)
    have htrace' : d'.Trace registry' limit' mode document' world' _ :=
      .inr ⟨name, passed', last', (hstarts name).1 hname, hroute', hwithin', rfl⟩
    exact .inr ⟨_, _, halong, rfl, htrace'⟩

end Definition

end Workflow
