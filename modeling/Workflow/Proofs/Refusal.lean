import Workflow.Proofs.Patience
import Workflow.Proofs.Trace
/-!
# Workflow — refusing a deferred reply

A run that does not wait goes as it would over settled resources until it
calls a resource that defers its reply (`State.execute_of_not_defers`). There
it is refused, with the call made and nothing behind it done
(`State.execute_of_defers`), so what it leaves is what the settled run leaves
before that call (`Definition.run_refuses_first_deferred`).
-/

namespace Workflow

variable {σ : Type}

/-! ## Where a reply is deferred -/

/-- Executing a state calls a resource that defers its reply, and leaves the
world as it is until somebody waits. -/
def State.Defers (s : State) (registry : Registry σ) (document : Json) (world : σ)
    (call : String × Json) (unawaited : σ) : Prop :=
  ∃ flow exit resource answer awaited, s.work = .task call.1 flow exit ∧
    flow.payload document = .ok call.2 ∧ registry.find? call.1 = some resource ∧
    resource call.2 world = .later unawaited answer awaited

/-- So does a visit. -/
def Machine.Defers (m : Machine σ) (s : Stop σ) (call : String × Json) (unawaited : σ) : Prop :=
  ∃ st, m.program.state s.name = .ok st ∧
    st.Defers m.registry s.document s.world call unawaited

/-- A visit calls no resource that defers its reply. -/
def Machine.Prompt (m : Machine σ) (s : Stop σ) : Prop :=
  ∀ call unawaited, ¬ m.Defers s call unawaited

namespace State

variable {s : State} {registry : Registry σ} {name : StateName} {document : Json}
  {world unawaited : σ} {call : String × Json}

/-- **Where no reply is deferred there is nothing to settle.** -/
theorem execute_of_not_defers
    (h : ∀ call unawaited, ¬ s.Defers registry document world call unawaited) :
    s.execute registry .sync name document world =
      s.execute registry.settled .sync name document world := by
  cases hw : s.work with
  | task id flow exit =>
    cases hp : flow.payload document with
    | error fault => simp [execute_eq, hw, hp]
    | ok payload =>
      cases hr : registry.find? id with
      | none => simp [execute_eq, hw, hp, Registry.find, Registry.find?_settled, hr]
      | some resource =>
        cases hreply : resource payload world with
        | now answer world' =>
          have htake : (resource payload world).take .sync id = (answer, world') := by
            rw [hreply]
            rfl
          have htake' : (resource payload world).settle.take .sync id = (answer, world') := by
            rw [hreply]
            rfl
          rw [execute_of_call _ hw hp hr htake,
            execute_of_call _ hw hp (Registry.find?_settled_of_eq_some hr) htake']
        | later unawaited answer awaited =>
          exact absurd ⟨flow, exit, resource, answer, awaited, hw, hp, hr, hreply⟩
            (h (id, payload) unawaited)
  | _ => simp [execute_eq, hw]

/-- **A deferred reply is refused once the call is made.** -/
theorem execute_of_defers (h : s.Defers registry document world call unawaited) :
    s.execute registry .sync name document world =
      ⟨.error (.deferredResource call.1), [.invoking name call.1, .called call.1 call.2],
        unawaited⟩ := by
  obtain ⟨flow, exit, resource, answer, awaited, hw, hp, hr, hreply⟩ := h
  have htake : (resource call.2 world).take .sync call.1 =
      (.error (.deferredResource call.1), unawaited) := by
    rw [hreply]
    rfl
  rw [execute_of_call _ hw hp hr htake, Step.error_bind]
  rfl

/-- Over settled resources the same call is made there, and no other. -/
theorem calls_settled_of_defers (h : s.Defers registry document world call unawaited) :
    (s.execute registry.settled .sync name document world).calls = [call] := by
  obtain ⟨flow, exit, resource, answer, awaited, hw, hp, hr, hreply⟩ := h
  have htake : (resource call.2 world).settle.take .sync call.1 = (answer, awaited) := by
    rw [hreply]
    rfl
  rw [execute_of_call _ hw hp (Registry.find?_settled_of_eq_some hr) htake, Ran.calls_after]
  cases answer with
  | error fault => rfl
  | ok result =>
    rw [Step.ok_bind, (s.still_finish _ _ _ _).calls_eq_nil]
    rfl

end State

/-! ## Visits -/

namespace Machine

variable {m : Machine σ} {mode : Mode} {count : Nat} {s last : Stop σ} {passed : List (Stop σ)}
  {call : String × Json} {unawaited : σ}

/-- A visit leaves what it leaves over settled resources, if no reply is
deferred. -/
theorem visit_of_prompt (h : m.Prompt s) : m.visit .sync s = m.settled.visit .sync s := by
  cases hst : m.program.state s.name with
  | error fault => rw [visit_of_error hst, visit_of_error (m := m.settled) hst]
  | ok st =>
    have hno : ∀ call unawaited, ¬ st.Defers m.registry s.document s.world call unawaited :=
      fun call unawaited hdefers => h call unawaited ⟨st, hst, hdefers⟩
    rw [visit_of_ok hst, visit_of_ok (m := m.settled) hst, State.execute_of_not_defers hno]
    rfl

/-- What a visit leaves that calls a resource which defers its reply. -/
def refusal (name : StateName) (call : String × Json) (unawaited : σ) : Ran σ Result where
  outcome := .error (.deferredResource call.1)
  events := [.reached name, .entering .task name, .invoking name call.1, .called call.1 call.2]
  world := unawaited

/-- **A visit that calls a resource which defers its reply is refused.** -/
theorem visit_of_defers (h : m.Defers s call unawaited) :
    m.visit .sync s = refusal s.name call unawaited := by
  obtain ⟨st, hst, hdefers⟩ := h
  have htype : st.type = .task := by
    obtain ⟨flow, exit, resource, answer, awaited, hw, -⟩ := hdefers
    rw [State.type, hw]
    rfl
  rw [visit_of_ok hst, State.execute_of_defers hdefers, htype]
  rfl

/-- Over settled resources it makes the same call, and no other. -/
theorem calls_settled_of_defers (h : m.Defers s call unawaited) :
    (m.settled.visit .sync s).calls = [call] := by
  obtain ⟨st, hst, hdefers⟩ := h
  rw [visit_of_ok (m := m.settled) hst, Ran.calls_after]
  exact State.calls_settled_of_defers hdefers

/-- A visit that leads on is not refused. -/
theorem prompt_of_leads {s' : Stop σ} (h : m.Leads .sync s s') : m.Prompt s := by
  intro call unawaited hdefers
  obtain ⟨r, next, hr, -⟩ := h
  rw [visit_of_defers hdefers] at hr
  cases hr

/-! ## From a stop on -/

/-- Settling resources keeps the limit. -/
theorem limit_settled : m.settled.limit = m.limit := rfl

theorem exceeds_settled : m.settled.exceeds = m.exceeds := rfl

/-- A run takes the route that it takes over settled resources. -/
theorem route_settled (h : m.Route .sync s passed last) : m.settled.Route .sync s passed last :=
  route_congr h fun t ht => by
    obtain ⟨t', ht'⟩ := h.exists_leads_of_mem ht
    exact visit_of_prompt (prompt_of_leads ht')

/-- **Where no reply is deferred a run is the one over settled resources.** -/
theorem walk_of_prompt
    (h : ∀ passed last, m.settled.Route .sync s passed last →
      (∀ i < passed.length, m.exceeds (count + i + 1) = none) → m.Prompt last) :
    m.walk .sync count s = m.settled.walk .sync count s := by
  -- every stop on a route is where a shorter one goes
  have hvisit {passed : List (Stop σ)} {last : Stop σ}
      (hroute : m.settled.Route .sync s passed last)
      (hwithin : ∀ i < passed.length, m.exceeds (count + i + 1) = none) :
      ∀ t ∈ passed ++ [last], m.visit .sync t = m.settled.visit .sync t := by
    intro t ht
    obtain ⟨before, after, rfl, hbefore, -⟩ := hroute.split_of_mem ht
    refine visit_of_prompt (h before t hbefore fun i hi => hwithin i ?_)
    rw [List.length_append]
    omega
  refine Option.ext fun ran => ?_
  rw [walk_eq_some_iff, walk_eq_some_iff]
  constructor
  · rintro ⟨passed, last, hroute, hwithin, hend⟩
    exact takes_congr limit_settled.symm hroute hwithin hend
      (hvisit (route_settled hroute) hwithin)
  · rintro ⟨passed, last, hroute, hwithin, hend⟩
    have hvisit' := hvisit hroute (exceeds_settled ▸ hwithin)
    exact takes_congr limit_settled hroute hwithin hend fun t ht => (hvisit' t ht).symm

/-- **A run ends with the first deferred reply.** -/
theorem walk_of_defers (hroute : m.Route .sync s passed last)
    (hwithin : ∀ i < passed.length, m.exceeds (count + i + 1) = none)
    (h : m.Defers last call unawaited) :
    m.walk .sync count s = some (m.along .sync passed last) := by
  have hend : (m.visit .sync last).onward? = none := by
    rw [visit_of_defers h]
    rfl
  rw [walk_eq_some_iff]
  exact ⟨passed, last, hroute, hwithin, .inl ⟨hend, rfl⟩⟩

/-- A run goes on from its start state. -/
theorem run_of_start {name : StateName} {document : Json} {world : σ}
    (h : m.program.start = .ok name) :
    m.run mode document world = m.walk mode 0 ⟨name, document, world⟩ := by
  rw [run_eq, h]

end Machine

/-! ## From the start -/

namespace Definition

variable {d : Definition} {registry : Registry σ} {limit : Option Int} {mode : Mode}
  {document : Json} {world unawaited : σ} {passed : List (Stop σ)} {last : Stop σ} {id : String}
  {payload : Json}

/-- A run makes some visits, and comes to another stop with them. -/
def Visits (d : Definition) (registry : Registry σ) (limit : Option Int) (mode : Mode)
    (document : Json) (world : σ) (passed : List (Stop σ)) (last : Stop σ) : Prop :=
  ∃ name, d.StartsAt name ∧
    (d.machine registry limit).Route mode ⟨.str name, document, world⟩ passed last ∧
    ∀ i < passed.length, (d.machine registry limit).exceeds (i + 1) = none

/-- What a run that does not wait leaves if the first deferred reply is to a
call that it makes at this stop, after these visits. -/
structure Refuses (d : Definition) (registry : Registry σ) (limit : Option Int) (document : Json)
    (world : σ) (passed : List (Stop σ)) (last : Stop σ) (id : String) (payload : Json)
    (unawaited : σ) (ran : Ran σ Result) : Prop where
  /-- The run ends. -/
  run : (d.machine registry limit).run .sync document world = some ran
  /-- It is the same whatever another program says of any other state, and
  whatever it says of this one but its resource and its payload. -/
  blind : ∀ (program : Program) comment flow exit, program.start = d.program.start →
    (∀ s ∈ passed, program.state s.name = d.program.state s.name) →
    program.state last.name = .ok ⟨comment, .task id flow exit⟩ →
    flow.payload last.document = .ok payload →
    (⟨program, registry, limit⟩ : Machine σ).run .sync document world = some ran
  /-- It fails by the resource that defers. -/
  outcome : ran.outcome = .error (.deferredResource id)
  /-- The visits before left what they leave over settled resources. The last
  one has made its call, and nothing has happened since. -/
  events : ran.events = (d.machine registry.settled limit).eventsOf .sync passed ++
    [.reached last.name, .entering .task last.name, .invoking last.name id, .called id payload]
  /-- No state is entered after the last. -/
  entered : ran.entered = (passed ++ [last]).map Stop.name
  /-- The call is the last one. -/
  calls : ran.calls = (d.machine registry.settled limit).callsOf .sync passed ++ [(id, payload)]
  /-- The calls are those of the same visits over settled resources. -/
  calls_settled : ran.calls = (d.machine registry.settled limit).callsOf .sync (passed ++ [last])
  /-- So the run over settled resources makes them first, if it ends. -/
  begins : ∀ ran', (d.machine registry.settled limit).run .sync document world = some ran' →
    ran.calls <+: ran'.calls
  /-- Nothing is done that the resource defers. -/
  world : ran.world = unawaited

/-- A definition that starts with a state does so as a program. -/
theorem start_of_startsAt {name : String} (h : d.StartsAt name) :
    d.program.start = .ok (.str name) := by
  rcases d.start_cases with ⟨name', hname', hstart⟩ | ⟨hno, -⟩
  · obtain rfl := h.unique hname'
    rw [program, hstart]
    rfl
  · exact absurd h (hno name)

/-- The calls of the visits that a run makes begin the calls of the run, if
that ends. -/
theorem Visits.calls_prefix {ran : Ran σ Result}
    (h : d.Visits registry limit mode document world passed last)
    (hran : (d.machine registry limit).run mode document world = some ran) :
    (d.machine registry limit).callsOf mode (passed ++ [last]) <+: ran.calls := by
  obtain ⟨name, hname, hroute, hwithin⟩ := h
  have htrace : d.Trace registry limit mode document world
      ((d.machine registry limit).along mode passed last).events :=
    .inr ⟨name, passed, last, hname, hroute, hwithin, rfl⟩
  rw [← Machine.calls_along]
  exact (htrace.prefix_of_run hran).filterMap _

/-- A run that comes to a deferred reply is the same under another program that
says the same of the states before and calls the resource with the same
payload here. -/
theorem run_of_defers {name : String} {program : Program} {comment : Option String}
    {flow : DataFlow} {exit : Exit} (hname : d.StartsAt name)
    (hroute : (d.machine registry limit).Route .sync ⟨.str name, document, world⟩ passed last)
    (hwithin : ∀ i < passed.length, (d.machine registry limit).exceeds (i + 1) = none)
    (hdefers : (d.machine registry limit).Defers last (id, payload) unawaited)
    (hstart : program.start = d.program.start)
    (hstates : ∀ s ∈ passed, program.state s.name = d.program.state s.name)
    (hstate : program.state last.name = .ok ⟨comment, .task id flow exit⟩)
    (hpayload : flow.payload last.document = .ok payload) :
    (⟨program, registry, limit⟩ : Machine σ).run .sync document world =
      some ((d.machine registry limit).along .sync passed last) := by
  have hsame : ∀ t ∈ passed, (d.machine registry limit).visit .sync t =
      (⟨program, registry, limit⟩ : Machine σ).visit .sync t :=
    fun t ht => Machine.visit_congr_state (hstates t ht).symm
  have hdefers' : (⟨program, registry, limit⟩ : Machine σ).Defers last (id, payload) unawaited := by
    obtain ⟨-, -, -, -, resource, answer, awaited, -, -, hfind, hreply⟩ := hdefers
    exact ⟨_, hstate, flow, exit, resource, answer, awaited, rfl, hpayload, hfind, hreply⟩
  have halong : (⟨program, registry, limit⟩ : Machine σ).along .sync passed last =
      (d.machine registry limit).along .sync passed last := by
    rw [Machine.along, Machine.along, Machine.visit_of_defers hdefers,
      Machine.visit_of_defers hdefers', Machine.eventsOf_congr hsame]
  rw [Machine.run_of_start (hstart.trans (start_of_startsAt hname)),
    Machine.walk_of_defers (Machine.route_congr hroute hsame) _ hdefers', halong]
  intro i hi
  rw [Nat.zero_add]
  exact hwithin i hi

/-- **A run that comes to a deferred reply is refused there.** -/
theorem refuses_of_visits (h : d.Visits registry.settled limit .sync document world passed last)
    (hprompt : ∀ s ∈ passed, (d.machine registry limit).Prompt s)
    (hdefers : (d.machine registry limit).Defers last (id, payload) unawaited) :
    d.Refuses registry limit document world passed last id payload unawaited
      ((d.machine registry limit).along .sync passed last) := by
  have hvisit : ∀ t ∈ passed, (d.machine registry.settled limit).visit .sync t =
      (d.machine registry limit).visit .sync t :=
    fun t ht => (Machine.visit_of_prompt (hprompt t ht)).symm
  have hlast := Machine.visit_of_defers hdefers
  have hcalled : ((d.machine registry.settled limit).visit .sync last).calls = [(id, payload)] :=
    Machine.calls_settled_of_defers hdefers
  have hcallsOf : (d.machine registry.settled limit).callsOf .sync (passed ++ [last]) =
      (d.machine registry.settled limit).callsOf .sync passed ++ [(id, payload)] := by
    simp [Machine.callsOf, hcalled]
  have hevents : ((d.machine registry limit).along .sync passed last).events =
      (d.machine registry.settled limit).eventsOf .sync passed ++
        [.reached last.name, .entering .task last.name, .invoking last.name id,
          .called id payload] := by
    rw [Machine.along, hlast, ← Machine.eventsOf_congr hvisit]
    rfl
  have hcalls : ((d.machine registry limit).along .sync passed last).calls =
      (d.machine registry.settled limit).callsOf .sync passed ++ [(id, payload)] := by
    rw [Ran.calls, hevents, List.filterMap_append, Machine.filterMap_call?_eventsOf]
    rfl
  have hbegins (ran' : Ran σ Result)
      (hran' : (d.machine registry.settled limit).run .sync document world = some ran') :
      ((d.machine registry limit).along .sync passed last).calls <+: ran'.calls := by
    rw [hcalls, ← hcallsOf]
    exact h.calls_prefix hran'
  obtain ⟨name, hname, hsettled, hwithin⟩ := h
  have hroute : (d.machine registry limit).Route .sync ⟨.str name, document, world⟩ passed last :=
    Machine.route_congr hsettled hvisit
  exact {
    run := by
      have hload := hdefers
      obtain ⟨⟨comment, work⟩, hst, flow, exit, -, -, -, rfl, hpayload, -⟩ := hload
      exact run_of_defers hname hroute hwithin hdefers rfl (fun _ _ => rfl) hst hpayload
    blind := fun program comment flow exit hstart hstates hstate hpayload =>
      run_of_defers hname hroute hwithin hdefers hstart hstates hstate hpayload
    outcome := by
      rw [Machine.outcome_along, hlast]
      rfl
    events := hevents
    entered := Machine.entered_along passed last
    calls := hcalls
    calls_settled := hcalls.trans hcallsOf.symm
    begins := hbegins
    world := by
      rw [Machine.along, hlast]
      rfl }

/-- Where no reply is deferred a run is the one over settled resources. -/
theorem run_of_prompt
    (h : ∀ passed last, d.Visits registry.settled limit .sync document world passed last →
      (d.machine registry limit).Prompt last) :
    (d.machine registry limit).run .sync document world =
      (d.machine registry.settled limit).run .sync document world := by
  by_cases hstart : ∃ name, d.StartsAt name
  · obtain ⟨name, hname⟩ := hstart
    rw [run_of_startsAt hname, run_of_startsAt hname]
    refine Machine.walk_of_prompt fun passed last hroute hwithin => ?_
    refine h passed last ⟨name, hname, hroute, fun i hi => ?_⟩
    have hi' := hwithin i hi
    rwa [Nat.zero_add] at hi'
  · have hno : ∀ name, ¬ d.StartsAt name := fun name hname => hstart ⟨name, hname⟩
    rw [run_of_noStart hno, run_of_noStart hno]

/-- A run that calls a resource which defers its reply has done so for a first
time. -/
theorem exists_first_deferred
    (h : ¬ ∀ passed last, d.Visits registry.settled limit .sync document world passed last →
      (d.machine registry limit).Prompt last) :
    ∃ passed last id payload unawaited,
      d.Visits registry.settled limit .sync document world passed last ∧
        (∀ s ∈ passed, (d.machine registry limit).Prompt s) ∧
        (d.machine registry limit).Defers last (id, payload) unawaited := by
  push Not at h
  obtain ⟨passed, last, ⟨name, hname, hroute, hwithin⟩, hlast⟩ := h
  obtain ⟨before, first, hbefore, hle, hprompt, hfirst⟩ :=
    hroute.exists_first (P := fun s => ¬ (d.machine registry limit).Prompt s) hlast
  obtain ⟨⟨id, payload⟩, unawaited, hdefers⟩ : ∃ call unawaited,
      (d.machine registry limit).Defers first call unawaited := by
    unfold Machine.Prompt at hfirst
    push Not at hfirst
    exact hfirst
  refine ⟨before, first, id, payload, unawaited, ⟨name, hname, hbefore, fun i hi => ?_⟩,
    fun s hs => not_not.1 (hprompt s hs), hdefers⟩
  exact hwithin i (by omega)

/-- **A run that does not wait is refused at the first deferred reply, and not
before.** Take the run over settled resources. Either no reply is deferred to
any call that it makes; then the run over the resources as they are comes to
the same outcome, with the same events on the way, calls among them, and the
same world after it, or neither ends. Or a call is the first to which a reply
is deferred; then the run is refused there. -/
theorem run_refuses_first_deferred (d : Definition) (registry : Registry σ) (limit : Option Int)
    (document : Json) (world : σ) :
    ((∀ passed last, d.Visits registry.settled limit .sync document world passed last →
        (d.machine registry limit).Prompt last) ∧
      (d.machine registry limit).run .sync document world =
        (d.machine registry.settled limit).run .sync document world) ∨
    ∃ passed last id payload unawaited ran,
      d.Visits registry.settled limit .sync document world passed last ∧
        (∀ s ∈ passed, (d.machine registry limit).Prompt s) ∧
        (d.machine registry limit).Defers last (id, payload) unawaited ∧
        d.Refuses registry limit document world passed last id payload unawaited ran := by
  by_cases h : ∀ passed last, d.Visits registry.settled limit .sync document world passed last →
      (d.machine registry limit).Prompt last
  · exact .inl ⟨h, run_of_prompt h⟩
  · obtain ⟨passed, last, id, payload, unawaited, hvisits, hprompt, hdefers⟩ :=
      exists_first_deferred h
    exact .inr ⟨passed, last, id, payload, unawaited, _, hvisits, hprompt, hdefers,
      refuses_of_visits hvisits hprompt hdefers⟩

end Definition

end Workflow
