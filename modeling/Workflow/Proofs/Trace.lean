import Workflow.Proofs.Course
import Workflow.Proofs.Limit
/-!
# Workflow — traces, and what steers a run

A trace is what a run has left by some point of it, so a run that never ends
has traces although it has no outcome. The states that a trace enters are the
first ones of the course of the definition. Documents, resources, limits and
the way in which replies are taken only decide how far a run follows the
course (`Definition.entered_of_trace`), so of two traces one enters what the
other does and perhaps more.
-/

namespace Workflow

variable {σ τ : Type}

namespace Machine

variable {m : Machine σ} {mode : Mode}

/-- The visits along a route leave their events, in order. -/
theorem events_along (passed : List (Stop σ)) (last : Stop σ) :
    (m.along mode passed last).events = m.eventsOf mode (passed ++ [last]) := by
  simp [along, Ran.after, eventsOf]

end Machine

namespace Definition

variable {d : Definition} {registry : Registry σ} {limit : Option Int} {mode : Mode}
  {document : Json} {world : σ} {ran : Ran σ Result} {r : Result} {fault : Fault}
  {events : List Event} {name last last' : String} {names names' : List String}

/-- What a run has left by some point of it: nothing before its first state,
and then what the visits on its route leave, as far as the limit lets it. -/
def Trace (d : Definition) (registry : Registry σ) (limit : Option Int) (mode : Mode)
    (document : Json) (world : σ) (events : List Event) : Prop :=
  events = [] ∨ ∃ name passed last, d.StartsAt name ∧
    (d.machine registry limit).Route mode ⟨.str name, document, world⟩ passed last ∧
    (∀ i < passed.length, (d.machine registry limit).exceeds (i + 1) = none) ∧
    events = ((d.machine registry limit).along mode passed last).events

/-- Without a limit every route from the start leaves a trace. -/
theorem trace_of_route {passed : List (Stop σ)} {last : Stop σ} (hname : d.StartsAt name)
    (hroute : (d.machine registry none).Route mode ⟨.str name, document, world⟩ passed last) :
    d.Trace registry none mode document world
      ((d.machine registry none).along mode passed last).events :=
  .inr ⟨name, passed, last, hname, hroute, fun _ _ => rfl, rfl⟩

/-! ## Traces of runs that end -/

/-- What a run leaves in the end is a trace of it. -/
theorem trace_of_run (h : (d.machine registry limit).run mode document world = some ran) :
    d.Trace registry limit mode document world ran.events := by
  rcases run_eq_some_iff.1 h with ⟨-, rfl⟩ | ⟨name, hname, hwalk⟩
  · exact .inl rfl
  · obtain ⟨passed, last, hroute, hwithin, hend⟩ := Machine.walk_eq_some_iff.1 hwalk
    refine .inr ⟨name, passed, last, hname, hroute, fun i hi => ?_, ?_⟩
    · simpa using hwithin i hi
    · rcases hend with ⟨-, rfl⟩ | ⟨next, n, -, -, rfl⟩ <;> rfl

/-- **Every trace is a beginning of what the run leaves in the end.** -/
theorem Trace.prefix_of_run (htrace : d.Trace registry limit mode document world events)
    (h : (d.machine registry limit).run mode document world = some ran) :
    events <+: ran.events := by
  rcases htrace with rfl | ⟨name, passed, last, hname, hroute, hwithin, rfl⟩
  · exact List.nil_prefix
  rcases run_eq_some_iff.1 h with ⟨hno, -⟩ | ⟨name', hname', hwalk⟩
  · exact absurd hname (hno name)
  obtain rfl := hname.unique hname'
  obtain ⟨passed', last', hroute', -, hend⟩ := Machine.walk_eq_some_iff.1 hwalk
  have hevents : ran.events = ((d.machine registry limit).along mode passed' last').events := by
    rcases hend with ⟨-, rfl⟩ | ⟨next, n, -, -, rfl⟩ <;> rfl
  have hle : passed.length ≤ passed'.length := by
    by_contra hlt
    -- a longer trace would go on where the run ends
    obtain ⟨rest, rfl, hrest⟩ :=
      hroute'.split_of_length_le Machine.rightUnique_leads hroute (by omega)
    cases hrest with
    | here => simp at hlt
    | on hleads _ =>
      rcases hend with ⟨hnone, -⟩ | ⟨next, n, -, hover, -⟩
      · rw [Machine.onward?_eq_some_iff.2 hleads] at hnone
        cases hnone
      · rw [Nat.zero_add, hwithin passed'.length (by simp)] at hover
        cases hover
  have hstops : passed ++ [last] <+: passed' ++ [last'] :=
    hroute.prefix_of_length_le Machine.rightUnique_leads hroute' hle
  rw [hevents, Machine.events_along, Machine.events_along]
  exact hstops.flatMap _

/-! ## The states on a trace -/

/-- **A trace enters the first states of the course.** -/
theorem entered_of_trace (h : d.Trace registry limit mode document world events) :
    events.filterMap Event.reached? = [] ∨
      ∃ name names last, d.StartsAt name ∧ d.Course name names last ∧
        events.filterMap Event.reached? = (names ++ [last]).map Json.str := by
  rcases h with rfl | ⟨name, passed, last', hname, hroute, -, rfl⟩
  · exact .inl rfl
  · obtain ⟨names, last, hcourse, hlast, hnames⟩ := course_of_route hroute rfl
    have hentered : ((d.machine registry limit).along mode passed last').entered =
        (passed ++ [last']).map Stop.name := Machine.entered_along passed last'
    refine .inr ⟨name, names, last, hname, hcourse, hentered.trans ?_⟩
    rw [List.map_append, hnames, List.map_singleton, hlast, List.map_append, List.map_singleton]

/-- Of two parts of the course one begins the other. -/
theorem Course.comparable (h : d.Course name names last) (h' : d.Course name names' last') :
    names ++ [last] <+: names' ++ [last'] ∨ names' ++ [last'] <+: names ++ [last] := by
  rcases Nat.le_total names.length names'.length with hle | hle
  · exact .inl (h.prefix_of_length_le d.rightUnique_leadsTo h' hle)
  · exact .inr (h'.prefix_of_length_le d.rightUnique_leadsTo h hle)

/-- A run that takes too many transitions under a limit has followed the
course as far as the limit lets it, unless a resource says so that it has
called. -/
theorem course_of_tooManyTransitions {n : Int}
    (h : (d.machine registry (some n)).run mode document world = some ran)
    (hfault : ran.outcome = .error fault) (hfamily : fault.family = .tooManyTransitions) :
    (∃ call ∈ ran.calls, ∃ world', registry.Raises mode world' call fault) ∨
      ∃ name names last, d.StartsAt name ∧ d.Course name names last ∧
        names.length + 1 = Machine.reach n ∧ fault = .tooManyTransitions n (.str last) := by
  obtain ⟨ran', hran', hlimited⟩ := d.exists_limited registry mode n document world
  obtain rfl := Option.some.inj (h.symm.trans hran')
  rcases hlimited with ⟨hfree, -⟩ | ⟨name, passed, last', next, hname, hroute, hlen, -, rfl⟩
  · exact .inl (raises_of_family_of_run hfree hfault hfamily)
  · obtain ⟨names, last, hcourse, hlast, hnames⟩ := course_of_route hroute rfl
    have hnum : passed.length = names.length := by simpa using congrArg List.length hnames
    refine .inr ⟨name, names, last, hname, hcourse, hnum ▸ hlen, ?_⟩
    rw [← hlast]
    exact (Except.error.inj hfault).symm

section TwoRuns

variable {registry' : Registry τ} {limit' : Option Int} {mode' : Mode} {document' : Json}
  {world' : τ} {ran' : Ran τ Result} {r' : Result} {fault' : Fault} {events' : List Event}

/-- Of the states on two traces of a definition those of one begin those of
the other. -/
theorem Trace.comparable (h : d.Trace registry limit mode document world events)
    (h' : d.Trace registry' limit' mode' document' world' events') :
    events.filterMap Event.reached? <+: events'.filterMap Event.reached? ∨
      events'.filterMap Event.reached? <+: events.filterMap Event.reached? := by
  rcases entered_of_trace h with hnil | ⟨name, names, last, hname, hcourse, hentered⟩
  · exact .inl (hnil ▸ List.nil_prefix)
  rcases entered_of_trace h' with hnil | ⟨name', names', last', hname', hcourse', hentered'⟩
  · exact .inr (hnil ▸ List.nil_prefix)
  obtain rfl := hname.unique hname'
  rw [hentered, hentered']
  exact (hcourse.comparable hcourse').imp (·.map _) (·.map _)

/-- Two runs to a result follow the course to the same terminal state. -/
theorem entered_eq_of_ok (h : (d.machine registry limit).run mode document world = some ran)
    (h' : (d.machine registry' limit').run mode' document' world' = some ran')
    (hr : ran.outcome = .ok r) (hr' : ran'.outcome = .ok r') :
    ran.entered = ran'.entered ∧ r.stateType = r'.stateType := by
  obtain ⟨name, passed, stop, names, last, st, data, hname, -, hcourse, hst, ht, rfl, rfl,
    hnames⟩ := final_of_ok h hr
  obtain ⟨name', passed', stop', names', last', st', data', hname', -, hcourse', hst', ht', rfl,
    rfl, hnames'⟩ := final_of_ok h' hr'
  obtain rfl := hname.unique hname'
  obtain ⟨rfl, rfl⟩ := Trail.eq_of_dead_ends d.rightUnique_leadsTo hcourse
    (fun _ => not_leadsTo_of_isTerminal hst ht) hcourse'
    (fun _ => not_leadsTo_of_isTerminal hst' ht')
  obtain rfl := Except.ok.inj (hst.symm.trans hst')
  refine ⟨?_, rfl⟩
  rw [Machine.entered_along, Machine.entered_along, hnames, hnames']

/-- Two runs that take too many transitions under one limit are stopped after
the same state, unless a resource says so that one of them has called. -/
theorem eq_of_tooManyTransitions {n : Int}
    (h : (d.machine registry (some n)).run mode document world = some ran)
    (h' : (d.machine registry' (some n)).run mode' document' world' = some ran')
    (hfault : ran.outcome = .error fault) (hfault' : ran'.outcome = .error fault')
    (hfamily : fault.family = .tooManyTransitions)
    (hfamily' : fault'.family = .tooManyTransitions) :
    (∃ last, fault = .tooManyTransitions n last ∧ fault' = .tooManyTransitions n last) ∨
      (∃ call ∈ ran.calls, ∃ before, registry.Raises mode before call fault) ∨
      ∃ call ∈ ran'.calls, ∃ before, registry'.Raises mode' before call fault' := by
  rcases course_of_tooManyTransitions h hfault hfamily with
    hraise | ⟨name, names, last, hname, hcourse, hlen, rfl⟩
  · exact .inr (.inl hraise)
  rcases course_of_tooManyTransitions h' hfault' hfamily' with
    hraise | ⟨name', names', last', hname', hcourse', hlen', rfl⟩
  · exact .inr (.inr hraise)
  obtain rfl := hname.unique hname'
  -- both have gone as far along the course
  have hsame : names ++ [last] = names' ++ [last'] := by
    rcases hcourse.comparable hcourse' with hpre | hpre
    · exact hpre.eq_of_length (by simpa using by omega)
    · exact (hpre.eq_of_length (by simpa using by omega)).symm
  obtain ⟨-, hlast⟩ := List.append_inj' hsame rfl
  obtain rfl := List.singleton_inj.1 hlast
  exact .inl ⟨.str last, rfl, rfl⟩

end TwoRuns

/-- **Data does not steer a run.** Take two runs of one definition, whatever
their documents, resources and limits are and however they take replies. Of
the states that they have entered by any two points the ones of one run begin
the ones of the other. Two runs to a result enter the same states, and end
with the same type of state. Two runs that go past one limit are stopped after
the same state; any other fault for too many transitions is one that a
resource raised. -/
theorem entered_independent_of_data (d : Definition) (registry : Registry σ)
    (registry' : Registry τ) (limit limit' : Option Int) (mode mode' : Mode)
    (document document' : Json) (world : σ) (world' : τ) :
    (∀ events events', d.Trace registry limit mode document world events →
      d.Trace registry' limit' mode' document' world' events' →
      events.filterMap Event.reached? <+: events'.filterMap Event.reached? ∨
        events'.filterMap Event.reached? <+: events.filterMap Event.reached?) ∧
    (∀ ran ran', (d.machine registry limit).run mode document world = some ran →
      (d.machine registry' limit').run mode' document' world' = some ran' →
      (ran.entered <+: ran'.entered ∨ ran'.entered <+: ran.entered) ∧
      (∀ r r', ran.outcome = .ok r → ran'.outcome = .ok r' →
        ran.entered = ran'.entered ∧ r.stateType = r'.stateType) ∧
      (∀ n fault fault', limit = some n → limit' = some n → ran.outcome = .error fault →
        ran'.outcome = .error fault' → fault.family = .tooManyTransitions →
        fault'.family = .tooManyTransitions →
        (∃ last, fault = .tooManyTransitions n last ∧ fault' = .tooManyTransitions n last) ∨
          (∃ call ∈ ran.calls, ∃ before, registry.Raises mode before call fault) ∨
          ∃ call ∈ ran'.calls, ∃ before, registry'.Raises mode' before call fault')) := by
  refine ⟨fun events events' h h' => h.comparable h', fun ran ran' h h' => ⟨?_, ?_, ?_⟩⟩
  · exact (trace_of_run h).comparable (trace_of_run h')
  · intro r r' hr hr'
    exact entered_eq_of_ok h h' hr hr'
  · intro n fault fault' hn hn' hfault hfault' hfamily hfamily'
    subst hn hn'
    exact eq_of_tooManyTransitions h h' hfault hfault' hfamily hfamily'

end Definition

end Workflow
