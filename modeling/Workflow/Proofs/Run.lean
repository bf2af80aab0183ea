import Workflow.Proofs.State
import Workflow.Proofs.Visit
/-!
# Workflow — a run is a chain of visits

`Machine.walk_eq_some_iff` says what a run from a stop on is: it takes a
route on which no transition is past the limit, to a visit where it ends,
and leaves what those visits leave. Without a limit a run ends exactly where
a visit ends the run or fails, so a whole run is a chain of single steps.
-/

namespace Workflow

variable {σ : Type}

namespace Machine

variable {m : Machine σ} {mode : Mode} {count : Nat} {s s' : Stop σ} {ran : Ran σ Result}

/-- The events of visits, in order. -/
def eventsOf (m : Machine σ) (mode : Mode) (stops : List (Stop σ)) : List Event :=
  stops.flatMap fun s => (m.visit mode s).events

/-- The calls of visits, in order. -/
def callsOf (m : Machine σ) (mode : Mode) (stops : List (Stop σ)) : List (String × Json) :=
  stops.flatMap fun s => (m.visit mode s).calls

/-- What a visit leaves after others. -/
def along (m : Machine σ) (mode : Mode) (passed : List (Stop σ)) (last : Stop σ) : Ran σ Result :=
  (m.visit mode last).after (m.eventsOf mode passed)

/-- It comes to what the last visit does. -/
@[simp] theorem outcome_along (passed : List (Stop σ)) (last : Stop σ) :
    (m.along mode passed last).outcome = (m.visit mode last).outcome := rfl

/-- It has entered the states of all the stops. -/
@[simp] theorem entered_along (passed : List (Stop σ)) (last : Stop σ) :
    (m.along mode passed last).entered = (passed ++ [last]).map Stop.name := by
  have hvisit (s : Stop σ) : (m.visit mode s).events.filterMap Event.reached? = [s.name] :=
    entered_visit
  simp only [along, Ran.entered_after, entered_visit, eventsOf, List.filterMap_flatMap, hvisit,
    List.map_append, List.map_singleton]
  rw [List.map_eq_flatMap]

/-- The calls among the events of visits are those of the visits. -/
theorem filterMap_call?_eventsOf (stops : List (Stop σ)) :
    (m.eventsOf mode stops).filterMap Event.call? = m.callsOf mode stops := by
  rw [eventsOf, List.filterMap_flatMap]
  rfl

/-- Its calls are those of all the visits. -/
@[simp] theorem calls_along (passed : List (Stop σ)) (last : Stop σ) :
    (m.along mode passed last).calls = m.callsOf mode (passed ++ [last]) := by
  rw [along, Ran.calls_after, filterMap_call?_eventsOf]
  simp [callsOf]

/-- Visits that leave the same leave the same events. -/
theorem eventsOf_congr {m' : Machine σ} {mode' : Mode} {stops : List (Stop σ)}
    (h : ∀ t ∈ stops, m.visit mode t = m'.visit mode' t) :
    m.eventsOf mode stops = m'.eventsOf mode' stops :=
  List.flatMap_congr fun t ht => congrArg Ran.events (h t ht)

/-- One visit more at the front. -/
theorem along_cons (s : Stop σ) (passed : List (Stop σ)) (last : Stop σ) :
    m.along mode (s :: passed) last =
      (m.along mode passed last).after (m.visit mode s).events := by
  simp [along, eventsOf]

/-- The calls of one visit more at the front come first. -/
theorem callsOf_cons (s : Stop σ) (stops : List (Stop σ)) :
    m.callsOf mode (s :: stops) = (m.visit mode s).calls ++ m.callsOf mode stops := rfl

/-- One visit calls what it calls. -/
theorem callsOf_singleton (s : Stop σ) : m.callsOf mode [s] = (m.visit mode s).calls :=
  List.append_nil _

/-- On a route to a result that ends the run there is one move between each
stop and the next. -/
theorem length_moves_along {r : Result} {passed : List (Stop σ)} {last : Stop σ}
    (h : m.Route mode s passed last) (hr : (m.visit mode last).outcome = .ok r)
    (hterminal : r.terminal = true) :
    (m.along mode passed last).moves.length = passed.length := by
  induction h with
  | here s =>
    obtain ⟨st, data, -, ⟨-, -, hmoves⟩ | ⟨next, -, rfl, -⟩⟩ := result_of_visit hr
    · exact congrArg List.length hmoves
    · cases hterminal
  | @on s s' last passed hleads _ ih =>
    obtain ⟨r', next, hr', hterminal', -, -⟩ := hleads
    obtain ⟨st, data, -, ⟨-, rfl, -⟩ | ⟨next', -, -, hmoves⟩⟩ := result_of_visit hr'
    · cases hterminal'
    · have hmove : ((m.visit mode s).events.filterMap Event.move?).length = 1 :=
        congrArg List.length hmoves
      rw [along_cons, Ran.moves_after, List.length_append, hmove, ih hr, List.length_cons,
        Nat.add_comm]

/-- A run that has made some transitions ends with this visit: either it
leads nowhere, or the transition that it leads to is one too many. What is
left after the visit is left so or as an overrun. -/
def EndsWith (m : Machine σ) (mode : Mode) (count : Nat) (last : Stop σ)
    (left ran : Ran σ Result) : Prop :=
  ((m.visit mode last).onward? = none ∧ ran = left) ∨
    ∃ next limit, m.Leads mode last next ∧ m.exceeds (count + 1) = some limit ∧
      ran = left.overrun limit last.name

/-- Events before a run change nothing in how it ends. -/
theorem endsWith_after_iff {last : Stop σ} {left : Ran σ Result} {events : List Event} :
    m.EndsWith mode count last (left.after events) ran ↔
      ∃ ran', m.EndsWith mode count last left ran' ∧ ran = ran'.after events := by
  constructor
  · rintro (⟨hnone, rfl⟩ | ⟨next, limit, hleads, hlimit, rfl⟩)
    · exact ⟨left, .inl ⟨hnone, rfl⟩, rfl⟩
    · exact ⟨_, .inr ⟨next, limit, hleads, hlimit, rfl⟩, rfl⟩
  · rintro ⟨ran', ⟨hnone, rfl⟩ | ⟨next, limit, hleads, hlimit, rfl⟩, rfl⟩
    · exact .inl ⟨hnone, rfl⟩
    · exact .inr ⟨next, limit, hleads, hlimit, rfl⟩

/-! ## From a stop on -/

/-- Where a run ends, it leaves what its last visit does. -/
theorem walk_of_endsWith (h : m.EndsWith mode count s (m.visit mode s) ran) :
    m.walk mode count s = some ran := by
  rcases h with ⟨hnone, rfl⟩ | ⟨s', limit, hleads, hlimit, rfl⟩
  · rw [walk_eq, turn, hnone]
  · rw [walk_eq, turn, onward?_eq_some_iff.2 hleads]
    simp only [hlimit]

/-- Where a run goes on, it leaves what is left further on, after the events
of this visit. -/
theorem walk_of_leads (h : m.Leads mode s s') (hlimit : m.exceeds (count + 1) = none) :
    m.walk mode count s =
      (m.walk mode (count + 1) s').map (Ran.after (m.visit mode s).events) := by
  rw [walk_eq, turn, onward?_eq_some_iff.2 h]
  simp only [hlimit]
  cases m.walk mode (count + 1) s' <;> rfl

/-- A run takes a route on which no transition is past the limit, to a visit
with which it ends. -/
def Takes (m : Machine σ) (mode : Mode) (count : Nat) (s : Stop σ) (ran : Ran σ Result) : Prop :=
  ∃ passed last, m.Route mode s passed last ∧
    (∀ i < passed.length, m.exceeds (count + i + 1) = none) ∧
    m.EndsWith mode (count + passed.length) last (m.along mode passed last) ran

/-- A run that goes on takes the route further on, and this visit before. -/
theorem Takes.on (hleads : m.Leads mode s s') (hlimit : m.exceeds (count + 1) = none)
    (h : m.Takes mode (count + 1) s' ran) :
    m.Takes mode count s (ran.after (m.visit mode s).events) := by
  obtain ⟨passed, last, hroute, hwithin, hend⟩ := h
  refine ⟨s :: passed, last, .on hleads hroute, ?_, ?_⟩
  · rintro (_ | i) hi
    · exact hlimit
    · rw [show count + (i + 1) + 1 = count + 1 + i + 1 by omega]
      exact hwithin i (by simpa using hi)
  · rw [along_cons, List.length_cons,
      show count + (passed.length + 1) = count + 1 + passed.length by omega]
    exact endsWith_after_iff.2 ⟨ran, hend, rfl⟩

/-- A turn of the loop takes a route, if what is further on does. -/
theorem takes_of_turn {further : Nat → Stop σ → Option (Ran σ Result)}
    (ih : ∀ count s ran, further count s = some ran → m.Takes mode count s ran)
    (h : m.turn mode further count s = some ran) : m.Takes mode count s ran := by
  unfold turn at h
  cases hon : (m.visit mode s).onward? with
  | none =>
    simp only [hon, Option.some.injEq] at h
    exact ⟨[], s, .here s, by simp, .inl ⟨hon, h.symm⟩⟩
  | some s' =>
    have hleads : m.Leads mode s s' := onward?_eq_some_iff.1 hon
    cases hlimit : m.exceeds (count + 1) with
    | some limit =>
      simp only [hon, hlimit, Option.some.injEq] at h
      exact ⟨[], s, .here s, by simp, .inr ⟨s', limit, hleads, hlimit, h.symm⟩⟩
    | none =>
      simp only [hon, hlimit, bind, Option.bind_eq_some_iff] at h
      obtain ⟨rest, hrest, hran⟩ := h
      cases hran
      exact (ih _ _ _ hrest).on hleads hlimit

/-- **What a run from a stop on is.** It takes a route within the limit to a
visit with which it ends. -/
theorem walk_eq_some_iff : m.walk mode count s = some ran ↔ m.Takes mode count s ran := by
  constructor
  · -- a run that ends was unrolled finitely often, once for every visit
    cases mode with
    | sync =>
      exact walkSync.partial_correctness m (m.Takes .sync)
        (fun _ ih _ _ _ hran => takes_of_turn ih hran) count s ran
    | async =>
      exact walkAsync.partial_correctness m (m.Takes .async)
        (fun _ ih _ _ _ hran => takes_of_turn ih hran) count s ran
  · -- the loop follows any route within the limit, visit by visit
    rintro ⟨passed, last, hroute, hwithin, hend⟩
    induction hroute generalizing count ran with
    | here s => exact walk_of_endsWith hend
    | @on s s' last passed hleads _ ih =>
      have hlimit : m.exceeds (count + 1) = none := hwithin 0 (by simp)
      rw [along_cons, List.length_cons,
        show count + (passed.length + 1) = count + 1 + passed.length by omega] at hend
      obtain ⟨rest, hrest, rfl⟩ := endsWith_after_iff.1 hend
      rw [walk_of_leads hleads hlimit, ih (fun i hi => ?_) hrest]
      · rfl
      · rw [show count + 1 + i + 1 = count + (i + 1) + 1 by omega]
        exact hwithin (i + 1) (by simpa using hi)

/-- A machine takes the runs that another takes, if its visits on the way leave
the same and it has the same limit. -/
theorem takes_congr {m' : Machine σ} {mode' : Mode} {passed : List (Stop σ)} {last : Stop σ}
    (hlimit : m.limit = m'.limit) (hroute : m.Route mode s passed last)
    (hwithin : ∀ i < passed.length, m.exceeds (count + i + 1) = none)
    (hend : m.EndsWith mode (count + passed.length) last (m.along mode passed last) ran)
    (hvisit : ∀ t ∈ passed ++ [last], m.visit mode t = m'.visit mode' t) :
    m'.Takes mode' count s ran := by
  have hexceeds : m.exceeds = m'.exceeds := by
    funext k
    rw [exceeds, exceeds, hlimit]
  have hpassed : ∀ t ∈ passed, m.visit mode t = m'.visit mode' t :=
    fun t ht => hvisit t (List.mem_append_left _ ht)
  have hlast : m.visit mode last = m'.visit mode' last := hvisit last (by simp)
  have halong : m.along mode passed last = m'.along mode' passed last := by
    rw [along, along, hlast, eventsOf_congr hpassed]
  refine ⟨passed, last, route_congr hroute hpassed, hexceeds ▸ hwithin, ?_⟩
  rw [← halong]
  rcases hend with ⟨hnone, rfl⟩ | ⟨next, limit, hleads, hover, rfl⟩
  · exact .inl ⟨hlast ▸ hnone, rfl⟩
  · rw [← onward?_eq_some_iff, hlast, onward?_eq_some_iff] at hleads
    exact .inr ⟨next, limit, hleads, hexceeds ▸ hover, rfl⟩

/-- Without a limit a run ends where a visit leads nowhere, and leaves what
the visits up to there leave. -/
theorem walk_eq_some_iff_of_unlimited (h : m.limit = none) : m.walk mode count s = some ran ↔
    ∃ passed last, m.Route mode s passed last ∧ (m.visit mode last).onward? = none ∧
      ran = m.along mode passed last := by
  have hnone (k : Nat) : m.exceeds k = none := by simp [exceeds, h]
  rw [walk_eq_some_iff]
  constructor
  · rintro ⟨passed, last, hroute, -, ⟨hend, rfl⟩ | ⟨next, limit, -, hlimit, -⟩⟩
    · exact ⟨passed, last, hroute, hend, rfl⟩
    · rw [hnone] at hlimit
      cases hlimit
  · rintro ⟨passed, last, hroute, hend, rfl⟩
    exact ⟨passed, last, hroute, fun _ _ => hnone _, .inl ⟨hend, rfl⟩⟩

end Machine

/-! ## From the start -/

namespace Definition

variable {d : Definition} {name : String} {fault : Fault}

/-- A run of the definition starts with that state: it is named, by a name
that is not empty, and declared. -/
def StartsAt (d : Definition) (name : String) : Prop :=
  d.startAt = some name ∧ name ≠ "" ∧ name ∈ Entries.keys d.states

/-- The fault of a definition that says no state to start with. An empty name
is none. -/
def noStart (d : Definition) : Fault :=
  .missingStart ((d.startAt.filter (· ≠ "")).map Json.str)

/-- A run has somewhere to start or fails for want of it. -/
theorem start_cases (d : Definition) :
    (∃ name, d.StartsAt name ∧ d.start = .ok name) ∨
      ((∀ name, ¬ d.StartsAt name) ∧ d.start = .error d.noStart) := by
  unfold start noStart StartsAt
  rcases hs : d.startAt with _ | name
  · exact .inr ⟨by simp, rfl⟩
  · by_cases he : name = ""
    · subst he
      exact .inr ⟨by simp, rfl⟩
    · cases hk : Entries.has d.states name with
      | true =>
        refine .inl ⟨name, ⟨rfl, he, (Entries.get?_isSome_iff _ _).1 hk⟩, ?_⟩
        simp [hk]
      | false =>
        refine .inr ⟨?_, ?_⟩
        · rintro name' ⟨hname, -, hmem⟩
          obtain rfl := Option.some.inj hname
          rw [← Entries.get?_isSome_iff] at hmem
          exact absurd hmem (by simpa [Entries.has] using hk)
        · simp [hk, he, Option.filter_some]

/-- A run starts with one state only. -/
theorem StartsAt.unique {name' : String} (h : d.StartsAt name) (h' : d.StartsAt name') :
    name = name' :=
  Option.some.inj (h.1.symm.trans h'.1)

/-- A state that is not declared does not load. -/
theorem state_of_not_mem (h : name ∉ Entries.keys d.states) :
    d.program.state (.str name) = .error (.stateNotFound (.str name)) :=
  state_undeclared h

/-- What a program finds under a value is a state that the definition declares
under a name. -/
theorem exists_state_of_program {n : StateName} {st : State}
    (h : d.program.state n = .ok st) :
    ∃ name, n = .str name ∧ d.state name = .ok st := by
  cases n with
  | str name => exact ⟨name, rfl, h⟩
  | _ => cases h

section Run

variable {registry : Registry σ} {limit : Option Int} {mode : Mode} {document : Json} {world : σ}
  {ran : Ran σ Result}

/-- A run goes on from its start state. -/
theorem run_of_startsAt (h : d.StartsAt name) :
    (d.machine registry limit).run mode document world =
      (d.machine registry limit).walk mode 0 ⟨.str name, document, world⟩ := by
  rcases d.start_cases with ⟨name', hname', hstart⟩ | ⟨hno, -⟩
  · obtain rfl := h.unique hname'
    simp [Machine.run_eq, program, hstart, Except.map]
  · exact absurd h (hno name)

/-- A run without a start state does nothing. -/
theorem run_of_noStart (h : ∀ name, ¬ d.StartsAt name) :
    (d.machine registry limit).run mode document world =
      some ⟨.error d.noStart, [], world⟩ := by
  rcases d.start_cases with ⟨name, hname, -⟩ | ⟨-, hstart⟩
  · exact absurd hname (h name)
  · simp [Machine.run_eq, program, hstart, Except.map]

/-- A run that ends did not start, or it is a run from its start state on. -/
theorem run_eq_some_iff : (d.machine registry limit).run mode document world = some ran ↔
    ((∀ name, ¬ d.StartsAt name) ∧ ran = ⟨.error d.noStart, [], world⟩) ∨
      ∃ name, d.StartsAt name ∧
        (d.machine registry limit).walk mode 0 ⟨.str name, document, world⟩ = some ran := by
  by_cases h : ∃ name, d.StartsAt name
  · obtain ⟨name, hname⟩ := h
    rw [run_of_startsAt hname]
    constructor
    · exact fun hran => .inr ⟨name, hname, hran⟩
    · rintro (⟨hno, -⟩ | ⟨name', hname', hran⟩)
      · exact absurd hname (hno name)
      · rwa [hname.unique hname']
  · have hno : ∀ name, ¬ d.StartsAt name := fun name hname => h ⟨name, hname⟩
    rw [run_of_noStart hno]
    constructor
    · exact fun hran => .inl ⟨hno, (Option.some.inj hran).symm⟩
    · rintro (⟨-, rfl⟩ | ⟨name, hname, -⟩)
      · rfl
      · exact absurd hname (hno name)

/-- Without a limit a run that ends did not start, or it took a route from
its start state to a visit that leads nowhere. -/
theorem run_unlimited_eq_some_iff :
    (d.machine registry none).run mode document world = some ran ↔
    ((∀ name, ¬ d.StartsAt name) ∧ ran = ⟨.error d.noStart, [], world⟩) ∨
      ∃ name passed last, d.StartsAt name ∧
        (d.machine registry none).Route mode ⟨.str name, document, world⟩ passed last ∧
        ((d.machine registry none).visit mode last).onward? = none ∧
        ran = (d.machine registry none).along mode passed last := by
  rw [run_eq_some_iff]
  refine or_congr Iff.rfl (exists_congr fun name => ?_)
  rw [Machine.walk_eq_some_iff_of_unlimited rfl]
  constructor
  · rintro ⟨hname, passed, last, h⟩
    exact ⟨passed, last, hname, h⟩
  · rintro ⟨passed, last, hname, h⟩
    exact ⟨hname, passed, last, h⟩

/-- Without a limit a route from the start state to a visit that leads nowhere
is a run. -/
theorem run_of_route {passed : List (Stop σ)} {last : Stop σ} (hname : d.StartsAt name)
    (hroute : (d.machine registry none).Route mode ⟨.str name, document, world⟩ passed last)
    (hend : ((d.machine registry none).visit mode last).onward? = none) :
    (d.machine registry none).run mode document world =
      some ((d.machine registry none).along mode passed last) := by
  rw [run_unlimited_eq_some_iff]
  exact .inr ⟨name, passed, last, hname, hroute, hend, rfl⟩

/-- A visit to a state that is not declared finds none, and calls nothing. -/
theorem visit_of_not_mem (h : name ∉ Entries.keys d.states) :
    (d.machine registry limit).visit mode ⟨.str name, document, world⟩ =
      ⟨.error (.stateNotFound (.str name)), [.reached (.str name)], world⟩ :=
  Machine.visit_of_error (state_of_not_mem h)

end Run

/-- **A whole run is a chain of single steps.** Without a limit a run yields
a result exactly if it has a state to start with and a chain of visits goes
from there, each leading on to the next, to one that yields this result and
ends the run. It raises a fault exactly if it has no state to start with, and
then nothing is called, or such a chain comes to a visit that raises this
fault; so a next state that is not declared is not found, and no start state
is missed. The calls of the run are those of the visits, in order. -/
theorem run_iff_route (d : Definition) (registry : Registry σ) (mode : Mode) (document : Json)
    (world : σ) :
    (∀ r calls,
      (∃ ran, (d.machine registry none).run mode document world = some ran ∧
        ran.outcome = .ok r ∧ ran.calls = calls) ↔
      ∃ name passed last, d.StartsAt name ∧
        (d.machine registry none).Route mode ⟨.str name, document, world⟩ passed last ∧
        ((d.machine registry none).visit mode last).outcome = .ok r ∧ r.terminal = true ∧
        calls = (d.machine registry none).callsOf mode (passed ++ [last])) ∧
    (∀ fault calls,
      (∃ ran, (d.machine registry none).run mode document world = some ran ∧
        ran.outcome = .error fault ∧ ran.calls = calls) ↔
      ((∀ name, ¬ d.StartsAt name) ∧ fault = d.noStart ∧ calls = []) ∨
      ∃ name passed last, d.StartsAt name ∧
        (d.machine registry none).Route mode ⟨.str name, document, world⟩ passed last ∧
        ((d.machine registry none).visit mode last).outcome = .error fault ∧
        calls = (d.machine registry none).callsOf mode (passed ++ [last])) ∧
    (∀ name passed last next data world', d.StartsAt name →
      (d.machine registry none).Route mode ⟨.str name, document, world⟩ passed last →
      (d.machine registry none).Leads mode last ⟨.str next, data, world'⟩ →
      next ∉ Entries.keys d.states →
      ∃ ran, (d.machine registry none).run mode document world = some ran ∧
        ran.outcome = .error (.stateNotFound (.str next)) ∧
        ran.calls = (d.machine registry none).callsOf mode (passed ++ [last])) := by
  refine ⟨?_, ?_, ?_⟩
  · intro r calls
    constructor
    · rintro ⟨ran, hran, hr, rfl⟩
      rcases run_unlimited_eq_some_iff.1 hran with
        ⟨-, rfl⟩ | ⟨name, passed, last, hname, hroute, hend, rfl⟩
      · cases hr
      · have hterminal : r.terminal = true := Machine.onward?_eq_none_iff.1 hend r hr
        exact ⟨name, passed, last, hname, hroute, hr, hterminal, Machine.calls_along _ _⟩
    · rintro ⟨name, passed, last, hname, hroute, hr, hterminal, rfl⟩
      have hend := Machine.onward?_of_terminal hr hterminal
      exact ⟨_, run_of_route hname hroute hend, hr, Machine.calls_along _ _⟩
  · intro fault calls
    constructor
    · rintro ⟨ran, hran, hfault, rfl⟩
      rcases run_unlimited_eq_some_iff.1 hran with
        ⟨hno, rfl⟩ | ⟨name, passed, last, hname, hroute, -, rfl⟩
      · cases hfault
        exact .inl ⟨hno, rfl, rfl⟩
      · exact .inr ⟨name, passed, last, hname, hroute, hfault, Machine.calls_along _ _⟩
    · rintro (⟨hno, rfl, rfl⟩ | ⟨name, passed, last, hname, hroute, hfault, rfl⟩)
      · exact ⟨_, run_of_noStart hno, rfl, rfl⟩
      · have hend := Machine.onward?_of_error hfault
        exact ⟨_, run_of_route hname hroute hend, hfault, Machine.calls_along _ _⟩
  · intro name passed last next data world' hname hroute hleads hnext
    -- the chain takes one visit more, to a state that is not there
    have hvisit : (d.machine registry none).visit mode ⟨.str next, data, world'⟩ =
        ⟨.error (.stateNotFound (.str next)), [.reached (.str next)], world'⟩ :=
      visit_of_not_mem hnext
    have hfault : ((d.machine registry none).visit mode ⟨.str next, data, world'⟩).outcome =
        .error (.stateNotFound (.str next)) := by rw [hvisit]
    have hend := Machine.onward?_of_error hfault
    refine ⟨_, run_of_route hname (hroute.concat hleads) hend, hfault, ?_⟩
    rw [Machine.calls_along]
    simp [Machine.callsOf, hvisit, Ran.calls, Event.call?]

end Definition

end Workflow
