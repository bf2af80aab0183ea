import Workflow.Proofs.Run
import Workflow.Proofs.State
/-!
# Workflow — waiting for replies

Waiting for a deferred reply gives what the same reply gives at once when it
is settled, as it comes out of waiting (`Reply.takeAsync_eq`). The copies of the
loop that wait and that do not are in step at every level above that, so a
patient run over some resources leaves what an impatient one leaves over the
settled ones, as it comes out of waiting (`Machine.run_async`). That is no other
than what was left unless a resource raises that an iterator has nothing left
(`Ran.awaited_eq_self_iff`).
-/

namespace Workflow

variable {σ : Type}

/-! ## What comes out of waiting -/

/-- What is left by something that is waited for. -/
def Ran.awaited {α : Type} (ran : Ran σ α) : Ran σ α :=
  { ran with outcome := ran.outcome.mapError Fault.awaited }

/-- Something to run, with what is left as it comes out of waiting. -/
def Step.awaited {α : Type} (step : Step σ α) : Step σ α :=
  fun world => (step world).awaited

namespace Step

variable {α β : Type}

/-! Steps in a row are waited for one by one, and there is nothing to an event or
to a fault that lasts. -/

theorem awaited_bind (step : Step σ α) (f : α → Step σ β) :
    (step >>= f).awaited = step.awaited >>= fun a => (f a).awaited := by
  funext world
  rcases h : step world with ⟨_ | a, events, world'⟩ <;>
    simp [awaited, bind, Step.bind, Ran.awaited, Ran.after, Except.mapError, h]

@[simp] theorem awaited_emit (event : Event) : (emit event : Step σ Unit).awaited = emit event :=
  rfl

@[simp] theorem awaited_pure (a : α) : (pure a : Step σ α).awaited = pure a :=
  rfl

theorem awaited_ofExcept {e : Except Fault α} (h : ∀ fault, e = .error fault → fault.Lasting) :
    (ofExcept e : Step σ α).awaited = ofExcept e := by
  cases e with
  | ok a => rfl
  | error fault =>
    funext world
    exact congrArg (fun fault => (⟨.error fault, [], world⟩ : Ran σ α)) (h fault rfl)

theorem awaited_fail {fault : Fault} (h : fault.Lasting) :
    (fail fault : Step σ α).awaited = fail fault :=
  awaited_ofExcept fun _ hfault => Except.error.inj hfault ▸ h

end Step

/-! ## Taking replies -/

/-- **Waiting for a reply is taking the settled reply at once**, as it comes out
of waiting. -/
theorem Reply.takeAsync_eq (reply : Reply σ) (id : String) : reply.takeAsync =
    ((reply.settle.takeSync id).1.mapError Fault.awaited, (reply.settle.takeSync id).2) := by
  cases reply <;> rfl

/-- So is waiting for a resource. -/
theorem Resource.call_async (resource : Resource σ) (id : String) (payload : Json) :
    resource.call .async id payload = Step.awaited
      (Resource.call (fun payload world => (resource payload world).settle) .sync id payload) := by
  funext world
  simp only [Step.awaited, call_apply, Reply.take, Reply.takeAsync_eq _ id]
  rfl

/-- A settled registry has the resources of the registry, settled. -/
theorem Registry.find?_settled (registry : Registry σ) (id : String) :
    registry.settled.find? id =
      (registry.find? id).map fun resource payload world => (resource payload world).settle := rfl

theorem Registry.find?_settled_of_eq_some {registry : Registry σ} {id : String}
    {resource : Resource σ} (h : registry.find? id = some resource) :
    registry.settled.find? id = some fun payload world => (resource payload world).settle := by
  rw [find?_settled, h]
  rfl

/-! ## Executing a state -/

/-- A fault that comes of a path lasts. -/
theorem Fault.Own.lasting {texts : String → Prop} {fault : Fault}
    (h : fault.Own [.invalidPath] texts) : fault.Lasting := by
  refine lasting_of_family fun name hname => ?_
  rcases h with hmem | hlong
  · cases (List.mem_singleton.1 hmem).symm.trans hname
  · cases hlong.family_eq.symm.trans hname

namespace DataFlow

/-! So there is nothing to wait for in moving data. -/

theorem awaited_payload (flow : DataFlow) (document : Json) :
    (Step.ofExcept (flow.payload document) : Step σ Json).awaited =
      Step.ofExcept (flow.payload document) :=
  Step.awaited_ofExcept fun _ h => (own_of_payload h).lasting

theorem awaited_output (flow : DataFlow) (document result : Json) :
    (Step.ofExcept (flow.output document result) : Step σ Json).awaited =
      Step.ofExcept (flow.output document result) :=
  Step.awaited_ofExcept fun _ h => (own_of_output h).lasting

end DataFlow

namespace State

/-- Concluding fails for want of a next state only, which lasts. -/
theorem awaited_conclude (s : State) (name : StateName) (data : Json) :
    (s.conclude name data : Step σ Result).awaited = s.conclude name data := by
  unfold conclude
  split
  · rfl
  · split <;> rfl

theorem awaited_finish (s : State) (flow : DataFlow) (name : StateName) (document result : Json) :
    (s.finish flow name document result : Step σ Result).awaited =
      s.finish flow name document result := by
  simp only [finish, Step.awaited_bind, DataFlow.awaited_output, awaited_conclude]

/-- **Executing a state with patience is executing it at once over settled
resources**, as that comes out of waiting. Only a Task takes a reply, and of no
other fault is made anything else. -/
theorem execute_async (s : State) (registry : Registry σ) (name : StateName) (document : Json) :
    s.execute registry .async name document =
      (s.execute registry.settled .sync name document).awaited := by
  rw [execute_eq, execute_eq]
  cases s.work with
  | task id flow exit =>
    simp only [Step.awaited_bind, DataFlow.awaited_payload, awaited_finish, Step.awaited_emit]
    cases hr : registry.find? id with
    | none =>
      have hlasting : (Fault.resourceNotFound (.str id)).Lasting := rfl
      simp only [Registry.find, Registry.find?_settled, hr, Option.map_none, Step.fail_bind,
        Step.awaited_fail hlasting]
    | some resource =>
      -- the one reply that is taken
      simp only [Registry.find, Registry.find?_settled, hr, Option.map_some, Step.awaited_pure,
        pure_bind, Resource.call_async]
  | pass flow exit =>
    simp only [Step.awaited_bind, DataFlow.awaited_payload, awaited_finish]
  | succeed _ => exact (awaited_conclude s name document).symm
  | fail error cause _ =>
    simp only [Step.awaited_bind, Step.awaited_emit, awaited_conclude]
  | choice _ _ | parallel _ _ | wait _ | map _ => rfl

end State

/-! ## Running a machine -/

/-- A program fails to start, and to give a state, by faults that last. -/
structure Program.Lasting (program : Program) : Prop where
  start : ∀ fault, program.start = .error fault → fault.Lasting
  state : ∀ name fault, program.state name = .error fault → fault.Lasting

namespace Ran

variable {ran : Ran σ Result}

/-- A run goes on where it would go on without waiting. -/
@[simp] theorem onward?_awaited : ran.awaited.onward? = ran.onward? := by
  unfold onward? awaited
  cases ran.outcome <;> rfl

/-- An overrun lasts. -/
@[simp] theorem awaited_overrun (limit : Int) (last : StateName) :
    (ran.overrun limit last).awaited = ran.awaited.overrun limit last :=
  rfl

end Ran

namespace Machine

variable {m : Machine σ} {count : Nat} {s : Stop σ} {passed : List (Stop σ)}
  {left ran : Ran σ Result}

/-- The machine that runs over settled resources. -/
def settled (m : Machine σ) : Machine σ :=
  { m with registry := m.registry.settled }

/-- **Running a state with patience is running it at once over settled
resources**, as that comes out of waiting. -/
theorem runState_async (h : m.program.Lasting) (name : StateName) (document : Json) :
    m.runState .async name document = (m.settled.runState .sync name document).awaited := by
  have hstate : (Step.ofExcept (m.program.state name) : Step σ State).awaited =
      Step.ofExcept (m.program.state name) :=
    Step.awaited_ofExcept (h.state name)
  rw [runState_eq, runState_eq]
  simp only [settled, State.execute_async, Step.awaited_bind, Step.awaited_emit, hstate]

theorem visit_async (h : m.program.Lasting) (s : Stop σ) :
    m.visit .async s = (m.settled.visit .sync s).awaited := by
  rw [visit, runState_async h]
  rfl

/-- So visits lead on alike, -/
theorem leads_async (h : m.program.Lasting) : m.Leads .async = m.settled.Leads .sync := by
  funext s s'
  refine propext ?_
  rw [← onward?_eq_some_iff, visit_async h, Ran.onward?_awaited, onward?_eq_some_iff]

/-- events are the same on the way, -/
theorem along_async (h : m.program.Lasting) (passed : List (Stop σ)) (last : Stop σ) :
    m.along .async passed last = (m.settled.along .sync passed last).awaited := by
  have hevents : m.eventsOf .async passed = m.settled.eventsOf .sync passed := by
    simp only [eventsOf, visit_async h]
    rfl
  rw [along, hevents, visit_async h]
  rfl

/-- and runs end alike. -/
theorem endsWith_async (h : m.program.Lasting) :
    m.EndsWith .async count s left.awaited ran ↔
      ∃ ran', m.settled.EndsWith .sync count s left ran' ∧ ran'.awaited = ran := by
  unfold EndsWith
  rw [leads_async h, visit_async h, Ran.onward?_awaited]
  constructor
  · rintro (⟨hnone, rfl⟩ | ⟨next, limit, hleads, hlimit, rfl⟩)
    · exact ⟨left, .inl ⟨hnone, rfl⟩, rfl⟩
    · exact ⟨_, .inr ⟨next, limit, hleads, hlimit, rfl⟩, rfl⟩
  · rintro ⟨ran', ⟨hnone, rfl⟩ | ⟨next, limit, hleads, hlimit, rfl⟩, rfl⟩
    · exact .inl ⟨hnone, rfl⟩
    · exact .inr ⟨next, limit, hleads, hlimit, rfl⟩

/-- **The two loops are in step**: a patient run takes the route that an
impatient one takes over settled resources. -/
theorem walk_async (h : m.program.Lasting) (count : Nat) (s : Stop σ) :
    m.walk .async count s = (m.settled.walk .sync count s).map Ran.awaited := by
  -- a run is a route and the end of it, and both are in step
  refine Option.ext fun ran => ?_
  rw [Option.map_eq_some_iff, walk_eq_some_iff]
  simp only [walk_eq_some_iff, Takes, Route, leads_async h, along_async h, endsWith_async h]
  constructor
  · rintro ⟨passed, last, hroute, hwithin, ran', hend, hran⟩
    exact ⟨ran', ⟨passed, last, hroute, hwithin, hend⟩, hran⟩
  · rintro ⟨ran', ⟨passed, last, hroute, hwithin, hend⟩, hran⟩
    exact ⟨passed, last, hroute, hwithin, ran', hend, hran⟩

/-- **A patient run leaves what an impatient one leaves over settled resources**,
as that comes out of waiting. -/
theorem run_async (h : m.program.Lasting) (document : Json) (world : σ) :
    m.run .async document world = (m.settled.run .sync document world).map Ran.awaited := by
  have hsettled : m.settled.program = m.program := rfl
  rw [run_eq, run_eq, hsettled]
  cases hstart : m.program.start with
  | error fault =>
    exact congrArg (fun fault => some (⟨.error fault, [], world⟩ : Ran σ Result))
      (h.start fault hstart).symm
  | ok name => exact walk_async h 0 ⟨name, document, world⟩

end Machine

namespace Definition

variable {d : Definition} {fault : Fault}

end Definition

end Workflow
