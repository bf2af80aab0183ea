import Workflow.Proofs.Execution
import Workflow.Proofs.Trail
/-!
# Workflow — visits

A visit runs the one state before which a run stands. It enters that state
and no other (`Machine.entered_visit`), and where it leads is settled by the
state that is loaded (`Machine.result_of_visit`). A route is a trail of
visits, each of which leads on to the next.
-/

namespace Workflow

variable {σ : Type}

/-! ## Views of the events -/

/-- The move to another state that an event is. -/
def Event.move? : Event → Option (StateName × String)
  | moved name next => some (name, next)
  | _ => none

/-- The moves to other states that were made. -/
def Ran.moves {α : Type} (ran : Ran σ α) : List (StateName × String) :=
  ran.events.filterMap Event.move?

@[simp] theorem Ran.moves_after {α : Type} (events : List Event) (ran : Ran σ α) :
    (ran.after events).moves = events.filterMap Event.move? ++ ran.moves := by
  simp [moves, after]

/-- Work reaches no state. -/
theorem Event.filterMap_reached?_of_isWork {events : List Event}
    (h : ∀ e ∈ events, e.isWork = true) : events.filterMap reached? = [] := by
  refine List.filterMap_eq_nil_iff.2 fun e he => ?_
  have hwork := h e he
  cases e <;> first | rfl | cases hwork

/-- Work moves to no state. -/
theorem Event.filterMap_move?_of_isWork {events : List Event}
    (h : ∀ e ∈ events, e.isWork = true) : events.filterMap move? = [] := by
  refine List.filterMap_eq_nil_iff.2 fun e he => ?_
  have hwork := h e he
  cases e <;> first | rfl | cases hwork

namespace State

variable {s : State} {registry : Registry σ} {mode : Mode} {name : StateName} {document : Json}
  {world : σ} {r : Result} {fault : Fault}

/-- Executing a state reaches no other. -/
theorem entered_execute : (s.execute registry mode name document world).entered = [] := by
  rcases s.execute_cases registry mode name document world with
    ⟨fault, events, world', hexec, hwork, -⟩ | ⟨data, events, world', hexec, hwork⟩
  · rw [hexec]
    exact Event.filterMap_reached?_of_isWork hwork
  · rw [hexec, Ran.entered_after, Event.filterMap_reached?_of_isWork hwork]
    rcases s.conclude_cases name data world' with ⟨-, hc⟩ | ⟨next, -, hc⟩ | ⟨-, -, hc⟩ <;>
      rw [hc] <;> rfl

/-- **What a state that runs comes to.** It is settled by the state alone:
either it ends the run, and makes no move, or it leads on, and moves there. -/
theorem result_of_execute
    (h : (s.execute registry mode name document world).outcome = .ok r) :
    ∃ data, (s.isTerminal = true ∧ r = .final data s.type.name ∧
        (s.execute registry mode name document world).moves = []) ∨
      ∃ next, s.LeadsTo next ∧ r = .step data s.type.name next ∧
        (s.execute registry mode name document world).moves = [(name, next)] := by
  rcases s.execute_cases registry mode name document world with
    ⟨fault, events, world', hexec, -, -⟩ | ⟨data, events, world', hexec, hwork⟩
  · rw [hexec] at h
    cases h
  · refine ⟨data, ?_⟩
    rw [hexec] at h
    rw [hexec, Ran.moves_after, Event.filterMap_move?_of_isWork hwork]
    rcases s.conclude_cases name data world' with ⟨ht, hc⟩ | ⟨next, hn, hc⟩ | ⟨-, -, hc⟩ <;>
      rw [hc] at h ⊢ <;> cases h
    · exact .inl ⟨ht, rfl, rfl⟩
    · exact .inr ⟨next, hn, rfl, rfl⟩

/-- A fault of executing a state is the state's own or a resource raised it
that was called. -/
theorem fault_of_execute
    (h : (s.execute registry mode name document world).outcome = .error fault) :
    fault.Own (.noNext :: Family.ofWork) s.Follows ∨
      ∃ call ∈ (s.execute registry mode name document world).calls,
        registry.Raises mode world call fault := by
  rcases s.execute_cases registry mode name document world with
    ⟨fault', events, world', hexec, -, hblame⟩ | ⟨data, events, world', hexec, -⟩
  · rw [hexec] at h ⊢
    cases h
    exact hblame.imp (fun hown => hown.families (List.subset_cons_self _ _)) id
  · rw [hexec] at h
    rcases s.conclude_cases name data world' with ⟨-, hc⟩ | ⟨next, -, hc⟩ | ⟨-, -, hc⟩ <;>
      rw [hc] at h <;> cases h
    exact .inl (.inl List.mem_cons_self)

end State

namespace Machine

variable {m : Machine σ} {mode : Mode} {s s' : Stop σ} {st : State} {r : Result} {fault : Fault}

/-! ## Visits -/

/-- A state that does not load is all that a visit finds. -/
theorem visit_of_error (h : m.program.state s.name = .error fault) :
    m.visit mode s = ⟨.error fault, [.reached s.name], s.world⟩ := by
  simp [visit, runState_eq, h, Ran.after]

/-- A state that loads is executed. -/
theorem visit_of_ok (h : m.program.state s.name = .ok st) :
    m.visit mode s = (st.execute m.registry mode s.name s.document s.world).after
      [.reached s.name, .entering st.type s.name] := by
  simp [visit, runState_eq, h]

/-- Of a program a visit looks at its own state. -/
theorem visit_congr_state {program program' : Program} {registry : Registry σ} {limit : Option Int}
    (h : program.state s.name = program'.state s.name) :
    (⟨program, registry, limit⟩ : Machine σ).visit mode s =
      (⟨program', registry, limit⟩ : Machine σ).visit mode s := by
  simp only [visit, runState_eq, h]

/-- **A visit enters its own state and no other.** -/
@[simp] theorem entered_visit : (m.visit mode s).entered = [s.name] := by
  cases h : m.program.state s.name with
  | error fault =>
    rw [visit_of_error h]
    rfl
  | ok st =>
    rw [visit_of_ok h, Ran.entered_after, State.entered_execute]
    rfl

/-- **Where a visit leads is settled by the state that is loaded.** -/
theorem result_of_visit (h : (m.visit mode s).outcome = .ok r) :
    ∃ st data, m.program.state s.name = .ok st ∧
      ((st.isTerminal = true ∧ r = .final data st.type.name ∧ (m.visit mode s).moves = []) ∨
        ∃ next, st.LeadsTo next ∧ r = .step data st.type.name next ∧
          (m.visit mode s).moves = [(s.name, next)]) := by
  cases hst : m.program.state s.name with
  | error fault =>
    rw [visit_of_error hst] at h
    cases h
  | ok st =>
    rw [visit_of_ok hst] at h ⊢
    obtain ⟨data, hres⟩ := State.result_of_execute h
    exact ⟨st, data, rfl, hres⟩

/-- A visit fails where the state does not load, at the state's own work or
by a resource that it called. -/
theorem fault_of_visit (h : (m.visit mode s).outcome = .error fault) :
    m.program.state s.name = .error fault ∨
      (∃ st, m.program.state s.name = .ok st ∧
        fault.Own (.noNext :: Family.ofWork) st.Follows) ∨
      ∃ call ∈ (m.visit mode s).calls, m.registry.Raises mode s.world call fault := by
  cases hst : m.program.state s.name with
  | error fault' =>
    rw [visit_of_error hst] at h
    cases h
    exact .inl rfl
  | ok st =>
    rw [visit_of_ok hst] at h ⊢
    rcases State.fault_of_execute h with hown | ⟨call, hcall, hraise⟩
    · exact .inr (.inl ⟨st, rfl, hown⟩)
    · refine .inr (.inr ⟨call, ?_, hraise⟩)
      rw [Ran.calls_after]
      exact List.mem_append_right _ hcall

/-! ## Routes -/

/-- A visit yields a result that does not end the run, and the other stop is
before the next state of that result, with its data. -/
def Leads (m : Machine σ) (mode : Mode) (s s' : Stop σ) : Prop :=
  ∃ r next, (m.visit mode s).outcome = .ok r ∧ r.terminal = false ∧ r.next = some next ∧
    s' = ⟨.str next, r.data, (m.visit mode s).world⟩

/-- A route: visits each of which leads on to the next. -/
abbrev Route (m : Machine σ) (mode : Mode) : Stop σ → List (Stop σ) → Stop σ → Prop :=
  Trail (m.Leads mode)

/-- A visit leads where a run goes on. -/
theorem onward?_eq_some_iff : (m.visit mode s).onward? = some s' ↔ m.Leads mode s s' := by
  unfold Ran.onward? Leads Result.successor
  cases (m.visit mode s).outcome with
  | error fault => simp
  | ok r =>
    simp only [Option.map_eq_some_iff, Except.ok.injEq]
    constructor
    · rintro ⟨next, hn, rfl⟩
      cases ht : r.terminal with
      | true => simp [ht] at hn
      | false => exact ⟨r, next, rfl, ht, by simpa [ht] using hn, rfl⟩
    · rintro ⟨r', next, rfl, ht, hn, rfl⟩
      exact ⟨next, by simp [ht, hn], rfl⟩

/-- A visit leads nowhere exactly if it fails or ends the run. -/
theorem onward?_eq_none_iff : (m.visit mode s).onward? = none ↔
    ∀ r, (m.visit mode s).outcome = .ok r → r.terminal = true := by
  unfold Ran.onward?
  cases (m.visit mode s).outcome with
  | error fault => simp
  | ok r => simp [Result.successor_eq_none_iff]

/-- A visit that fails leads nowhere. -/
theorem onward?_of_error (h : (m.visit mode s).outcome = .error fault) :
    (m.visit mode s).onward? = none :=
  onward?_eq_none_iff.2 fun r hr => by
    rw [h] at hr
    cases hr

/-- Nor does one that ends the run. -/
theorem onward?_of_terminal (h : (m.visit mode s).outcome = .ok r) (hr : r.terminal = true) :
    (m.visit mode s).onward? = none :=
  onward?_eq_none_iff.2 fun r' hr' => by rwa [Except.ok.inj (hr'.symm.trans h)]

/-- A machine takes a route that another takes, if its visits on the way leave
the same. -/
theorem route_congr {m' : Machine σ} {mode' : Mode} {passed : List (Stop σ)} {last : Stop σ}
    (h : m.Route mode s passed last)
    (hvisit : ∀ t ∈ passed, m.visit mode t = m'.visit mode' t) :
    m'.Route mode' s passed last := by
  induction h with
  | here s => exact .here s
  | @on s s' last passed hleads _ ih =>
    obtain ⟨hs, hpassed⟩ := List.forall_mem_cons.1 hvisit
    have hleads' : m'.Leads mode' s s' := by
      rw [← onward?_eq_some_iff] at hleads ⊢
      rw [← hs, hleads]
    exact .on hleads' (ih hpassed)

/-- There is one way to go on. -/
theorem rightUnique_leads : Relator.RightUnique (m.Leads mode) := by
  intro s s₁ s₂ h₁ h₂
  rw [← onward?_eq_some_iff] at h₁ h₂
  exact Option.some.inj (h₁.symm.trans h₂)

end Machine

end Workflow
