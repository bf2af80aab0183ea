import Mathlib.Data.List.Infix
import Workflow.Proofs.Run
/-!
# Workflow — the limit on transitions

A run under a limit and the run without one take the same route, which does
not look at the limit. `Machine.walk_limited` follows it as far as the limit
lets it: either the route has come to its end by then, and the limit makes no
difference, or the run ends after the state from which there is one
transition too many.
-/

namespace Workflow

variable {σ : Type}

namespace Machine

variable {m : Machine σ} {mode : Mode} {s : Stop σ} {n : Int}

/-- The states that a run under a limit enters at most. A negative limit is
as good as zero. -/
def reach (n : Int) : Nat :=
  n.toNat + 1

/-- A route goes on until it has left some number of stops, unless it comes
to an end before. -/
theorem exists_route_length_le (m : Machine σ) (mode : Mode) (s : Stop σ) (k : Nat) :
    ∃ passed last, m.Route mode s passed last ∧ passed.length ≤ k ∧
      (passed.length = k ∨ (m.visit mode last).onward? = none) := by
  induction k with
  | zero => exact ⟨[], s, .here s, Nat.le_refl 0, .inl rfl⟩
  | succ k ih =>
    obtain ⟨passed, last, hroute, hle, hlast⟩ := ih
    -- the route so far is at its end or takes one visit more
    cases hon : (m.visit mode last).onward? with
    | none => exact ⟨passed, last, hroute, by omega, .inr hon⟩
    | some next =>
      have hk : passed.length = k := hlast.resolve_right (by simp [hon])
      refine ⟨passed ++ [last], next, hroute.concat (onward?_eq_some_iff.1 hon), ?_, .inl ?_⟩ <;>
        simp [hk]

/-- A number of transitions up to the limit is not past it. -/
theorem exceeds_eq_none (hlimit : m.limit = some n) {k : Nat} (hk : k ≤ n.toNat) (hpos : 0 < k) :
    m.exceeds k = none := by
  simp only [exceeds, hlimit, Option.filter_some, ite_eq_right_iff, decide_eq_true_eq]
  omega

/-- One transition more is past it. -/
theorem exceeds_succ_toNat (hlimit : m.limit = some n) : m.exceeds (n.toNat + 1) = some n := by
  simp only [exceeds, hlimit, Option.filter_some, ite_eq_left_iff, decide_eq_true_eq]
  omega

/-- **A run under a limit follows its route as far as the limit lets it.** -/
theorem walk_limited (hlimit : m.limit = some n) (mode : Mode) (s : Stop σ) :
    ∃ passed last, m.Route mode s passed last ∧ passed.length < reach n ∧
      ((m.visit mode last).onward? = none ∧
          m.walk mode 0 s = some (m.along mode passed last) ∨
        passed.length + 1 = reach n ∧ ∃ next, m.Leads mode last next ∧
          m.walk mode 0 s = some ((m.along mode passed last).overrun n last.name)) := by
  obtain ⟨passed, last, hroute, hle, hlast⟩ := m.exists_route_length_le mode s n.toNat
  have hwithin : ∀ i < passed.length, m.exceeds (0 + i + 1) = none := fun i hi =>
    exceeds_eq_none hlimit (by omega) (by omega)
  refine ⟨passed, last, hroute, Nat.lt_succ_of_le hle, ?_⟩
  cases hon : (m.visit mode last).onward? with
  | none =>
    exact .inl ⟨rfl, walk_eq_some_iff.2 ⟨passed, last, hroute, hwithin, .inl ⟨hon, rfl⟩⟩⟩
  | some next =>
    have hn : passed.length = n.toNat := hlast.resolve_right (by simp [hon])
    have hleads : m.Leads mode last next := onward?_eq_some_iff.1 hon
    have hover : m.exceeds (0 + passed.length + 1) = some n := by
      rw [hn, Nat.zero_add]
      exact exceeds_succ_toNat hlimit
    exact .inr ⟨by rw [hn, reach], next, hleads, walk_eq_some_iff.2
      ⟨passed, last, hroute, hwithin, .inr ⟨next, n, hleads, hover, rfl⟩⟩⟩

/-- A route that goes on is shorter than any that comes to an end. -/
theorem length_lt_of_leads {passed passed' : List (Stop σ)} {last last' next : Stop σ}
    (h : m.Route mode s passed last) (hleads : m.Leads mode last next)
    (h' : m.Route mode s passed' last') (hend : (m.visit mode last').onward? = none) :
    passed.length < passed'.length := by
  have hdead : ∀ x, ¬ m.Leads mode last' x := fun x hx => by
    rw [onward?_eq_some_iff.2 hx] at hend
    cases hend
  obtain ⟨rest, rfl, -⟩ := h'.split_of_dead_end rightUnique_leads hdead (h.concat hleads)
  simp only [List.length_append, List.length_cons]
  omega

/-- The visits of a route show in every longer one. -/
theorem along_prefix_of_length_le {passed passed' : List (Stop σ)} {last last' : Stop σ}
    (h : m.Route mode s passed last) (h' : m.Route mode s passed' last')
    (hle : passed.length ≤ passed'.length) :
    (m.along mode passed last).entered <+: (m.along mode passed' last').entered ∧
      (m.along mode passed last).calls <+: (m.along mode passed' last').calls := by
  have hstops : passed ++ [last] <+: passed' ++ [last'] :=
    h.prefix_of_length_le rightUnique_leads h' hle
  rw [entered_along, entered_along, calls_along, calls_along]
  exact ⟨hstops.map _, hstops.flatMap _⟩

/-- A route has entered one state more than it has left. -/
theorem length_entered_along (passed : List (Stop σ)) (last : Stop σ) :
    (m.along mode passed last).entered.length = passed.length + 1 := by
  rw [entered_along, List.length_map, List.length_append, List.length_singleton]

end Machine

namespace Definition

section Limited

variable {d : Definition} {registry : Registry σ} {mode : Mode} {n : Int} {document : Json}
  {world : σ} {ran whole : Ran σ Result} {name : String} {passed : List (Stop σ)}
  {last : Stop σ}

/-- What a run under a limit comes to. It is the run without one, if that
enters no more states than the limit lets it; or it has entered as many, and
the last of them leads on. -/
def Limited (d : Definition) (registry : Registry σ) (mode : Mode) (n : Int) (document : Json)
    (world : σ) (ran : Ran σ Result) : Prop :=
  ((d.machine registry none).run mode document world = some ran ∧
      ran.entered.length ≤ Machine.reach n) ∨
    ∃ name passed last next, d.StartsAt name ∧
      (d.machine registry none).Route mode ⟨.str name, document, world⟩ passed last ∧
      passed.length + 1 = Machine.reach n ∧
      (d.machine registry none).Leads mode last next ∧
      ran = ((d.machine registry none).along mode passed last).overrun n last.name

/-- **A run under a limit always ends**, in one of these ways. -/
theorem exists_limited (d : Definition) (registry : Registry σ) (mode : Mode) (n : Int)
    (document : Json) (world : σ) :
    ∃ ran, (d.machine registry (some n)).run mode document world = some ran ∧
      d.Limited registry mode n document world ran := by
  by_cases hstart : ∃ name, d.StartsAt name
  · obtain ⟨name, hname⟩ := hstart
    have hrun : (d.machine registry (some n)).run mode document world =
        (d.machine registry (some n)).walk mode 0 ⟨.str name, document, world⟩ :=
      run_of_startsAt hname
    -- neither the routes nor the visits look at the limit
    obtain ⟨passed, last, hroute, hlt, ⟨hend, hwalk⟩ | ⟨hlen, next, hleads, hwalk⟩⟩ :=
      Machine.walk_limited (m := d.machine registry (some n)) rfl mode ⟨.str name, document, world⟩
    · refine ⟨_, hrun.trans hwalk, .inl ⟨?_, ?_⟩⟩
      · exact run_of_route hname hroute hend
      · rw [Machine.length_entered_along]
        exact hlt
    · exact ⟨_, hrun.trans hwalk, .inr ⟨name, passed, last, next, hname, hroute, hlen, hleads, rfl⟩⟩
  · have hno : ∀ name, ¬ d.StartsAt name := fun name hname => hstart ⟨name, hname⟩
    exact ⟨_, run_of_noStart hno, .inl ⟨run_of_noStart hno, Nat.zero_le _⟩⟩

namespace Limited

/-- It enters no more states than the limit lets it. -/
theorem length_entered_le (h : d.Limited registry mode n document world ran) :
    ran.entered.length ≤ Machine.reach n := by
  rcases h with ⟨-, hle⟩ | ⟨name, passed, last, next, -, -, hlen, -, rfl⟩
  · exact hle
  · have hentered : ((d.machine registry none).along mode passed last).entered.length =
        passed.length + 1 := Machine.length_entered_along passed last
    exact (hentered.trans hlen).le

/-- A route that enters at least as many begins as it does. -/
theorem prefix_of_route (h : d.Limited registry mode n document world ran)
    (hname : d.StartsAt name)
    (hroute : (d.machine registry none).Route mode ⟨.str name, document, world⟩ passed last)
    (hle : Machine.reach n ≤ passed.length + 1) :
    ran.entered <+: ((d.machine registry none).along mode passed last).entered ∧
      ran.calls <+: ((d.machine registry none).along mode passed last).calls := by
  rcases h with ⟨hrun, hentered⟩ | ⟨name', passed', last', next, hname', hroute', hlen, -, rfl⟩
  · rcases run_unlimited_eq_some_iff.1 hrun with
      ⟨hno, -⟩ | ⟨name', passed', last', hname', hroute', -, rfl⟩
    · exact absurd hname (hno name)
    · obtain rfl := hname.unique hname'
      rw [Machine.length_entered_along] at hentered
      exact Machine.along_prefix_of_length_le hroute' hroute (by omega)
  · obtain rfl := hname.unique hname'
    exact Machine.along_prefix_of_length_le hroute' hroute (by omega)

/-- The run without a limit goes further than one that it stops. -/
theorem eq_or_lt_length_entered (h : d.Limited registry mode n document world ran)
    (hwhole : (d.machine registry none).run mode document world = some whole) :
    ran = whole ∨ ∃ name passed last, d.StartsAt name ∧
      (d.machine registry none).Route mode ⟨.str name, document, world⟩ passed last ∧
      whole = (d.machine registry none).along mode passed last ∧
      Machine.reach n < whole.entered.length := by
  rcases h with ⟨hrun, -⟩ | ⟨name, passed, last, next, hname, hroute, hlen, hleads, -⟩
  · exact .inl (Option.some.inj (hrun.symm.trans hwhole))
  · rcases run_unlimited_eq_some_iff.1 hwhole with
      ⟨hno, -⟩ | ⟨name', passed', last', hname', hroute', hend, rfl⟩
    · exact absurd hname (hno name)
    · obtain rfl := hname.unique hname'
      have hlonger : passed.length < passed'.length :=
        Machine.length_lt_of_leads hroute hleads hroute' hend
      refine .inr ⟨name, passed', last', hname', hroute', rfl, ?_⟩
      rw [Machine.length_entered_along]
      omega

end Limited

end Limited

/-- **The limit is exact.** A run under a limit always ends, and has entered
no more states than the limit lets it. What it has entered and called is
where the run without a limit begins, whether that ends or not. If that ends
in as many states, the limit makes no difference; otherwise the run fails,
naming the last state that it could enter, which it has executed to its
result, and does no more. -/
theorem run_limited (d : Definition) (registry : Registry σ) (mode : Mode) (n : Int)
    (document : Json) (world : σ) :
    ∃ ran, (d.machine registry (some n)).run mode document world = some ran ∧
      ran.entered.length ≤ Machine.reach n ∧
      (∀ whole, (d.machine registry none).run mode document world = some whole →
        ran.entered <+: whole.entered ∧ ran.calls <+: whole.calls) ∧
      (∀ name passed last, d.StartsAt name →
        (d.machine registry none).Route mode ⟨.str name, document, world⟩ passed last →
        Machine.reach n ≤ passed.length + 1 →
        ran.entered <+: ((d.machine registry none).along mode passed last).entered ∧
          ran.calls <+: ((d.machine registry none).along mode passed last).calls) ∧
      (∀ whole, (d.machine registry none).run mode document world = some whole →
        whole.entered.length ≤ Machine.reach n → ran = whole) ∧
      ((¬ ∃ whole, (d.machine registry none).run mode document world = some whole ∧
          whole.entered.length ≤ Machine.reach n) →
        ∃ name passed last next, d.StartsAt name ∧
          (d.machine registry none).Route mode ⟨.str name, document, world⟩ passed last ∧
          passed.length + 1 = Machine.reach n ∧
          (d.machine registry none).Leads mode last next ∧
          ran.outcome = .error (.tooManyTransitions n last.name) ∧
          ran.entered = (passed ++ [last]).map Stop.name ∧
          ran.events = ((d.machine registry none).along mode passed last).events ∧
          ran.world = ((d.machine registry none).along mode passed last).world) := by
  obtain ⟨ran, hran, hlimited⟩ := d.exists_limited registry mode n document world
  refine ⟨ran, hran, hlimited.length_entered_le, ?_, ?_, ?_, ?_⟩
  · intro whole hwhole
    rcases hlimited.eq_or_lt_length_entered hwhole with
      rfl | ⟨name, passed, last, hname, hroute, rfl, hlt⟩
    · exact ⟨List.prefix_rfl, List.prefix_rfl⟩
    · rw [Machine.length_entered_along] at hlt
      exact hlimited.prefix_of_route hname hroute hlt.le
  · intro name passed last hname hroute hle
    exact hlimited.prefix_of_route hname hroute hle
  · intro whole hwhole hle
    rcases hlimited.eq_or_lt_length_entered hwhole with rfl | ⟨-, -, -, -, -, -, hlt⟩
    · rfl
    · omega
  · intro hlonger
    rcases hlimited with hfree | ⟨name, passed, last, next, hname, hroute, hlen, hleads, rfl⟩
    · exact absurd ⟨ran, hfree⟩ hlonger
    · exact ⟨name, passed, last, next, hname, hroute, hlen, hleads, rfl,
        Machine.entered_along passed last, rfl, rfl⟩

end Definition

end Workflow
