import Mathlib.Data.List.Dedup
import Workflow.Proofs.Run
import Workflow.Proofs.State
/-!
# Workflow — the course of a definition

Where a state leads is a matter of the definition alone, so the definition
lays down a course: the names that follow each other from the start state
on. Every run keeps to it (`Definition.course_of_route`). A course that comes
to a terminal state has no name twice, and one with more names than are
declared comes back to a name or leaves the declared ones.
-/

namespace Workflow

variable {σ : Type}

namespace Definition

variable {d : Definition} {name next last : String} {names : List String} {st : State}

/-- A declared state leads on to another name. -/
def LeadsTo (d : Definition) (name next : String) : Prop :=
  ∃ st, d.state name = .ok st ∧ st.LeadsTo next

/-- A part of the course: names that lead on to each other. -/
abbrev Course (d : Definition) : String → List String → String → Prop :=
  Trail d.LeadsTo

/-- The course comes to a terminal state. -/
def Halts (d : Definition) : Prop :=
  ∃ name names last st, d.StartsAt name ∧ d.Course name names last ∧ d.state last = .ok st ∧
    st.isTerminal = true

/-- The course comes back to a name. -/
def Cycles (d : Definition) : Prop :=
  ∃ name names last, d.StartsAt name ∧ d.Course name names last ∧ last ∈ names

/-- The course comes to a name that is not declared. -/
def Leaves (d : Definition) : Prop :=
  ∃ name names last, d.StartsAt name ∧ d.Course name names last ∧ last ∉ Entries.keys d.states

/-- The number of declared states. -/
def size (d : Definition) : Nat :=
  (Entries.keys d.states).dedup.length

/-! ## Where the course leads -/

/-- There is one way to go on. -/
theorem rightUnique_leadsTo (d : Definition) : Relator.RightUnique d.LeadsTo := by
  rintro name a b ⟨st, hst, ha⟩ ⟨st', hst', hb⟩
  obtain rfl := Except.ok.inj (hst.symm.trans hst')
  exact Option.some.inj (ha.2.1.symm.trans hb.2.1)

/-- A state that loads is declared. -/
theorem mem_keys_of_state (h : d.state name = .ok st) : name ∈ Entries.keys d.states := by
  by_contra hno
  have hload : d.program.state (.str name) = .ok st := h
  rw [state_of_not_mem hno] at hload
  cases hload

/-- A terminal state leads nowhere. -/
theorem not_leadsTo_of_isTerminal (h : d.state last = .ok st) (ht : st.isTerminal = true) :
    ¬ d.LeadsTo last next := by
  rintro ⟨st', hst', hleads, -⟩
  obtain rfl := Except.ok.inj (h.symm.trans hst')
  rw [ht] at hleads
  cases hleads

/-- What leads on is declared. -/
theorem mem_keys_of_leadsTo (h : d.LeadsTo name next) : name ∈ Entries.keys d.states := by
  obtain ⟨st, hst, -⟩ := h
  exact mem_keys_of_state hst

/-- The names that the course has left are declared. -/
theorem Course.mem_keys (h : d.Course name names last) {x : String} (hx : x ∈ names) :
    x ∈ Entries.keys d.states := by
  obtain ⟨y, hy⟩ := h.exists_leads_of_mem hx
  exact mem_keys_of_leadsTo hy

/-- So there are no more of them than are declared, if none comes twice. -/
theorem length_le_size (hnodup : names.Nodup) (h : ∀ x ∈ names, x ∈ Entries.keys d.states) :
    names.length ≤ d.size :=
  hnodup.length_le_of_subset fun x hx => List.mem_dedup.2 (h x hx)

/-! ## How a course ends -/

/-- **A course that comes to a terminal state has no name twice.** -/
theorem Course.nodup (h : d.Course name names last) (hst : d.state last = .ok st)
    (ht : st.isTerminal = true) : (names ++ [last]).Nodup :=
  Trail.nodup d.rightUnique_leadsTo h fun _ => not_leadsTo_of_isTerminal hst ht

/-- A course that comes back to a name never comes to a terminal state. -/
theorem not_halts_of_cycles (h : d.Cycles) : ¬ d.Halts := by
  rintro ⟨name', names', last', st, hname', hcourse', hst, ht⟩
  obtain ⟨name, names, last, hname, hcourse, hmem⟩ := h
  obtain rfl := hname.unique hname'
  -- the course to the end passes the place once more after coming back to it
  obtain ⟨rest, rfl, hrest⟩ := hcourse'.split_of_dead_end d.rightUnique_leadsTo
    (fun _ => not_leadsTo_of_isTerminal hst ht) hcourse
  have hnodup := hcourse'.nodup hst ht
  rw [List.append_assoc] at hnodup
  exact (List.nodup_append.1 hnodup).2.2 last hmem last hrest.start_mem rfl

/-- Nor does one that leaves the declared states. -/
theorem not_halts_of_leaves (h : d.Leaves) : ¬ d.Halts := by
  rintro ⟨name', names', last', st, hname', hcourse', hst, ht⟩
  obtain ⟨name, names, last, hname, hcourse, hmem⟩ := h
  obtain rfl := hname.unique hname'
  obtain ⟨-, rfl⟩ := Trail.eq_of_dead_ends d.rightUnique_leadsTo hcourse
    (fun _ hx => hmem (mem_keys_of_leadsTo hx)) hcourse'
    (fun _ => not_leadsTo_of_isTerminal hst ht)
  exact hmem (mem_keys_of_state hst)

/-- **A course of as many names as are declared that still goes on comes back
to a name or leaves the declared ones.** -/
theorem cycles_or_leaves_of_size_le (hname : d.StartsAt name) (h : d.Course name names last)
    (hnext : d.LeadsTo last next) (hsize : d.size ≤ names.length + 1) : d.Cycles ∨ d.Leaves := by
  have hcourse : d.Course name (names ++ [last]) next := h.concat hnext
  by_cases hmem : next ∈ Entries.keys d.states
  · -- these are more names than are declared, so one of them comes twice
    have hdup : ¬ ((names ++ [last]) ++ [next]).Nodup := by
      intro hnodup
      have hle := length_le_size (d := d) hnodup fun x hx => by
        rcases List.mem_append.1 hx with hx | hx
        · exact hcourse.mem_keys hx
        · rwa [List.mem_singleton.1 hx]
      simp only [List.length_append, List.length_singleton] at hle
      omega
    obtain ⟨names', last', hreturn, hin⟩ := hcourse.exists_return hdup
    exact .inl ⟨name, names', last', hname, hreturn, hin⟩
  · exact .inr ⟨name, names ++ [last], next, hname, hcourse, hmem⟩

/-! ## Runs keep to the course -/

section Runs

variable {registry : Registry σ} {limit : Option Int} {mode : Mode} {s s' last' : Stop σ}
  {passed : List (Stop σ)} {fault : Fault}

/-- **A visit leads where the definition does.** Neither the document nor a
resource has a say in it. -/
theorem leadsTo_of_leads (h : (d.machine registry limit).Leads mode s s')
    (hs : s.name = .str name) : ∃ next, s'.name = .str next ∧ d.LeadsTo name next := by
  obtain ⟨r, next, hr, hterminal, hnext, rfl⟩ := h
  obtain ⟨st, data, hst, ⟨-, rfl, -⟩ | ⟨next', hleads, rfl, -⟩⟩ := Machine.result_of_visit hr
  · cases hterminal
  · obtain rfl := Option.some.inj hnext
    rw [hs] at hst
    exact ⟨next', rfl, st, hst, hleads⟩

/-- **A route keeps to the course.** -/
theorem course_of_route (h : (d.machine registry limit).Route mode s passed last')
    (hs : s.name = .str name) : ∃ names last, d.Course name names last ∧
      last'.name = .str last ∧ passed.map Stop.name = names.map Json.str := by
  induction h generalizing name with
  | here => exact ⟨[], name, .here name, hs, rfl⟩
  | on hleads _ ih =>
    obtain ⟨next, hnext, hcourse⟩ := leadsTo_of_leads hleads hs
    obtain ⟨names, last, hrest, hlast, hnames⟩ := ih hnext
    refine ⟨name :: names, last, .on hcourse hrest, hlast, ?_⟩
    rw [List.map_cons, List.map_cons, hs, hnames]

/-- **A visit takes too many transitions only if a resource says so** that it
has called. -/
theorem raises_of_family_of_visit (hs : s.name = .str name)
    (h : ((d.machine registry limit).visit mode s).outcome = .error fault)
    (hfamily : fault.family = .tooManyTransitions) :
    ∃ call ∈ ((d.machine registry limit).visit mode s).calls,
      registry.Raises mode s.world call fault := by
  rcases Machine.fault_of_visit h with hload | ⟨st, -, hown⟩ | hraise
  · rw [hs] at hload
    have hstate : d.state name = .error fault := hload
    have hmem := family_of_state hstate
    simp [hfamily] at hmem
  · rcases hown with hmem | hlong
    · simp [hfamily, Family.ofWork] at hmem
    · cases hfamily.symm.trans hlong.family_eq
  · exact hraise

variable {document : Json} {world : σ} {ran : Ran σ Result} {r : Result}

/-- A run that starts takes a route along the course. -/
theorem takes_of_run (h : (d.machine registry limit).run mode document world = some ran)
    (hname : d.StartsAt name) :
    ∃ passed last' names last,
      (d.machine registry limit).Route mode ⟨.str name, document, world⟩ passed last' ∧
      d.Course name names last ∧ last'.name = .str last ∧
      passed.map Stop.name = names.map Json.str ∧
      (d.machine registry limit).EndsWith mode passed.length last'
        ((d.machine registry limit).along mode passed last') ran := by
  rw [run_of_startsAt hname, Machine.walk_eq_some_iff] at h
  obtain ⟨passed, last', hroute, -, hend⟩ := h
  obtain ⟨names, last, hcourse, hlast, hnames⟩ := course_of_route hroute rfl
  rw [Nat.zero_add] at hend
  exact ⟨passed, last', names, last, hroute, hcourse, hlast, hnames, hend⟩

/-- A run to a result takes a route along the course to a terminal state, and
the result has the type of that state. -/
theorem final_of_ok (h : (d.machine registry limit).run mode document world = some ran)
    (hr : ran.outcome = .ok r) :
    ∃ name passed last' names last st data, d.StartsAt name ∧
      (d.machine registry limit).Route mode ⟨.str name, document, world⟩ passed last' ∧
      d.Course name names last ∧ d.state last = .ok st ∧ st.isTerminal = true ∧
      r = .final data st.type.name ∧ ran = (d.machine registry limit).along mode passed last' ∧
      (passed ++ [last']).map Stop.name = (names ++ [last]).map Json.str := by
  rcases run_eq_some_iff.1 h with ⟨-, rfl⟩ | ⟨name, hname, -⟩
  · cases hr
  · obtain ⟨passed, last', names, last, hroute, hcourse, hlast, hnames, hend⟩ :=
      takes_of_run h hname
    rcases hend with ⟨hend, rfl⟩ | ⟨next, n, -, -, rfl⟩
    · have hterminal := Machine.onward?_eq_none_iff.1 hend r hr
      obtain ⟨st, data, hst, ⟨ht, hfinal, -⟩ | ⟨next, -, rfl, -⟩⟩ := Machine.result_of_visit hr
      · rw [hlast] at hst
        refine ⟨name, passed, last', names, last, st, data, hname, hroute, hcourse, hst, ht,
          hfinal, rfl, ?_⟩
        rw [List.map_append, hnames, List.map_singleton, hlast, List.map_append,
          List.map_singleton]
      · cases hterminal
    · cases hr

/-- **A run to a result follows the course to a terminal state.** -/
theorem course_of_ok (h : (d.machine registry limit).run mode document world = some ran)
    (hr : ran.outcome = .ok r) :
    ∃ name names last st, d.StartsAt name ∧ d.Course name names last ∧ d.state last = .ok st ∧
      st.isTerminal = true ∧ ran.entered = (names ++ [last]).map Json.str ∧
      ran.moves.length = names.length := by
  obtain ⟨name, passed, last', names, last, st, data, hname, hroute, hcourse, hst, ht, rfl, rfl,
    hnames⟩ := final_of_ok h hr
  refine ⟨name, names, last, st, hname, hcourse, hst, ht, ?_, ?_⟩
  · rw [Machine.entered_along, hnames]
  · rw [Machine.length_moves_along hroute hr rfl]
    simpa using congrArg List.length hnames

/-- A run that is stopped after as many transitions as there are states, less
one, keeps to a course that never comes to a terminal state. -/
theorem cycles_or_leaves_of_exceeds {n n' : Int} {names : List String} {next : Stop σ}
    (hname : d.StartsAt name) (hcourse : d.Course name names last)
    (hlast : last'.name = .str last) (hnames : passed.map Stop.name = names.map Json.str)
    (hleads : (d.machine registry (some n)).Leads mode last' next)
    (hexceeds : (d.machine registry (some n)).exceeds (passed.length + 1) = some n')
    (hn : (d.size : Int) - 1 ≤ n) : d.Cycles ∨ d.Leaves := by
  obtain ⟨next', -, hnext⟩ := leadsTo_of_leads hleads hlast
  have hlen : passed.length = names.length := by simpa using congrArg List.length hnames
  have hover : n < (passed.length + 1 : Nat) := by
    simp only [Machine.exceeds, Option.filter_some] at hexceeds
    split at hexceeds
    · rename_i hlt
      simpa using hlt
    · cases hexceeds
  exact cycles_or_leaves_of_size_le hname hcourse hnext (by omega)

/-- **What a limit of that many transitions can do.** It stops runs along a
course that never comes to a terminal state; any other run is as it is
without a limit. -/
theorem run_of_size_le {n : Int}
    (h : (d.machine registry (some n)).run mode document world = some ran)
    (hn : (d.size : Int) - 1 ≤ n) :
    (d.machine registry none).run mode document world = some ran ∨ d.Cycles ∨ d.Leaves := by
  rcases run_eq_some_iff.1 h with ⟨hno, rfl⟩ | ⟨name, hname, -⟩
  · exact .inl (run_of_noStart hno)
  · obtain ⟨passed, last', names, last, hroute, hcourse, hlast, hnames, hend⟩ :=
      takes_of_run h hname
    rcases hend with ⟨hend, rfl⟩ | ⟨next, n', hleads, hexceeds, rfl⟩
    · exact .inl (run_of_route hname hroute hend)
    · exact .inr (cycles_or_leaves_of_exceeds hname hcourse hlast hnames hleads hexceeds hn)

/-- Without a limit a run takes too many transitions only if a resource says
so that it has called. -/
theorem raises_of_family_of_run
    (h : (d.machine registry none).run mode document world = some ran)
    (hfault : ran.outcome = .error fault) (hfamily : fault.family = .tooManyTransitions) :
    ∃ call ∈ ran.calls, ∃ world', registry.Raises mode world' call fault := by
  rcases run_unlimited_eq_some_iff.1 h with ⟨-, rfl⟩ | ⟨name, passed, last', -, hroute, -, rfl⟩
  · cases hfault
    cases hfamily
  · obtain ⟨names, last, -, hlast, -⟩ := course_of_route hroute rfl
    obtain ⟨call, hcall, hraise⟩ := raises_of_family_of_visit hlast hfault hfamily
    refine ⟨call, ?_, last'.world, hraise⟩
    rw [Machine.calls_along, Machine.callsOf, List.mem_flatMap]
    exact ⟨last', by simp, hcall⟩

end Runs

/-- **A run that yields a result enters no state twice.** So it enters no more
states than are declared, and makes fewer moves. A limit of that many
transitions or more stops a run only where the course of the definition never
comes to a terminal state, because it comes back to a name or leaves the
declared ones; elsewhere the run is as it is without a limit, and a fault for
too many transitions is one that a resource raised. Along such a course no
run yields a result, whatever the document, the resources and the limit. -/
theorem run_enters_no_state_twice {d : Definition} {registry : Registry σ} {limit : Option Int}
    {mode : Mode} {document : Json} {world : σ} {ran : Ran σ Result}
    (h : (d.machine registry limit).run mode document world = some ran) :
    (∀ r, ran.outcome = .ok r → ran.entered.Nodup ∧ ran.entered.length ≤ d.size ∧
      ran.moves.length + 1 ≤ d.size) ∧
    (∀ n, limit = some n → (d.size : Int) - 1 ≤ n →
      (¬ d.Halts ∧ (d.Cycles ∨ d.Leaves)) ∨
        (d.machine registry none).run mode document world = some ran ∧
          ∀ fault, ran.outcome = .error fault → fault.family = .tooManyTransitions →
            ∃ call ∈ ran.calls, ∃ world', registry.Raises mode world' call fault) ∧
    (¬ d.Halts → ∀ r, ran.outcome ≠ .ok r) := by
  refine ⟨?_, ?_, ?_⟩
  · intro r hr
    obtain ⟨name, names, last, st, hname, hcourse, hst, ht, hentered, hmoves⟩ := course_of_ok h hr
    have hnodup : (names ++ [last]).Nodup := hcourse.nodup hst ht
    have hdeclared : ∀ x ∈ names ++ [last], x ∈ Entries.keys d.states := by
      intro x hx
      rcases List.mem_append.1 hx with hx | hx
      · exact hcourse.mem_keys hx
      · rw [List.mem_singleton.1 hx]
        exact mem_keys_of_state hst
    have hsize : (names ++ [last]).length ≤ d.size := length_le_size hnodup hdeclared
    have hstr : Function.Injective Json.str := by
      intro a b hab
      injection hab
    rw [hentered, hmoves]
    exact ⟨hnodup.map hstr, by simpa using hsize, by simpa using hsize⟩
  · intro n hlimit hn
    subst hlimit
    rcases run_of_size_le h hn with hfree | hnever
    · right
      exact ⟨hfree, fun fault => raises_of_family_of_run hfree⟩
    · left
      exact ⟨hnever.elim not_halts_of_cycles not_halts_of_leaves, hnever⟩
  · intro hhalts r hr
    obtain ⟨name, names, last, st, hname, hcourse, hst, ht, -⟩ := course_of_ok h hr
    exact hhalts ⟨name, names, last, st, hname, hcourse, hst, ht⟩

/-- A Task, a Pass and an end. -/
def relay : Definition where
  states := [
    ("Draw", [("Type", .str "Task"), ("Resource", .str "tick"), ("ResultPath", .str "$.n"),
      ("Next", .str "Hold")]),
    ("Hold", [("Type", .str "Pass"), ("ResultPath", .null), ("Next", .str "Done")]),
    ("Done", [("Type", .str "Succeed")])]
  startAt := some "Draw"
  comment := none
  version := none
  timeoutSeconds := none

/-- A resource that counts its invocations. -/
def ticking : Registry Nat where
  find? id :=
    if id = "tick" then some fun _ past => .now (.ok (.int (past + 1))) (past + 1) else none

/-- What a run of the relay leaves when seven invocations are past. -/
def relayed : Ran Nat Result where
  outcome := .ok (.final (.obj [("n", .int 8)]) "Succeed")
  events := [.reached (.str "Draw"), .entering .task (.str "Draw"), .invoking (.str "Draw") "tick",
    .called "tick" .null, .moved (.str "Draw") "Hold", .reached (.str "Hold"),
    .entering .pass (.str "Hold"), .moved (.str "Hold") "Done", .reached (.str "Done"),
    .entering .succeed (.str "Done"), .ended (.str "Done")]
  world := 8

/-- The relay under the least limit that cannot stop it. -/
theorem relay_enters_no_state_twice :
    (relay.machine ticking (some 2)).run .sync .null 7 = some relayed ∧
      (relayed.entered.Nodup ∧ relayed.entered.length ≤ relay.size ∧
        relayed.moves.length + 1 ≤ relay.size) ∧
      ((¬ relay.Halts ∧ (relay.Cycles ∨ relay.Leaves)) ∨
        (relay.machine ticking none).run .sync .null 7 = some relayed ∧
          ∀ fault, relayed.outcome = .error fault → fault.family = .tooManyTransitions →
            ∃ call ∈ relayed.calls, ∃ world', ticking.Raises .sync world' call fault) := by
  have hname : relay.StartsAt "Draw" := ⟨rfl, by decide, by decide⟩
  have h : (relay.machine ticking (some 2)).run .sync .null 7 = some relayed := by
    rw [run_of_startsAt hname, Machine.walk_eq_some_iff]
    refine ⟨[⟨.str "Draw", .null, 7⟩, ⟨.str "Hold", .obj [("n", .int 8)], 8⟩],
      ⟨.str "Done", .obj [("n", .int 8)], 8⟩, .on ?_ (.on ?_ (.here _)), by decide, .inl ⟨?_, ?_⟩⟩
    -- reading a path is no structural recursion, so each visit is unfolded in full
    · rw [← Machine.onward?_eq_some_iff]
      with_unfolding_all rfl
    · rw [← Machine.onward?_eq_some_iff]
      with_unfolding_all rfl
    · with_unfolding_all rfl
    · with_unfolding_all rfl
  obtain ⟨hok, hlimit, -⟩ := run_enters_no_state_twice h
  exact ⟨h, hok _ rfl, hlimit 2 rfl (by decide)⟩

end Definition

end Workflow
