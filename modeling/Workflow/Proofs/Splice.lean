import Workflow.Proofs.Outcome
import Workflow.Proofs.Redirect
import Workflow.Proofs.Trace
/-!
# Workflow — splicing an inert Pass into a transition

A Pass that drops its result hands its document on as it is and calls nothing.
Spliced between a state and its next one, it makes a run one visit longer each
time the run comes by, and makes no other difference: a route of the definition
becomes a route of the spliced one with such visits put in (`Seam.route_spliced`),
and a route of the spliced one is such a route, perhaps as far as the Pass
(`Seam.route_of_spliced`). So runs come to the same (`Definition.run_spliced`).
-/

namespace Workflow

variable {σ : Type}

/-- A place in a definition where a state can be spliced in: after a declared
Task or Pass that names a next state, under a name that nothing bears and
nothing leads to. -/
structure Definition.Seam (d : Definition) where
  /-- The state before. -/
  before : String
  /-- It, raw. -/
  raw : Members
  /-- The state after, which need not be declared and may be the one before. -/
  after : String
  /-- The name of the state to put between. -/
  fresh : String
  /-- The type of the state before. -/
  type : StateType
  /-- The state before is declared. -/
  declared : Entries.get? d.states before = some raw
  /-- It is a Task or a Pass. -/
  computes : type = .task ∨ type = .pass
  /-- It is of that type. -/
  raw_type : Entries.get? raw "Type" = some (.str type.name)
  /-- It names the state after. -/
  raw_next : Entries.get? raw "Next" = some (.str after)
  /-- That by a name which is not empty. -/
  after_ne : after ≠ ""
  /-- Nor is the name of the state between. -/
  fresh_ne : fresh ≠ ""
  /-- Nothing is declared under it. -/
  fresh_not_mem : fresh ∉ Entries.keys d.states
  /-- The run does not start there. -/
  fresh_ne_start : d.startAt ≠ some fresh
  /-- No declared state names it. -/
  fresh_ne_next : ∀ name raw, Entries.get? d.states name = some raw →
    Entries.get? raw "Next" ≠ some (.str fresh)
  /-- Raw states repeat no name, as none does that is loaded. -/
  distinct : ∀ name raw, Entries.get? d.states name = some raw → Entries.Distinct raw

/-- A Pass that drops its result, and leads to a state. -/
def State.inert (next : String) : State :=
  ⟨none, .pass ⟨none, .whole, none, .whole⟩ ⟨some next, false⟩⟩

/-- It hands its document on as it is. -/
theorem State.execute_inert {next : String} (h : next ≠ "") (registry : Registry σ) (mode : Mode)
    (name : StateName) (document : Json) (world : σ) :
    (inert next).execute registry mode name document world =
      ⟨.ok (.step document "Pass" next), [.moved name next], world⟩ := by
  have hleads : (inert next).LeadsTo next := ⟨rfl, rfl, h⟩
  have hexecute : (inert next).execute registry mode name document world =
      (inert next).conclude name document world := by
    rw [execute_eq]
    rfl
  rw [hexecute, conclude_of_leadsTo hleads]
  rfl

namespace Definition.Seam

variable {d : Definition} (seam : d.Seam) {registry : Registry σ} {mode : Mode}
  {s t last : Stop σ} {passed : List (Stop σ)} {name : String} {n : StateName}

/-- A raw Pass that drops its result and leads to the state after. -/
def inert : Members :=
  [("Type", .str "Pass"), ("ResultPath", .null), ("Next", .str seam.after)]

/-- The definition with an inert Pass between the two states. The state before
keeps its place, and its fields theirs. -/
def spliced : Definition :=
  { d with
    states := Entries.insert
      (Entries.insert d.states seam.before
        (Entries.insert seam.raw "Next" (.str seam.fresh))) seam.fresh seam.inert }

/-! ## States of the spliced definition -/

/-- What is declared under a name once the Pass is spliced in. -/
theorem get?_spliced (name : String) : Entries.get? seam.spliced.states name =
    if seam.fresh = name then some seam.inert
    else if seam.before = name then some (Entries.insert seam.raw "Next" (.str seam.fresh))
    else Entries.get? d.states name := by
  rw [spliced, Entries.get?_insert, Entries.get?_insert]

/-- The name between is not that of the state before. -/
theorem fresh_ne_before : seam.fresh ≠ seam.before := by
  intro h
  refine seam.fresh_not_mem ?_
  rw [← Entries.get?_isSome_iff, h, seam.declared]
  rfl

/-- Nor that of the state after. -/
theorem fresh_ne_after : seam.fresh ≠ seam.after := by
  intro h
  refine seam.fresh_ne_next _ _ seam.declared ?_
  rw [seam.raw_next, h]

/-- The state between loads as a Pass that leads to the state after. -/
theorem state_fresh : seam.spliced.state seam.fresh = .ok (.inert seam.after) := by
  unfold state
  rw [seam.get?_spliced, if_pos rfl]
  rfl

/-- The state before loads as it did, but that it leads to the state between. -/
theorem state_before : seam.spliced.state seam.before =
    State.redirect seam.fresh <$> d.state seam.before := by
  unfold state
  rw [seam.get?_spliced, if_neg seam.fresh_ne_before, if_pos rfl, seam.declared]
  exact State.ofMembers_redirect seam.computes (seam.distinct _ _ seam.declared) seam.raw_type
    seam.raw_next _

/-- Every other state loads as it did. -/
theorem program_spliced (hfresh : n ≠ .str seam.fresh) (hbefore : n ≠ .str seam.before) :
    seam.spliced.program.state n = d.program.state n := by
  cases n with
  | str name =>
    have hget : Entries.get? seam.spliced.states name = Entries.get? d.states name := by
      have hfresh' : seam.fresh ≠ name := fun h => hfresh (congrArg Json.str h.symm)
      have hbefore' : seam.before ≠ name := fun h => hbefore (congrArg Json.str h.symm)
      rw [seam.get?_spliced, if_neg hfresh', if_neg hbefore']
    show seam.spliced.state name = d.state name
    unfold state
    rw [hget]
  | _ => rfl

/-- A state that loads under the name before computes and names the state after. -/
theorem computes_before {st : State} (h : d.state seam.before = .ok st) :
    st.work.flow?.isSome ∧ st.next = some seam.after := by
  obtain ⟨raw, hraw, htype, hfit⟩ := exists_of_state h
  obtain rfl := Option.some.inj (seam.declared.symm.trans hraw)
  have hname : st.type.name = seam.type.name := by
    simpa using htype.symm.trans seam.raw_type
  have hst : st.type = .task ∨ st.type = .pass :=
    StateType.name_injective hname ▸ seam.computes
  have hrun : st.type.isRun := by
    rcases hst with hst | hst <;> rw [hst] <;> rfl
  refine ⟨?_, (State.next_of_fit hrun (seam.distinct _ _ seam.declared) hfit).2 seam.raw_next⟩
  obtain ⟨comment, work⟩ := st
  cases work with
  | task | pass => rfl
  | _ => rcases hst with hst | hst <;> cases hst

/-! ## Visits -/

/-- **A visit to the state between calls nothing.** -/
theorem calls_visit_fresh (document : Json) (world : σ) :
    ((seam.spliced.machine registry none).visit mode
      ⟨.str seam.fresh, document, world⟩).calls = [] := by
  rw [Machine.visit_of_ok (s := ⟨.str seam.fresh, document, world⟩) seam.state_fresh,
    State.execute_inert seam.after_ne]
  rfl

/-- **It leads to the state after**, and hands its document and its world on as
they are. -/
theorem leads_fresh (document : Json) (world : σ) :
    (seam.spliced.machine registry none).Leads mode ⟨.str seam.fresh, document, world⟩
      ⟨.str seam.after, document, world⟩ := by
  rw [← Machine.onward?_eq_some_iff,
    Machine.visit_of_ok (s := ⟨.str seam.fresh, document, world⟩) seam.state_fresh,
    State.execute_inert seam.after_ne]
  rfl

/-- A visit to the state before leaves what it left, but that it leads to the
state between. -/
theorem visit_before (registry : Registry σ) (mode : Mode) (hs : s.name = .str seam.before) :
    Ran.Redirected seam.after seam.fresh ((d.machine registry none).visit mode s)
      ((seam.spliced.machine registry none).visit mode s) := by
  obtain ⟨n, document, world⟩ := s
  obtain rfl : n = .str seam.before := hs
  cases hst : d.state seam.before with
  | error fault =>
    have hspliced : seam.spliced.state seam.before = .error fault := by
      rw [seam.state_before, hst]
      rfl
    rw [Machine.visit_of_error (s := ⟨.str seam.before, document, world⟩) hst,
      Machine.visit_of_error (s := ⟨.str seam.before, document, world⟩) hspliced]
    exact ⟨.error fault, rfl, rfl⟩
  | ok st =>
    have hspliced : seam.spliced.state seam.before = .ok (st.redirect seam.fresh) := by
      rw [seam.state_before, hst]
      rfl
    obtain ⟨hflow, hnext⟩ := seam.computes_before hst
    have hexecute := State.execute_redirect hflow hnext seam.after_ne seam.fresh_ne registry mode
      (.str seam.before) document world
    rw [Machine.visit_of_ok (s := ⟨.str seam.before, document, world⟩) hst,
      Machine.visit_of_ok (s := ⟨.str seam.before, document, world⟩) hspliced]
    refine ⟨hexecute.outcome, ?_, hexecute.world⟩
    rw [Ran.calls_after, Ran.calls_after, hexecute.calls]
    rfl

/-- **A visit to any state but the one between calls what it called.** If it ends
the run, it comes to what it came to; otherwise it leads where it led, or to the
state between where it led to the state after. -/
theorem visit_cases (registry : Registry σ) (mode : Mode) (hs : s.name ≠ .str seam.fresh) :
    ((d.machine registry none).visit mode s).calls =
        ((seam.spliced.machine registry none).visit mode s).calls ∧
      (((d.machine registry none).visit mode s).onward? = none ∧
          ((seam.spliced.machine registry none).visit mode s).onward? = none ∧
          ((d.machine registry none).visit mode s).outcome =
            ((seam.spliced.machine registry none).visit mode s).outcome ∧
          ((d.machine registry none).visit mode s).world =
            ((seam.spliced.machine registry none).visit mode s).world ∨
        (∃ t, (d.machine registry none).Leads mode s t ∧
          (seam.spliced.machine registry none).Leads mode s t) ∨
        ∃ document world,
          (d.machine registry none).Leads mode s ⟨.str seam.after, document, world⟩ ∧
          (seam.spliced.machine registry none).Leads mode s
            ⟨.str seam.fresh, document, world⟩) := by
  by_cases hbefore : s.name = .str seam.before
  · have hvisit := seam.visit_before registry mode hbefore
    refine ⟨hvisit.calls, ?_⟩
    rcases hvisit.onward?_cases with ⟨hnone, hnone', houtcome⟩ | ⟨document, hon, hon'⟩
    · exact .inl ⟨hnone, hnone', houtcome, hvisit.world⟩
    · exact .inr (.inr ⟨document, _, Machine.onward?_eq_some_iff.1 hon,
        Machine.onward?_eq_some_iff.1 hon'⟩)
  · have hvisit : (d.machine registry none).visit mode s =
        (seam.spliced.machine registry none).visit mode s :=
      Machine.visit_congr_state (seam.program_spliced hs hbefore).symm
    refine ⟨congrArg Ran.calls hvisit, ?_⟩
    cases hon : ((d.machine registry none).visit mode s).onward? with
    | none => exact .inl ⟨rfl, hvisit ▸ hon, congrArg Ran.outcome hvisit, congrArg Ran.world hvisit⟩
    | some t =>
      have hon' : ((seam.spliced.machine registry none).visit mode s).onward? = some t :=
        hvisit ▸ hon
      exact .inr (.inl ⟨t, Machine.onward?_eq_some_iff.1 hon, Machine.onward?_eq_some_iff.1 hon'⟩)

/-- A run ends with such a visit exactly if it did. -/
theorem onward?_eq_none_iff (registry : Registry σ) (mode : Mode) (hs : s.name ≠ .str seam.fresh) :
    ((d.machine registry none).visit mode s).onward? = none ↔
      ((seam.spliced.machine registry none).visit mode s).onward? = none := by
  rcases (seam.visit_cases registry mode hs).2 with ⟨h, h', -⟩ | ⟨t, ht, ht'⟩ | ⟨_, _, ht, ht'⟩
  · exact iff_of_true h h'
  · simp [Machine.onward?_eq_some_iff.2 ht, Machine.onward?_eq_some_iff.2 ht']
  · simp [Machine.onward?_eq_some_iff.2 ht, Machine.onward?_eq_some_iff.2 ht']

/-- Then it comes to the same. -/
theorem eq_of_onward?_eq_none (hs : s.name ≠ .str seam.fresh)
    (h : ((d.machine registry none).visit mode s).onward? = none) :
    ((d.machine registry none).visit mode s).outcome =
        ((seam.spliced.machine registry none).visit mode s).outcome ∧
      ((d.machine registry none).visit mode s).world =
        ((seam.spliced.machine registry none).visit mode s).world := by
  rcases (seam.visit_cases registry mode hs).2 with ⟨-, -, heq⟩ | ⟨t, ht, -⟩ | ⟨_, _, ht, -⟩
  · exact heq
  · simp [Machine.onward?_eq_some_iff.2 ht] at h
  · simp [Machine.onward?_eq_some_iff.2 ht] at h

/-- No state leads to the one between before it is spliced in. -/
theorem name_ne_fresh_of_leads (h : (d.machine registry none).Leads mode s t) :
    t.name ≠ .str seam.fresh := by
  obtain ⟨r, next, hr, hterminal, hnext, rfl⟩ := h
  obtain ⟨st, -, hst, -⟩ := Machine.result_of_visit hr
  obtain ⟨name, hname, -⟩ := exists_state_of_program hst
  obtain ⟨raw, hraw, hofRaw⟩ := ofRaw_of_visit seam.distinct hname hr
  obtain ⟨next', hnext', hrawnext, -⟩ := hofRaw.next hterminal
  obtain rfl := Option.some.inj (hnext.symm.trans hnext')
  intro heq
  refine seam.fresh_ne_next name raw hraw ?_
  rw [hrawnext, Json.str.inj heq]

/-! ## Routes -/

/-- **A route becomes one of the spliced definition**, with visits put in that
call nothing. It comes to the same stop. -/
theorem route_spliced (h : (d.machine registry none).Route mode s passed last)
    (hs : s.name ≠ .str seam.fresh) :
    last.name ≠ .str seam.fresh ∧ ∃ passed',
      (seam.spliced.machine registry none).Route mode s passed' last ∧
      (seam.spliced.machine registry none).callsOf mode (passed' ++ [last]) =
        (d.machine registry none).callsOf mode (passed ++ [last]) := by
  induction h with
  | here s =>
    refine ⟨hs, [], .here s, ?_⟩
    rw [List.nil_append, Machine.callsOf_singleton, Machine.callsOf_singleton,
      (seam.visit_cases registry mode hs).1]
  | @on s t last passed hleads _ ih =>
    obtain ⟨hlast, passed', hroute', hcalls⟩ := ih (seam.name_ne_fresh_of_leads hleads)
    obtain ⟨hvisit, hcases⟩ := seam.visit_cases registry mode hs
    refine ⟨hlast, ?_⟩
    rcases hcases with ⟨hnone, -⟩ | ⟨t', ht, ht'⟩ | ⟨document, world, ht, ht'⟩
    · rw [Machine.onward?_eq_some_iff.2 hleads] at hnone
      cases hnone
    · obtain rfl := Machine.rightUnique_leads hleads ht
      refine ⟨s :: passed', .on ht' hroute', ?_⟩
      rw [List.cons_append, List.cons_append, Machine.callsOf_cons, Machine.callsOf_cons, hvisit,
        hcalls]
    · -- the visit to the state between is put in
      obtain rfl := Machine.rightUnique_leads hleads ht
      refine ⟨s :: ⟨.str seam.fresh, document, world⟩ :: passed',
        .on ht' (.on (seam.leads_fresh document world) hroute'), ?_⟩
      rw [List.cons_append, List.cons_append, List.cons_append, Machine.callsOf_cons,
        Machine.callsOf_cons, Machine.callsOf_cons, hvisit, hcalls, seam.calls_visit_fresh,
        List.nil_append]

/-- Some route from a stop calls what a route of the spliced definition calls, and
comes to the same stop, unless that is before the state between. -/
def Follows (registry : Registry σ) (mode : Mode) (s : Stop σ) (passed : List (Stop σ))
    (last : Stop σ) : Prop :=
  ∃ passed' last', (d.machine registry none).Route mode s passed' last' ∧
    (d.machine registry none).callsOf mode (passed' ++ [last']) =
      (seam.spliced.machine registry none).callsOf mode (passed ++ [last]) ∧
    (last.name ≠ .str seam.fresh → last' = last)

/-- One visit more that calls the same goes on to a route that follows. -/
theorem Follows.on {seam : d.Seam} {passed' : List (Stop σ)}
    (h : seam.Follows registry mode t passed last)
    (hleads : (d.machine registry none).Leads mode s t)
    (hcalls : (seam.spliced.machine registry none).callsOf mode (passed' ++ [last]) =
      ((d.machine registry none).visit mode s).calls ++
        (seam.spliced.machine registry none).callsOf mode (passed ++ [last])) :
    seam.Follows registry mode s passed' last := by
  obtain ⟨passed₀, last₀, hroute, hrest, hlast⟩ := h
  refine ⟨s :: passed₀, last₀, .on hleads hroute, ?_, hlast⟩
  rw [List.cons_append, Machine.callsOf_cons, hrest, hcalls]

/-- **A route of the spliced definition is one with such visits put in**, perhaps
as far as the state between. From there on it follows a route from the state
after. -/
theorem route_of_spliced (h : (seam.spliced.machine registry none).Route mode s passed last) :
    (s.name ≠ .str seam.fresh → seam.Follows registry mode s passed last) ∧
    ∀ document world, s = ⟨.str seam.fresh, document, world⟩ →
      (passed = [] ∧ last = s) ∨
        seam.Follows registry mode ⟨.str seam.after, document, world⟩ passed last := by
  have hafter : Json.str seam.after ≠ .str seam.fresh :=
    fun heq => seam.fresh_ne_after (Json.str.inj heq).symm
  -- a visit to the state before goes on to the state between, from where the second part
  -- takes up the route of the definition
  induction h with
  | here s =>
    refine ⟨fun hs => ⟨[], s, .here s, ?_, fun _ => rfl⟩, fun _ _ _ => .inl ⟨rfl, rfl⟩⟩
    rw [List.nil_append, Machine.callsOf_singleton, Machine.callsOf_singleton,
      (seam.visit_cases registry mode hs).1]
  | @on s t last passed hleads _ ih =>
    refine ⟨fun hs => ?_, fun document world heq => .inr ?_⟩
    · obtain ⟨hvisit, hcases⟩ := seam.visit_cases registry mode hs
      have hcalls : (seam.spliced.machine registry none).callsOf mode (s :: passed ++ [last]) =
          ((d.machine registry none).visit mode s).calls ++
            (seam.spliced.machine registry none).callsOf mode (passed ++ [last]) := by
        rw [List.cons_append, Machine.callsOf_cons, hvisit]
      rcases hcases with ⟨-, hnone, -⟩ | ⟨t', ht, ht'⟩ | ⟨document, world, ht, ht'⟩
      · rw [Machine.onward?_eq_some_iff.2 hleads] at hnone
        cases hnone
      · obtain rfl := Machine.rightUnique_leads hleads ht'
        exact (ih.1 (seam.name_ne_fresh_of_leads ht)).on ht hcalls
      · obtain rfl := Machine.rightUnique_leads hleads ht'
        rcases ih.2 document world rfl with ⟨rfl, rfl⟩ | hfollows
        · -- the route stops before the state between
          refine ⟨[], s, .here s, ?_, fun hlast => absurd rfl hlast⟩
          rw [hcalls, List.nil_append, List.nil_append, Machine.callsOf_singleton,
            Machine.callsOf_singleton, seam.calls_visit_fresh, List.append_nil]
        · exact hfollows.on ht hcalls
    · -- a visit to the state between calls nothing and leads to the state after
      subst heq
      obtain rfl := Machine.rightUnique_leads hleads (seam.leads_fresh document world)
      obtain ⟨passed', last', hroute, hcalls, hlast⟩ := ih.1 hafter
      refine ⟨passed', last', hroute, ?_, hlast⟩
      rw [hcalls, List.cons_append, Machine.callsOf_cons, seam.calls_visit_fresh, List.nil_append]

/-! ## Runs -/

variable {document : Json} {world : σ} {ran : Ran σ Result} {events : List Event}

/-- Runs of the two definitions start with the same state, or neither does. -/
theorem startsAt_iff : seam.spliced.StartsAt name ↔ d.StartsAt name := by
  refine and_congr_right fun hname => and_congr_right fun _ => ?_
  have hfresh : seam.fresh ≠ name := fun h => seam.fresh_ne_start (h ▸ hname)
  rw [← Entries.get?_isSome_iff, ← Entries.get?_isSome_iff, seam.get?_spliced, if_neg hfresh]
  by_cases hbefore : seam.before = name
  · rw [if_pos hbefore, ← hbefore, seam.declared]
    exact ⟨fun _ => rfl, fun _ => rfl⟩
  · rw [if_neg hbefore]

/-- A run does not start with the state between. -/
theorem start_ne_fresh (h : d.StartsAt name) : Json.str name ≠ .str seam.fresh :=
  fun heq => seam.fresh_ne_start (Json.str.inj heq ▸ h.1)

/-- **What a run comes to, the spliced one comes to**, with the same calls and in
the same world. -/
theorem exists_run_spliced
    (h : (d.machine registry none).run mode document world = some ran) :
    ∃ ran', (seam.spliced.machine registry none).run mode document world = some ran' ∧
      ran'.outcome = ran.outcome ∧ ran'.calls = ran.calls ∧ ran'.world = ran.world := by
  rcases run_unlimited_eq_some_iff.1 h with
    ⟨hno, rfl⟩ | ⟨name, passed, last, hname, hroute, hend, rfl⟩
  · exact ⟨_, run_of_noStart fun name hname => hno name (seam.startsAt_iff.1 hname), rfl, rfl, rfl⟩
  · obtain ⟨hlast, passed', hroute', hcalls⟩ :=
      seam.route_spliced hroute (seam.start_ne_fresh hname)
    have hend' := (seam.onward?_eq_none_iff registry mode hlast).1 hend
    obtain ⟨houtcome, hworld⟩ := seam.eq_of_onward?_eq_none hlast hend
    refine ⟨_, run_of_route (seam.startsAt_iff.2 hname) hroute' hend', houtcome.symm, ?_,
      hworld.symm⟩
    rw [Machine.calls_along, Machine.calls_along, hcalls]

/-- **If the spliced run ends, so did the run.** -/
theorem exists_run_of_spliced
    (h : (seam.spliced.machine registry none).run mode document world = some ran) :
    ∃ ran', (d.machine registry none).run mode document world = some ran' := by
  rcases run_unlimited_eq_some_iff.1 h with
    ⟨hno, -⟩ | ⟨name, passed, last, hname, hroute, hend, -⟩
  · exact ⟨_, run_of_noStart fun name hname => hno name (seam.startsAt_iff.2 hname)⟩
  · have hname' := seam.startsAt_iff.1 hname
    have hlast : last.name ≠ .str seam.fresh := by
      obtain ⟨n, document', world'⟩ := last
      rintro rfl
      rw [Machine.onward?_eq_some_iff.2 (seam.leads_fresh document' world')] at hend
      cases hend
    obtain ⟨passed', last', hroute', -, hsame⟩ :=
      (seam.route_of_spliced hroute).1 (seam.start_ne_fresh hname')
    obtain rfl := hsame hlast
    exact ⟨_, run_of_route hname' hroute' ((seam.onward?_eq_none_iff registry mode hlast).2 hend)⟩

/-- **What a run has called by some point, the spliced one has**, and the other way
around. -/
theorem exists_trace_spliced :
    (d.Trace registry none mode document world events →
      ∃ events', seam.spliced.Trace registry none mode document world events' ∧
        events'.filterMap Event.call? = events.filterMap Event.call?) ∧
    (seam.spliced.Trace registry none mode document world events →
      ∃ events', d.Trace registry none mode document world events' ∧
        events'.filterMap Event.call? = events.filterMap Event.call?) := by
  have hcallsOf (m : Machine σ) (passed : List (Stop σ)) (last : Stop σ) :
      (m.along mode passed last).events.filterMap Event.call? =
        m.callsOf mode (passed ++ [last]) := Machine.calls_along passed last
  constructor
  · rintro (rfl | ⟨name, passed, last, hname, hroute, -, rfl⟩)
    · exact ⟨[], .inl rfl, rfl⟩
    · obtain ⟨-, passed', hroute', hcalls⟩ :=
        seam.route_spliced hroute (seam.start_ne_fresh hname)
      refine ⟨_, trace_of_route (seam.startsAt_iff.2 hname) hroute', ?_⟩
      rw [hcallsOf, hcallsOf, hcalls]
  · rintro (rfl | ⟨name, passed, last, hname, hroute, -, rfl⟩)
    · exact ⟨[], .inl rfl, rfl⟩
    · have hname' := seam.startsAt_iff.1 hname
      obtain ⟨passed', last', hroute', hcalls, -⟩ :=
        (seam.route_of_spliced hroute).1 (seam.start_ne_fresh hname')
      refine ⟨_, trace_of_route hname' hroute', ?_⟩
      rw [hcallsOf, hcallsOf, hcalls]

end Definition.Seam

namespace Definition

/-- **An inert Pass can be spliced into any transition.** Put between a declared
Task or Pass and the next state that it names, under a name that nothing bears
and nothing leads to, it makes no difference to a run without a limit: the run
ends exactly if it did, with the same result or the same fault, the same calls
and in the same world; and what it has called by some point it had called by
some point, also if it never ends. -/
theorem run_spliced {d : Definition} (seam : d.Seam) (registry : Registry σ) (mode : Mode)
    (document : Json) (world : σ) :
    ((seam.spliced.machine registry none).run mode document world).map
        (fun ran => (ran.outcome, ran.calls, ran.world)) =
      ((d.machine registry none).run mode document world).map
        (fun ran => (ran.outcome, ran.calls, ran.world)) ∧
    (∀ events, d.Trace registry none mode document world events →
      ∃ events', seam.spliced.Trace registry none mode document world events' ∧
        events'.filterMap Event.call? = events.filterMap Event.call?) ∧
    ∀ events', seam.spliced.Trace registry none mode document world events' →
      ∃ events, d.Trace registry none mode document world events ∧
        events.filterMap Event.call? = events'.filterMap Event.call? := by
  refine ⟨?_, fun events => seam.exists_trace_spliced.1,
    fun events' => seam.exists_trace_spliced.2⟩
  cases hrun : (d.machine registry none).run mode document world with
  | some ran =>
    obtain ⟨ran', hrun', houtcome, hcalls, hworld⟩ := seam.exists_run_spliced hrun
    rw [hrun', Option.map_some, Option.map_some, houtcome, hcalls, hworld]
  | none =>
    cases hrun' : (seam.spliced.machine registry none).run mode document world with
    | none => rfl
    | some ran' =>
      obtain ⟨ran, hran⟩ := seam.exists_run_of_spliced hrun'
      rw [hrun] at hran
      cases hran

/-- The transition of the relay from its Task to its Pass. -/
def relaySeam : relay.Seam where
  before := "Draw"
  raw := [("Type", .str "Task"), ("Resource", .str "tick"), ("ResultPath", .str "$.n"),
    ("Next", .str "Hold")]
  after := "Hold"
  fresh := "Rest"
  type := .task
  declared := rfl
  computes := .inl rfl
  raw_type := rfl
  raw_next := rfl
  after_ne := by decide
  fresh_ne := by decide
  fresh_not_mem := by decide
  fresh_ne_start := by decide
  fresh_ne_next := by
    intro name raw h
    have hmem := Entries.mem_of_get? h
    simp only [relay, List.mem_cons, Prod.mk.injEq, List.not_mem_nil, or_false] at hmem
    rcases hmem with ⟨-, rfl⟩ | ⟨-, rfl⟩ | ⟨-, rfl⟩ <;> simp [Entries.get?]
  distinct := by
    intro name raw h
    have hmem := Entries.mem_of_get? h
    simp only [relay, List.mem_cons, Prod.mk.injEq, List.not_mem_nil, or_false] at hmem
    rcases hmem with ⟨-, rfl⟩ | ⟨-, rfl⟩ | ⟨-, rfl⟩ <;> simp [Entries.Distinct, Entries.keys]

/-- The relay with a rest counts as it does without. -/
theorem relay_run_spliced :
    ((relaySeam.spliced.machine ticking none).run .sync .null 7).map
        (fun ran => (ran.outcome, ran.calls, ran.world)) =
      some (.ok (.final (.obj [("n", .int 8)]) "Succeed"), [("tick", .null)], 8) := by
  have hname : relay.StartsAt "Draw" := ⟨rfl, by decide, by decide⟩
  have hdraw : (relay.machine ticking none).Leads .sync ⟨.str "Draw", .null, 7⟩
      ⟨.str "Hold", .obj [("n", .int 8)], 8⟩ := by
    rw [← Machine.onward?_eq_some_iff]
    with_unfolding_all rfl
  have hhold : (relay.machine ticking none).Leads .sync ⟨.str "Hold", .obj [("n", .int 8)], 8⟩
      ⟨.str "Done", .obj [("n", .int 8)], 8⟩ := by
    rw [← Machine.onward?_eq_some_iff]
    with_unfolding_all rfl
  have hend : ((relay.machine ticking none).visit .sync
      ⟨.str "Done", .obj [("n", .int 8)], 8⟩).onward? = none := by
    with_unfolding_all rfl
  rw [(run_spliced relaySeam ticking .sync .null 7).1,
    run_of_route hname (.on hdraw (.on hhold (.here _))) hend]
  with_unfolding_all rfl

end Definition

end Workflow
