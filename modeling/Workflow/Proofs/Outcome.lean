import Workflow.Proofs.Course
import Workflow.Proofs.Load
/-!
# Workflow — what a run can come to

The result of a state of a definition that was loaded says what the raw state
says (`Result.OfRaw`): its type, and its next state unless it ends the run.
The faults that running a state raises of its own accord are of a few families
(`Family.ofVisit`), a run has two more (`Family.ofRun`), and besides them there is
only that a number in a rule of the state is too long (`Fault.Own`). Any other
fault comes of one that a called resource raised (`Definition.fault_of_visit`,
`Definition.fault_of_run`).
-/

namespace Workflow

variable {σ : Type} {mode : Mode} {limit : Option Int} {registry : Registry σ} {fault : Fault}

/-! ## Families -/

/-- The families of the faults that running a state raises of its own accord.
A deferred reply is refused only where nobody waits. -/
def Family.ofVisit (mode : Mode) : List Family :=
  [.stateNotFound, .invalidType, .definition, .invalidPath, .resourceNotFound, .unsupportedType,
    .noNext] ++ if mode = .sync then [.deferredResource] else []

/-- A run raises besides that it has no start, and that it is past its limit
if it has one. -/
def Family.ofRun (mode : Mode) (limit : Option Int) : List Family :=
  .missingStart :: ofVisit mode ++ if limit.isSome then [.tooManyTransitions] else []

/-- The faults of a state are among those of a run. -/
theorem Family.ofVisit_subset_ofRun : ofVisit mode ⊆ ofRun mode limit :=
  fun _ h => List.mem_append_left _ (List.mem_cons_of_mem _ h)

/-- **No state and no run of its own accord yields a result out of order, or
comes to anything but a state.** -/
theorem Family.not_mem_ofRun :
    .resultInvariant ∉ ofRun mode limit ∧ .unknownKind ∉ ofRun mode limit := by
  cases mode <;> cases limit <;> simp [ofRun, ofVisit]

/-! ## Results -/

/-- A result says what a raw state says. -/
structure Result.OfRaw (raw : Members) (r : Result) : Prop where
  /-- It has the raw type. -/
  type : Entries.get? raw "Type" = some (.str r.stateType)
  /-- That is one of the types that are run. -/
  isRun : r.stateType ∈ ["Task", "Pass", "Succeed", "Fail"]
  /-- It ends the run by its type or by its raw end, whatever comes next. -/
  terminal : r.terminal = true ↔ r.stateType = "Succeed" ∨ r.stateType = "Fail" ∨
    Entries.get? raw "End" = some (.bool true)
  /-- Then it names no next state, and only then. -/
  next_eq_none : r.next = none ↔ r.terminal = true
  /-- Otherwise it names the raw next state, which is not empty. -/
  next : r.terminal = false →
    ∃ next, r.next = some next ∧ Entries.get? raw "Next" = some (.str next) ∧ next ≠ ""

namespace StateType

theorem name_injective {t t' : StateType} (h : t.name = t'.name) : t = t' := by
  have h' := ofJson?_name t
  rw [h, ofJson?_name] at h'
  exact (Option.some.inj h').symm

theorem name_mem_of_isRun {t : StateType} (h : t.isRun) :
    t.name ∈ ["Task", "Pass", "Succeed", "Fail"] := by
  cases t with
  | task | pass | succeed | fail => simp [name]
  | choice | parallel | wait | map => cases h

end StateType

/-- A state that comes to a result is of a type that is run. -/
theorem State.isRun_of_execute {s : State} {name : StateName} {document : Json} {world : σ}
    {r : Result} (h : (s.execute registry mode name document world).outcome = .ok r) :
    s.type.isRun := by
  unfold type
  cases hw : s.work with
  | task | pass | succeed | fail => rfl
  | choice | parallel | wait | map => simp [execute_eq, hw] at h

namespace Definition

variable {d : Definition} {name : String} {s : Stop σ} {r : Result} {document : Json} {world : σ}
  {ran : Ran σ Result}

/-- **A visit to a declared state comes to a result of the raw state**, if the
raw states repeat no name. -/
theorem ofRaw_of_visit
    (hd : ∀ name raw, Entries.get? d.states name = some raw → Entries.Distinct raw)
    (hs : s.name = .str name) (h : ((d.machine registry limit).visit mode s).outcome = .ok r) :
    ∃ raw, Entries.get? d.states name = some raw ∧ r.OfRaw raw := by
  obtain ⟨st, data, hst, hres⟩ := Machine.result_of_visit h
  rw [Machine.visit_of_ok hst] at h
  have hrun : st.type.isRun := State.isRun_of_execute h
  rw [hs] at hst
  obtain ⟨raw, hraw, htype, hfit⟩ := exists_of_state hst
  have hterminal := State.isTerminal_of_fit hrun (hd name raw hraw) hfit
  have hname (t : StateType) : st.type.name = t.name ↔ st.type = t :=
    ⟨StateType.name_injective, congrArg StateType.name⟩
  rw [← hname .succeed, ← hname .fail] at hterminal
  refine ⟨raw, hraw, ?_⟩
  rcases hres with ⟨ht, rfl, -⟩ | ⟨next, ⟨ht, hnext, hne⟩, rfl, -⟩
  · exact {
      type := htype
      isRun := StateType.name_mem_of_isRun hrun
      terminal := ⟨fun _ => hterminal.1 ht, fun _ => rfl⟩
      next_eq_none := ⟨fun _ => rfl, fun _ => rfl⟩
      next := nofun }
  · exact {
      type := htype
      isRun := StateType.name_mem_of_isRun hrun
      terminal := ⟨nofun, fun hends => absurd (hterminal.2 hends) (by simp [ht])⟩
      next_eq_none := ⟨nofun, nofun⟩
      next := fun _ =>
        ⟨next, rfl, (State.next_of_fit hrun (hd name raw hraw) hfit).1 hnext, hne⟩ }

/-- A definition declares a state under a name that has a text as one of its
rules. -/
def HasRule (d : Definition) (name path : String) : Prop :=
  ∃ raw, Entries.get? d.states name = some raw ∧ Members.HasRule raw path

/-- **A visit to a state raises a fault of its own, or one that the resource
raised which it called**, if the raw states repeat no name. -/
theorem fault_of_visit
    (hd : ∀ name raw, Entries.get? d.states name = some raw → Entries.Distinct raw)
    (hs : s.name = .str name)
    (h : ((d.machine registry limit).visit mode s).outcome = .error fault) :
    fault.Own (Family.ofVisit mode) (d.HasRule name) ∨
      ∃ call ∈ ((d.machine registry limit).visit mode s).calls,
        registry.Throws mode s.world call fault := by
  rcases Machine.fault_of_visit h with hload | ⟨st, hst, hown⟩ | ⟨call, hcall, hraise⟩
  · rw [hs] at hload
    have hmem := family_of_state (d := d) hload
    refine .inl (.inl ?_)
    simp only [List.mem_cons, List.not_mem_nil, or_false] at hmem
    rcases hmem with hf | hf | hf <;> simp [Family.ofVisit, hf]
  · rw [hs] at hst
    obtain ⟨raw, hraw, -, hfit⟩ := exists_of_state hst
    have hrules (path : String) (hpath : st.Follows path) : d.HasRule name path :=
      ⟨raw, hraw, State.hasRule_of_follows (hd name raw hraw) hfit hpath⟩
    refine .inl ((hown.texts hrules).families ?_)
    simp [Family.ofWork, Family.ofVisit]
  · rcases hraise.throws with hthrow | ⟨rfl, rfl⟩
    · exact .inr ⟨call, hcall, hthrow⟩
    · refine .inl (.inl ?_)
      simp [Family.ofVisit, Fault.family]

/-- A run ends in a fault that a resource raised: the last state that it
visits called the resource, in the world that the visits before it left. -/
def Thrown (d : Definition) (registry : Registry σ) (limit : Option Int) (mode : Mode)
    (document : Json) (world : σ) (ran : Ran σ Result) (fault : Fault) : Prop :=
  ∃ name passed last, d.StartsAt name ∧
    (d.machine registry limit).Route mode ⟨.str name, document, world⟩ passed last ∧
    ran = (d.machine registry limit).along mode passed last ∧
    ∃ call ∈ ((d.machine registry limit).visit mode last).calls,
      registry.Throws mode last.world call fault

/-- A run enters a state that has a text as one of its rules. -/
def MeetsRule (d : Definition) (ran : Ran σ Result) (path : String) : Prop :=
  ∃ name, .str name ∈ ran.entered ∧ d.HasRule name path

/-- **A run raises a fault of its own, or one that a resource raised.** -/
theorem fault_of_run
    (hd : ∀ name raw, Entries.get? d.states name = some raw → Entries.Distinct raw)
    (h : (d.machine registry limit).run mode document world = some ran)
    (hfault : ran.outcome = .error fault) :
    fault.Own (Family.ofRun mode limit) (d.MeetsRule ran) ∨
      d.Thrown registry limit mode document world ran fault := by
  rcases run_eq_some_iff.1 h with ⟨-, rfl⟩ | ⟨name, hname, -⟩
  · cases hfault
    exact .inl (.inl (List.mem_append_left _ List.mem_cons_self))
  · obtain ⟨passed, last', names, last, hroute, -, hlast, -, hend⟩ := takes_of_run h hname
    rcases hend with ⟨-, rfl⟩ | ⟨next, n, -, hover, rfl⟩
    · rcases fault_of_visit hd hlast hfault with hown | hthrow
      · have hentered : .str last ∈
            ((d.machine registry limit).along mode passed last').entered := by
          simp [hlast]
        exact .inl ((hown.texts fun _ hrule => ⟨last, hentered, hrule⟩).families
          Family.ofVisit_subset_ofRun)
      · exact .inr ⟨name, passed, last', hname, hroute, rfl, hthrow⟩
    · -- the run is past its limit, so it has one
      cases hfault
      have hlimit : limit.isSome := by
        cases limit with
        | none => cases hover
        | some _ => rfl
      exact .inl (.inl (List.mem_append_right _ (by simp [hlimit, Fault.family])))

/-- A run comes to a result that ends it. -/
theorem terminal_of_run (h : (d.machine registry limit).run mode document world = some ran)
    (hr : ran.outcome = .ok r) : r.terminal = true ∧ r.next = none := by
  obtain ⟨name, passed, last', names, last, st, data, -, -, -, -, -, rfl, -⟩ := final_of_ok h hr
  exact ⟨rfl, rfl⟩

/-- **What running a loaded definition can come to.** A state comes to a
result with a summary in order, which says what the raw state says, or to a
fault. A run comes to a result that ends it, or to a fault. A fault is of the
families of a state or of a run, or a number in a rule of the state is too long, or
of one that the run enters, or it is what comes out where a resource that was called
raised one, which is the same unless one waits for it and it says that an iterator
has nothing left; no result out of order and no other kind than a state is among
those families. -/
theorem result_or_fault_of_load {source : Source} {d : Definition} (hd : load source = .ok d)
    (registry : Registry σ) (limit : Option Int) (mode : Mode) (document : Json) (world : σ) :
    (∀ name r,
      ((d.machine registry limit).runState mode (.str name) document world).outcome = .ok r →
      r.summary.check = .ok r.summary ∧
        ∃ raw, Entries.get? d.states name = some raw ∧ r.OfRaw raw) ∧
    (∀ name fault,
      ((d.machine registry limit).runState mode (.str name) document world).outcome =
        .error fault →
      fault.Own (Family.ofVisit mode) (d.HasRule name) ∨
        ∃ call ∈ ((d.machine registry limit).runState mode (.str name) document world).calls,
          registry.Throws mode world call fault) ∧
    (∀ ran, (d.machine registry limit).run mode document world = some ran →
      (∀ r, ran.outcome = .ok r → r.terminal = true ∧ r.next = none) ∧
      ∀ fault, ran.outcome = .error fault →
        fault.Own (Family.ofRun mode limit) (d.MeetsRule ran) ∨
          d.Thrown registry limit mode document world ran fault) ∧
    (∀ raised, mode.handsOn raised = raised ↔
      mode = .sync ∨ ∀ name about, raised ≠ .stated (.exhausted name) about) ∧
    .resultInvariant ∉ Family.ofRun mode limit ∧ .unknownKind ∉ Family.ofRun mode limit := by
  have hdistinct (name : String) (raw : Members) :
      Entries.get? d.states name = some raw → Entries.Distinct raw :=
    distinct_of_load hd
  refine ⟨?_, ?_, ?_, fun _ => Mode.handsOn_eq_self_iff, Family.not_mem_ofRun⟩
  · intro name r hr
    exact ⟨r.check_summary,
      ofRaw_of_visit (s := ⟨.str name, document, world⟩) hdistinct rfl hr⟩
  · intro name fault hfault
    exact fault_of_visit (s := ⟨.str name, document, world⟩) hdistinct rfl hfault
  · intro ran hran
    exact ⟨fun r => terminal_of_run hran, fun fault => fault_of_run hdistinct hran⟩

/-- A raw Task that ends the run, although it names a next state. -/
def lastDraw : Members :=
  [("Type", .str "Task"), ("Resource", .str "tick"), ("ResultPath", .str "$.n"),
    ("Next", .str "Draw"), ("End", .bool true)]

/-- A definition of one such state. -/
def lottery : Definition where
  states := [("Draw", lastDraw)]
  startAt := some "Draw"
  comment := none
  version := none
  timeoutSeconds := none

/-- A registry without resources. -/
def barren : Registry Nat where
  find? _ := none

/-- The lottery comes to its result where the resource is registered, and to a
fault of its own where none is. -/
theorem lottery_comes_to_result_or_fault :
    load (.value (.obj [("States", .obj [("Draw", .obj lastDraw)]), ("StartAt", .str "Draw")])) =
        .ok lottery ∧
      (∃ r, ((lottery.machine ticking none).runState .sync (.str "Draw") .null 7).outcome =
          .ok r ∧ r.next = none ∧ r.summary.check = .ok r.summary ∧
        ∃ raw, Entries.get? lottery.states "Draw" = some raw ∧ r.OfRaw raw) ∧
      ∃ fault, ((lottery.machine barren none).runState .sync (.str "Draw") .null 7).outcome =
          .error fault ∧
        (fault.Own (Family.ofVisit .sync) (lottery.HasRule "Draw") ∨
          ∃ call ∈ ((lottery.machine barren none).runState .sync (.str "Draw") .null 7).calls,
            barren.Throws .sync 7 call fault) := by
  have hload : load (.value (.obj [("States", .obj [("Draw", .obj lastDraw)]),
      ("StartAt", .str "Draw")])) = .ok lottery := rfl
  have hok : ((lottery.machine ticking none).runState .sync (.str "Draw") .null 7).outcome =
      .ok (.final (.obj [("n", .int 8)]) "Task") := by
    with_unfolding_all rfl
  have hfault : ((lottery.machine barren none).runState .sync (.str "Draw") .null 7).outcome =
      .error (.resourceNotFound (.str "tick")) := by
    with_unfolding_all rfl
  refine ⟨hload, ⟨_, hok, rfl, ?_⟩, ⟨_, hfault, ?_⟩⟩
  · exact (result_or_fault_of_load hload ticking none .sync .null 7).1 _ _ hok
  · exact (result_or_fault_of_load hload barren none .sync .null 7).2.1 _ _ hfault

/-- A Pass that takes the part of its document which a path leads to. -/
def pick (path : String) : Definition where
  states := [("Pick", [("Type", .str "Pass"), ("InputPath", .str path), ("ResultPath", .null),
    ("End", .bool true)])]
  startAt := some "Pick"
  comment := none
  version := none
  timeoutSeconds := none

theorem load_pick (path : String) :
    load (.value (.obj [("States", .obj [("Pick", .obj [("Type", .str "Pass"),
      ("InputPath", .str path), ("ResultPath", .null), ("End", .bool true)])]),
      ("StartAt", .str "Pick")])) = .ok (pick path) :=
  rfl

/-- It fails where the path is not read. -/
theorem visit_pick {path : String} (h : readPath path = .error fault) (document : Json)
    (world : σ) :
    ((pick path).machine registry limit).visit mode ⟨.str "Pick", document, world⟩ =
      ⟨.error fault, [.reached (.str "Pick"), .entering .pass (.str "Pick")], world⟩ := by
  have hstate : ((pick path).machine registry limit).program.state (.str "Pick") =
      .ok ⟨none, .pass ⟨none, .part path, none, .whole⟩ ⟨none, true⟩⟩ :=
    rfl
  have hpayload : (⟨none, .part path, none, .whole⟩ : DataFlow).payload document =
      .error fault := by
    show readPath path >>= _ = _
    rw [h]
    rfl
  rw [Machine.visit_of_ok hstate, State.execute_eq]
  simp [hpayload, Ran.after, State.type, Work.type]

/-- **A fault of no family that a state has**, raised by no resource: nothing is
wrong with the path but the length of its index. -/
theorem long_pick_fails_by_no_family :
    (∃ source, load source = .ok (pick (Path.atPadded 4300))) ∧
      ((pick (Path.atPadded 4300)).machine barren none).runState .sync (.str "Pick") .null 7 =
        ⟨.error (.longNumeral 4301), [.reached (.str "Pick"), .entering .pass (.str "Pick")], 7⟩ ∧
      ∀ mode limit, (Fault.longNumeral 4301).family ∉ Family.ofRun mode limit := by
  refine ⟨⟨_, load_pick _⟩, visit_pick (Path.readPath_atPadded (by decide)) .null 7,
    fun mode limit => ?_⟩
  cases mode <;> cases limit <;> simp [Fault.family, Family.ofRun, Family.ofVisit]

end Definition

end Workflow
