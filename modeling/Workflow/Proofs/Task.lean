import Workflow.Proofs.Execution
import Workflow.Proofs.Writing
/-!
# Workflow — what can go wrong in a Task

Seven things can be wrong with a Task at hand, and each is said by itself,
whatever else is wrong (`Errand.Strikes`). The resource is called between the
second and the third. A Task fails by the first of them in a fixed order
(`Errand.outcome_eq_error_iff`), so what comes later is hidden; it has called its
resource once unless one of the first two is wrong (`Errand.acts_once`), and if
nothing is wrong it comes to what its rules lead to (`Errand.outcome_eq_ok_iff`).
No other state calls anything (`State.execute_of_not_task`).
-/

namespace Workflow

variable {σ : Type}

/-! ## Rules that are no paths -/

theorem readPath_eq_error_iff {path : String} {fault : Fault} : readPath path = .error fault ↔
    ∃ refusal, Path.parse path = .error refusal ∧ .ofRefusal path refusal = fault :=
  Except.mapError_eq_error_iff

/-- A part of a document is missed only for a rule that is not read as a path. -/
theorem Json.select_eq_error_iff {document : Json} {selector : Selector} {fault : Fault} :
    document.select selector = .error fault ↔ ∃ path refusal, selector = .part path ∧
      Path.parse path = .error refusal ∧ .ofRefusal path refusal = fault := by
  cases selector with
  | whole => simp [select]
  | nothing => simp [select]
  | part path =>
    have hread : document.select (.part path) = .error fault ↔ readPath path = .error fault := by
      simp [select, readAt, Except.bind_eq_error_iff, pure, Except.pure]
    simp [hread, readPath_eq_error_iff]

/-! ## A Task at hand -/

/-- A Task at hand: the state, and what it is executed over. -/
structure Errand (σ : Type) where
  /-- A remark. -/
  comment : Option String
  /-- The resource that is to be called. -/
  id : String
  /-- How data is moved. -/
  flow : DataFlow
  /-- Where the state leads. -/
  exit : Exit
  /-- The resources at hand. -/
  registry : Registry σ
  /-- How replies are taken. -/
  mode : Mode
  /-- The name of the state. -/
  name : StateName
  /-- The document. -/
  document : Json
  /-- The world. -/
  world : σ

/-- What a state computes from: the input that it is given, null or not, and
otherwise what its rule selects. -/
inductive DataFlow.Takes (flow : DataFlow) (document : Json) : Json → Prop where
  | given {input : Json} (h : flow.input = some input) : Takes flow document input
  | selected {part : Json} (h : flow.input = none)
      (hpart : document.select flow.inputPath = .ok part) : Takes flow document part

/-- What can be wrong with a Task. -/
inductive Snag where
  /-- The input rule is not read, and no input is given in its place. -/
  | inputPath
  /-- The resource is not registered. -/
  | resource
  /-- The resource answers with a fault. -/
  | answer
  /-- The result rule is not read. -/
  | resultPath
  /-- The result rule leads to no place in the document. -/
  | place
  /-- The output rule is not read. -/
  | outputPath
  /-- The state neither ends the run nor names a next one. -/
  | next
  deriving DecidableEq, Repr

/-- The order in which it is noticed. -/
def Snag.order : List Snag :=
  [inputPath, resource, answer, resultPath, place, outputPath, next]

namespace Errand

variable (e : Errand σ)

/-- The Task. -/
def state : State :=
  ⟨e.comment, .task e.id e.flow e.exit⟩

/-- What executing it leaves. -/
def ran : Ran σ Result :=
  e.state.execute e.registry e.mode e.name e.document e.world

/-- What the resource answers to a payload, and the world after it: at once, or as
it comes out of waiting. -/
def reply (resource : Resource σ) (payload : Json) : Except Fault Json × σ :=
  (resource payload e.world).take e.mode e.id

/-- Something is wrong with a Task, and this is the fault of it. A rule that is not
read is no path, or has a number in it that is too long; each is a fault of its
own. -/
inductive Strikes : Snag → Fault → Prop where
  | inputPath {path : String} {refusal : Path.Refusal} (hinput : e.flow.input = none)
      (hpath : e.flow.inputPath = .part path) (hparse : Path.parse path = .error refusal) :
      Strikes .inputPath (.ofRefusal path refusal)
  | resource (hfind : e.registry.find? e.id = none) :
      Strikes .resource (.resourceNotFound (.str e.id))
  | answer {payload : Json} {resource : Resource σ} {fault : Fault}
      (hpayload : e.flow.Takes e.document payload) (hfind : e.registry.find? e.id = some resource)
      (hanswer : (e.reply resource payload).1 = .error fault) : Strikes .answer fault
  | resultPath {path : String} {refusal : Path.Refusal} (hpath : e.flow.resultPath = some path)
      (hparse : Path.parse path = .error refusal) :
      Strikes .resultPath (.ofRefusal path refusal)
  /-- What is written does not matter. -/
  | place {path : String} {p : Path} {problem : PathProblem} (hpath : e.flow.resultPath = some path)
      (hparse : Path.parse path = .ok p) (hwrite : ∀ v, e.document.write p v = .error problem) :
      Strikes .place (.invalidPath path problem)
  | outputPath {path : String} {refusal : Path.Refusal} (hpath : e.flow.outputPath = .part path)
      (hparse : Path.parse path = .error refusal) :
      Strikes .outputPath (.ofRefusal path refusal)
  | next (hends : e.exit.ends = false) (hnext : e.exit.next = none ∨ e.exit.next = some "") :
      Strikes .next (.noNext e.name)

/-- What a Task passes on if nothing is wrong: its resource answers what it takes,
and part of the document with the answer in it is selected. -/
inductive Passes : Json → Prop where
  | mk {payload answer merged data : Json} {resource : Resource σ}
      (hpayload : e.flow.Takes e.document payload) (hfind : e.registry.find? e.id = some resource)
      (hanswer : (e.reply resource payload).1 = .ok answer)
      (hmerge : e.document.merge e.flow.resultPath answer = .ok merged)
      (hselect : merged.select e.flow.outputPath = .ok data) : Passes data

/-- What a Task comes to then. -/
inductive Yields : Result → Prop where
  | final {data : Json} (hdata : e.Passes data) (hends : e.exit.ends = true) :
      Yields (.final data "Task")
  | step {data : Json} {next : String} (hdata : e.Passes data) (hends : e.exit.ends = false)
      (hnext : e.exit.next = some next) (hne : next ≠ "") : Yields (.step data "Task" next)

/-- A Task calls its resource once with what it takes, or does nothing, since it
misses the one or the other. -/
inductive ActsOnce : Prop where
  | stopped {fault : Fault} (hfault : Except.FirstOf e.Strikes [.inputPath, .resource] fault)
      (hran : e.ran = ⟨.error fault, [], e.world⟩)
  | called {payload : Json} {resource : Resource σ} (hpayload : e.flow.Takes e.document payload)
      (hfind : e.registry.find? e.id = some resource) (hcalls : e.ran.calls = [(e.id, payload)])
      (hworld : e.ran.world = (e.reply resource payload).2)

/-! ## Step by step -/

theorem takes_iff {flow : DataFlow} {document payload : Json} :
    flow.Takes document payload ↔ flow.payload document = .ok payload := by
  cases hinput : flow.input with
  | some input =>
    have hpayload : flow.payload document = .ok input := by simp [DataFlow.payload, hinput]
    rw [hpayload]
    constructor
    · rintro (h | ⟨h, -⟩)
      · rw [hinput] at h
        rw [Option.some.inj h]
      · rw [hinput] at h
        cases h
    · intro h
      rw [← Except.ok.inj h]
      exact .given hinput
  | none =>
    have hpayload : flow.payload document = document.select flow.inputPath := by
      simp [DataFlow.payload, hinput]
    rw [hpayload]
    constructor
    · rintro (h | ⟨-, hpart⟩)
      · rw [hinput] at h
        cases h
      · exact hpart
    · exact .selected hinput

/-- The payload is missed if the input rule is no path. -/
theorem payload_eq_error_iff {fault : Fault} : e.flow.payload e.document = .error fault ↔
    Except.FirstOf e.Strikes [.inputPath] fault := by
  rw [Except.firstOf_singleton_iff]
  cases hinput : e.flow.input with
  | some input =>
    have hpayload := takes_iff.1 (.given hinput : e.flow.Takes e.document input)
    rw [hpayload]
    constructor
    · nofun
    · intro h
      cases h with
      | inputPath hno _ _ =>
        rw [hinput] at hno
        cases hno
  | none =>
    have hpayload : e.flow.payload e.document = e.document.select e.flow.inputPath := by
      simp [DataFlow.payload, hinput]
    rw [hpayload, Json.select_eq_error_iff]
    constructor
    · rintro ⟨path, problem, hpath, hparse, rfl⟩
      exact .inputPath hinput hpath hparse
    · intro h
      cases h with
      | inputPath _ hpath hparse => exact ⟨_, _, hpath, hparse, rfl⟩

/-- The resource, if it is registered. -/
def find : Except Fault (Resource σ) :=
  match e.registry.find? e.id with
  | some resource => .ok resource
  | none => .error (.resourceNotFound (.str e.id))

theorem find_eq_ok_iff {resource : Resource σ} :
    e.find = .ok resource ↔ e.registry.find? e.id = some resource := by
  unfold find
  cases e.registry.find? e.id <;> simp

theorem find_eq_error_iff {fault : Fault} : e.find = .error fault ↔
    Except.FirstOf e.Strikes [.resource] fault := by
  rw [Except.firstOf_singleton_iff]
  unfold find
  cases hfind : e.registry.find? e.id with
  | some resource =>
    constructor
    · nofun
    · intro h
      cases h with
      | resource hno =>
        rw [hfind] at hno
        cases hno
  | none =>
    constructor
    · rintro ⟨⟩
      exact .resource hfind
    · intro h
      cases h with
      | resource _ => rfl

/-- The resource that is called with the payload answers with a fault, or the
cause is not there. -/
theorem reply_eq_error_iff {payload : Json} {resource : Resource σ} {fault : Fault}
    (hpayload : e.flow.payload e.document = .ok payload) (hfind : e.find = .ok resource) :
    (e.reply resource payload).1 = .error fault ↔ Except.FirstOf e.Strikes [.answer] fault := by
  rw [Except.firstOf_singleton_iff]
  rw [find_eq_ok_iff] at hfind
  constructor
  · exact .answer (takes_iff.2 hpayload) hfind
  · intro h
    cases h with
    | answer hpayload' hfind' hanswer =>
      obtain rfl := Except.ok.inj (hpayload.symm.trans (takes_iff.1 hpayload'))
      obtain rfl := Option.some.inj (hfind.symm.trans hfind')
      exact hanswer

/-- The result is not put into the document if its rule is no path, or leads to
no place there. -/
theorem merge_eq_error_iff (answer : Json) {fault : Fault} :
    e.document.merge e.flow.resultPath answer = .error fault ↔
      Except.FirstOf e.Strikes ([.resultPath] ++ [.place]) fault := by
  cases hrule : e.flow.resultPath with
  | none =>
    rw [Except.firstOf_append_iff, Except.firstOf_singleton_iff, Except.firstOf_singleton_iff]
    constructor
    · nofun
    · rintro (h | ⟨-, h⟩)
      · cases h with
        | resultPath hpath _ => cases hrule.symm.trans hpath
      · cases h with
        | place hpath _ _ => cases hrule.symm.trans hpath
  | some path =>
    refine Except.firstOf_bind (fun fault => ?_) (fun p hp fault => ?_) fault
    · rw [Except.firstOf_singleton_iff, readPath_eq_error_iff]
      constructor
      · rintro ⟨problem, hparse, rfl⟩
        exact .resultPath hrule hparse
      · intro h
        cases h with
        | resultPath hpath hparse =>
          cases hrule.symm.trans hpath
          exact ⟨_, hparse, rfl⟩
    · have hparse := Except.mapError_eq_ok_iff.1 hp
      rw [Except.firstOf_singleton_iff, Except.mapError_eq_error_iff]
      constructor
      · rintro ⟨problem, hwrite, rfl⟩
        -- another value would meet the same problem
        exact .place hrule hparse fun v => (Json.write_rel _ p answer v).eq_error_iff.1 hwrite
      · intro h
        cases h with
        | place hpath hparse' hwrite =>
          cases hrule.symm.trans hpath
          cases hparse.symm.trans hparse'
          exact ⟨_, hwrite answer, rfl⟩

/-- The part to pass on is missed if the output rule is no path. -/
theorem select_eq_error_iff (merged : Json) {fault : Fault} :
    merged.select e.flow.outputPath = .error fault ↔
      Except.FirstOf e.Strikes [.outputPath] fault := by
  rw [Except.firstOf_singleton_iff, Json.select_eq_error_iff]
  constructor
  · rintro ⟨path, problem, hpath, hparse, rfl⟩
    exact .outputPath hpath hparse
  · intro h
    cases h with
    | outputPath hpath hparse => exact ⟨_, _, hpath, hparse, rfl⟩

/-- The state does not conclude if it has nowhere to go. -/
theorem conclude_eq_error_iff (data : Json) (world : σ) {fault : Fault} :
    (e.state.conclude e.name data world).outcome = .error fault ↔
      Except.FirstOf e.Strikes [.next] fault := by
  rw [Except.firstOf_singleton_iff]
  rcases e.state.conclude_cases e.name data world with
    ⟨hends, hc⟩ | ⟨next, ⟨-, hnext, hne⟩, hc⟩ | ⟨hends, hno, hc⟩
  · rw [hc]
    constructor
    · nofun
    · intro h
      cases h with
      | next hgoes _ => cases hgoes.symm.trans hends
  · rw [hc]
    constructor
    · nofun
    · intro h
      cases h with
      | next _ hstuck =>
        rcases hstuck with hstuck | hstuck
        · cases hnext.symm.trans hstuck
        · exact absurd (Option.some.inj (hnext.symm.trans hstuck)) hne
  · rw [hc]
    constructor
    · rintro ⟨⟩
      refine .next hends ?_
      cases hnext : e.exit.next with
      | none => exact .inl rfl
      | some next =>
        by_cases hempty : next = ""
        · exact .inr (congrArg some hempty)
        · exact absurd ⟨hends, hnext, hempty⟩ (hno next)
    · intro h
      cases h with
      | next _ _ => rfl

/-- A Task without a payload does nothing. -/
theorem ran_of_payload_eq_error {fault : Fault}
    (hpayload : e.flow.payload e.document = .error fault) :
    e.ran = ⟨.error fault, [], e.world⟩ := by
  simp [ran, State.execute_eq, state, hpayload]

/-- Nor does one whose resource is not registered. -/
theorem ran_of_find_eq_error {payload : Json} {fault : Fault}
    (hpayload : e.flow.payload e.document = .ok payload) (hfind : e.find = .error fault) :
    e.ran = ⟨.error fault, [], e.world⟩ := by
  unfold find at hfind
  split at hfind
  · cases hfind
  · rename_i hno
    cases hfind
    simp [ran, State.execute_eq, state, hpayload, Registry.find, hno]

/-- A Task that finds its resource calls it and finishes with the answer. -/
theorem ran_of_find_eq_ok {payload : Json} {resource : Resource σ}
    (hpayload : e.flow.payload e.document = .ok payload) (hfind : e.find = .ok resource) :
    e.ran = ((Step.ofExcept (e.reply resource payload).1 >>= fun answer =>
      e.state.finish e.flow e.name e.document answer) (e.reply resource payload).2).after
        [.invoking e.name e.id, .called e.id payload] :=
  State.execute_of_call e.name rfl hpayload (e.find_eq_ok_iff.1 hfind) rfl

/-- A state that has its result concludes with the data that comes of it. -/
theorem outcome_finish (answer : Json) (world : σ) :
    (e.state.finish e.flow e.name e.document answer world).outcome =
      e.flow.output e.document answer >>= fun data =>
        (e.state.conclude e.name data world).outcome := by
  unfold State.finish
  cases e.flow.output e.document answer with
  | error fault => rfl
  | ok data => rfl

/-- **A Task is its steps**, each of which goes on from the value of the one
before. -/
theorem outcome_ran : e.ran.outcome = (do
    let payload ← e.flow.payload e.document
    let resource ← e.find
    let answer ← (e.reply resource payload).1
    let data ← e.flow.output e.document answer
    (e.state.conclude e.name data (e.reply resource payload).2).outcome) := by
  cases hpayload : e.flow.payload e.document with
  | error fault =>
    rw [e.ran_of_payload_eq_error hpayload]
    rfl
  | ok payload =>
    cases hfind : e.find with
    | error fault =>
      rw [e.ran_of_find_eq_error hpayload hfind]
      rfl
    | ok resource =>
      rw [e.ran_of_find_eq_ok hpayload hfind]
      rcases hreply : e.reply resource payload with ⟨answer, world⟩
      cases answer with
      | error fault =>
        show Except.error fault = (e.reply resource payload).1 >>= _
        rw [hreply]
        rfl
      | ok answer =>
        show (e.state.finish e.flow e.name e.document answer world).outcome =
          (e.reply resource payload).1 >>= _
        rw [hreply, outcome_finish]
        rfl

/-! ## The whole Task -/

/-- **A Task fails by the first thing that is wrong with it.** -/
theorem outcome_eq_error_iff (fault : Fault) :
    e.ran.outcome = .error fault ↔ Except.FirstOf e.Strikes Snag.order fault := by
  have horder : Snag.order = [.inputPath] ++ ([.resource] ++ ([.answer] ++
      (([.resultPath] ++ [.place] ++ [.outputPath]) ++ [.next]))) := rfl
  rw [outcome_ran, horder]
  refine Except.firstOf_bind (fun _ => e.payload_eq_error_iff) (fun payload hpayload => ?_) fault
  refine Except.firstOf_bind (fun _ => e.find_eq_error_iff) (fun resource hfind => ?_)
  refine Except.firstOf_bind (fun _ => e.reply_eq_error_iff hpayload hfind) (fun answer _ => ?_)
  refine Except.firstOf_bind ?_ (fun data _ _ => e.conclude_eq_error_iff data _)
  exact Except.firstOf_bind (fun _ => e.merge_eq_error_iff answer)
    (fun merged _ _ => e.select_eq_error_iff merged)

/-- A Task that is not wrong passes on what its steps compute. -/
theorem passes_iff {data : Json} : e.Passes data ↔ ∃ payload resource answer,
    e.flow.payload e.document = .ok payload ∧ e.find = .ok resource ∧
      (e.reply resource payload).1 = .ok answer ∧ e.flow.output e.document answer = .ok data := by
  constructor
  · rintro ⟨hpayload, hfind, hanswer, hmerge, hselect⟩
    exact ⟨_, _, _, takes_iff.1 hpayload, e.find_eq_ok_iff.2 hfind, hanswer,
      Except.bind_eq_ok_iff.2 ⟨_, hmerge, hselect⟩⟩
  · rintro ⟨payload, resource, answer, hpayload, hfind, hanswer, houtput⟩
    obtain ⟨merged, hmerge, hselect⟩ := Except.bind_eq_ok_iff.1 houtput
    exact ⟨takes_iff.2 hpayload, e.find_eq_ok_iff.1 hfind, hanswer, hmerge, hselect⟩

/-- It concludes with the data that it passes on. -/
theorem outcome_of_passes {data : Json} (h : e.Passes data) :
    ∃ world : σ, e.ran.outcome = (e.state.conclude e.name data world).outcome := by
  obtain ⟨payload, resource, answer, hpayload, hfind, hanswer, houtput⟩ := e.passes_iff.1 h
  refine ⟨(e.reply resource payload).2, ?_⟩
  simp only [outcome_ran, hpayload, hfind, bind, Except.bind, hanswer, houtput]

/-- The state concludes with its data where it has somewhere to go. -/
theorem conclude_eq_ok_iff (data : Json) (world : σ) {r : Result} :
    (e.state.conclude e.name data world).outcome = .ok r ↔
      e.exit.ends = true ∧ r = .final data "Task" ∨
        ∃ next, e.exit.ends = false ∧ e.exit.next = some next ∧ next ≠ "" ∧
          r = .step data "Task" next := by
  rcases e.state.conclude_cases e.name data world with
    ⟨hends, hc⟩ | ⟨next, ⟨hends, hnext, hne⟩, hc⟩ | ⟨hends, hno, hc⟩
  · rw [hc]
    constructor
    · intro h
      exact .inl ⟨hends, (Except.ok.inj h).symm⟩
    · rintro (⟨-, rfl⟩ | ⟨next, hgoes, -⟩)
      · rfl
      · cases hgoes.symm.trans hends
  · rw [hc]
    constructor
    · intro h
      exact .inr ⟨next, hends, hnext, hne, (Except.ok.inj h).symm⟩
    · rintro (⟨hstops, -⟩ | ⟨next', -, hnext', -, rfl⟩)
      · cases hstops.symm.trans hends
      · cases hnext.symm.trans hnext'
        rfl
  · rw [hc]
    constructor
    · intro h
      cases h
    · rintro (⟨hstops, -⟩ | ⟨next, hgoes, hnext, hne, -⟩)
      · cases hstops.symm.trans hends
      · exact absurd ⟨hgoes, hnext, hne⟩ (hno next)

/-- **A Task comes to a result exactly if its rules lead there.** -/
theorem outcome_eq_ok_iff (r : Result) : e.ran.outcome = .ok r ↔ e.Yields r := by
  rw [outcome_ran]
  constructor
  · intro h
    obtain ⟨payload, hpayload, h⟩ := Except.bind_eq_ok_iff.1 h
    obtain ⟨resource, hfind, h⟩ := Except.bind_eq_ok_iff.1 h
    obtain ⟨answer, hanswer, h⟩ := Except.bind_eq_ok_iff.1 h
    obtain ⟨data, houtput, h⟩ := Except.bind_eq_ok_iff.1 h
    have hdata := e.passes_iff.2 ⟨payload, resource, answer, hpayload, hfind, hanswer, houtput⟩
    rcases (e.conclude_eq_ok_iff data _).1 h with ⟨hends, rfl⟩ | ⟨next, hends, hnext, hne, rfl⟩
    · exact .final hdata hends
    · exact .step hdata hends hnext hne
  · rw [← outcome_ran]
    intro h
    cases h with
    | final hdata hends =>
      obtain ⟨world, hran⟩ := e.outcome_of_passes hdata
      rw [hran]
      exact (e.conclude_eq_ok_iff _ world).2 (.inl ⟨hends, rfl⟩)
    | step hdata hends hnext hne =>
      obtain ⟨world, hran⟩ := e.outcome_of_passes hdata
      rw [hran]
      exact (e.conclude_eq_ok_iff _ world).2 (.inr ⟨_, hends, hnext, hne, rfl⟩)

/-- **A Task calls its resource once, or something was wrong before.** -/
theorem acts_once : e.ActsOnce := by
  cases hpayload : e.flow.payload e.document with
  | error fault =>
    have hfirst : Except.FirstOf e.Strikes ([.inputPath] ++ [.resource]) fault :=
      Except.firstOf_append_iff.2 (.inl (e.payload_eq_error_iff.1 hpayload))
    exact .stopped hfirst (e.ran_of_payload_eq_error hpayload)
  | ok payload =>
    have hnone (other : Fault) : ¬ Except.FirstOf e.Strikes [.inputPath] other := fun h => by
      cases hpayload.symm.trans (e.payload_eq_error_iff.2 h)
    cases hfind : e.find with
    | error fault =>
      have hfirst : Except.FirstOf e.Strikes ([.inputPath] ++ [.resource]) fault :=
        Except.firstOf_append_iff.2 (.inr ⟨hnone, e.find_eq_error_iff.1 hfind⟩)
      exact .stopped hfirst (e.ran_of_find_eq_error hpayload hfind)
    | ok resource =>
      have hran := e.ran_of_find_eq_ok hpayload hfind
      refine .called (takes_iff.2 hpayload) (e.find_eq_ok_iff.1 hfind) ?_ ?_
      · rw [hran]
        cases (e.reply resource payload).1 with
        | error fault => rfl
        | ok answer =>
          rw [Step.ok_bind, Ran.calls_after, (e.state.still_finish _ _ _ _).calls_eq_nil]
          rfl
      · rw [hran]
        cases (e.reply resource payload).1 with
        | error fault => rfl
        | ok answer => exact (e.state.still_finish _ _ _ answer).world_eq _

/-- The same Task with another input rule. -/
def withInputPath (selector : Selector) : Errand σ :=
  { e with flow := { e.flow with inputPath := selector } }

/-- The input rule is never looked at where an input is given. -/
theorem ran_withInputPath {input : Json} (hinput : e.flow.input = some input)
    (selector : Selector) : (e.withInputPath selector).ran = e.ran := by
  have hpayload : (e.withInputPath selector).flow.payload e.document =
      e.flow.payload e.document := by
    simp [withInputPath, DataFlow.payload, hinput]
  show (e.withInputPath selector).state.execute e.registry e.mode e.name e.document e.world =
    e.state.execute e.registry e.mode e.name e.document e.world
  rw [State.execute_eq, State.execute_eq]
  show (Step.ofExcept ((e.withInputPath selector).flow.payload e.document) >>= _) e.world =
    (Step.ofExcept (e.flow.payload e.document) >>= _) e.world
  rw [hpayload]
  rfl

/-! ## In order -/

/-- What a Task leaves is in order. -/
structure InOrder : Prop where
  /-- It fails by the first thing that is wrong with it. -/
  fault : ∀ fault, e.ran.outcome = .error fault ↔ Except.FirstOf e.Strikes Snag.order fault
  /-- It comes to what its rules lead to. -/
  result : ∀ r, e.ran.outcome = .ok r ↔ e.Yields r
  /-- The one call is made after the first two things are in order. -/
  acts : e.ActsOnce
  /-- What the resource raises is handed on, and as it is, unless one waits for it and
  it says that an iterator has nothing left. -/
  raised : ∀ resource payload raised, (resource payload e.world).Throws e.mode raised →
    (e.reply resource payload).1 = .error (e.mode.handsOn raised) ∧
      (e.mode.handsOn raised = raised ↔
        e.mode = .sync ∨ ∀ name about, raised ≠ .stated (.exhausted name) about)
  /-- An input that is given hides the input rule. -/
  hidden : ∀ input, e.flow.input = some input →
    ∀ selector, (e.withInputPath selector).ran = e.ran

end Errand

/-- **A Task calls its resource once or fails before, and its faults come in
order.** No state of another type calls anything, whatever the resources. -/
theorem State.calls_in_order :
    (∀ e : Errand σ, e.InOrder) ∧
    ∀ s : State, s.type ≠ .task → ∀ (registry : Registry σ) mode name document world,
      (s.execute registry mode name document world).calls = [] ∧
      (s.execute registry mode name document world).world = world ∧
      ∀ registry' mode', s.execute registry' mode' name document world =
        s.execute registry mode name document world := by
  constructor
  · intro e
    exact {
      fault := e.outcome_eq_error_iff
      result := e.outcome_eq_ok_iff
      acts := e.acts_once
      raised := fun _ _ _ hthrows => ⟨hthrows.take_eq e.id, Mode.handsOn_eq_self_iff⟩
      hidden := fun _ => e.ran_withInputPath }
  · intro s htype registry mode name document world
    obtain ⟨step, hstill, hstep⟩ : ∃ step : Step σ Result, step.Still ∧ _ :=
      s.execute_of_not_task htype name document
    rw [hstep]
    refine ⟨hstill.calls_eq_nil world, hstill.world_eq world, fun registry' mode' => ?_⟩
    rw [hstep]

/-- A Task with an input rule whose index has one digit more than are read. -/
def Errand.farsighted : Errand Nat where
  comment := none
  id := "rpc"
  flow := ⟨none, .part (Path.atPadded 4300), some "$", .whole⟩
  exit := ⟨none, true⟩
  registry := ⟨fun _ => none⟩
  mode := .sync
  name := .str "Ask"
  document := .null
  world := 0

/-- **An input rule that fails by no fault of the path.** The Task fails by it
and calls nothing, but what it fails by refuses no path. -/
theorem farsighted_errand_refuses_no_path :
    Errand.farsighted.ran = ⟨.error (.longNumeral 4301), [], 0⟩ ∧
      ∀ path reason, ¬ (Fault.longNumeral 4301).RefusesPath path reason := by
  have hread : readPath (Path.atPadded 4300) = .error (.longNumeral 4301) :=
    Path.readPath_atPadded (by decide)
  have hpayload : Errand.farsighted.flow.payload Errand.farsighted.document =
      .error (.longNumeral 4301) := by
    show readPath (Path.atPadded 4300) >>= _ = _
    rw [hread]
    rfl
  refine ⟨Errand.farsighted.ran_of_payload_eq_error hpayload, fun path reason hrefuses => ?_⟩
  cases hrefuses.family

/-- None of its rules is a path and it leads nowhere: the input hides the first
fault, and the answer all others. -/
example :
    let flow : DataFlow := ⟨some .null, .part "in", some "result", .part "out"⟩
    let refusal : Fault := .stated (.foreign "Busy") []
    let busy : Resource Nat := fun _ calls => .now (.error refusal) (calls + 1)
    let e : Errand Nat :=
      ⟨none, "rpc", flow, ⟨none, false⟩, ⟨fun _ => some busy⟩, .sync, .str "Ask", .null, 0⟩
    e.ran = ⟨.error refusal, [.invoking (.str "Ask") "rpc", .called "rpc" .null], 1⟩ := rfl

end Workflow
