import Workflow.Proofs.State
import Workflow.Proofs.Visit
/-!
# Workflow — a state with another next state

A Task or a Pass computes without a look at where it leads. So a raw one that
names another next state loads as the state that leads there
(`State.ofMembers_redirect`), and executing that comes to the same, but that it
goes on to the other state where the first goes on (`State.execute_redirect`).
-/

namespace Workflow

variable {σ : Type}

/-- Work that computes, with another next state. -/
def Work.redirect (next : String) : Work → Work
  | task id flow exit => task id flow { exit with next := some next }
  | pass flow exit => pass flow { exit with next := some next }
  | work => work

/-- A state that computes, with another next state. -/
def State.redirect (next : String) (s : State) : State :=
  { s with work := s.work.redirect next }

/-! ## Loading -/

section Load

variable {raw : Members} {t : StateType} {old next : String}

/-- Fields with another next state are those of the work that leads there. -/
theorem Work.ofMembers_redirect (ht : t = .task ∨ t = .pass) (ms : Members) (next : String) :
    Work.ofMembers (Entries.insert ms "Next" (.str next)) t =
      Work.redirect next <$> Work.ofMembers ms t := by
  have hexit : Members.exit (Entries.insert ms "Next" (.str next)) =
      { Members.exit ms with next := some next } := by
    simp only [Members.exit, Members.text?, Members.flag, Entries.get?_insert, if_true]
    rfl
  have hflow : Members.flow (Entries.insert ms "Next" (.str next)) = Members.flow ms :=
    Members.flow_insert rfl ms (.str next)
  have hresource : Members.requireText (Entries.insert ms "Next" (.str next)) "Resource" =
      Members.requireText ms "Resource" := by
    rw [Members.requireText, Members.text?, Entries.get?_insert, if_neg (by decide)]
    rfl
  rcases ht with rfl | rfl
  · simp only [Work.ofMembers, hexit, hflow, hresource]
    cases Members.requireText ms "Resource" with
    | error p => rfl
    | ok resource => cases Members.flow ms <;> rfl
  · simp only [Work.ofMembers, hexit, hflow]
    cases Members.flow ms <;> rfl

namespace State

/-- **A raw state with another next state fits as the one that leads there.** -/
theorem fit_redirect (ht : t = .task ∨ t = .pass) (hraw : Entries.Distinct raw)
    (hnext : Entries.get? raw "Next" = some (.str old)) :
    fit t (Entries.insert raw "Next" (.str next)) = redirect next <$> fit t raw := by
  have hrun : t.isRun := by
    rcases ht with rfl | rfl <;> rfl
  have htext (s : String) : (Shape.scalar [.str, .null]).fit (.ofJson (.str s)) = .ok (.str s) :=
    rfl
  have hrecord := Record.fit_insert (StateType.record_strict hrun) hraw
    (StateType.exit_fields hrun).1 (htext next) fun v hv => by
      rw [← Option.some.inj (hnext.symm.trans hv)]
      exact htext old
  have hcomment (ms : Members) :
      Members.text? (Entries.insert ms "Next" (.str next)) "Comment" =
        Members.text? ms "Comment" := by
    rw [Members.text?, Entries.get?_insert, if_neg (by decide)]
    rfl
  unfold fit
  rw [hrecord]
  cases t.record.fit (.obj (Json.Draft.ofMembers raw)) with
  | error p => rfl
  | ok ms =>
    have hwork := Work.ofMembers_redirect ht ms next
    show (do
        let work ← Work.ofMembers (Entries.insert ms "Next" (.str next)) t
        return (⟨Members.text? (Entries.insert ms "Next" (.str next)) "Comment", work⟩ : State)) =
      redirect next <$> (do
        let work ← Work.ofMembers ms t
        return (⟨Members.text? ms "Comment", work⟩ : State))
    rw [hwork, hcomment]
    cases Work.ofMembers ms t <;> rfl

/-- **So it loads as the state that leads there**, or fails as it did. -/
theorem ofMembers_redirect (ht : t = .task ∨ t = .pass) (hraw : Entries.Distinct raw)
    (htype : Entries.get? raw "Type" = some (.str t.name))
    (hnext : Entries.get? raw "Next" = some (.str old)) (name : StateName) :
    ofMembers name (Entries.insert raw "Next" (.str next)) =
      redirect next <$> ofMembers name raw := by
  have htype' : Entries.get? (Entries.insert raw "Next" (.str next)) "Type" =
      some (.str t.name) := by
    rw [Entries.get?_insert, if_neg (by decide), htype]
  simp only [ofMembers, htype, htype', Option.bind_some, StateType.ofJson?_name]
  rw [fit_redirect ht hraw hnext]
  cases fit t raw <;> rfl

end State

end Load

/-! ## Executing -/

/-- A result is the same, but that it goes on to another state. -/
inductive Result.Redirected (old next : String) : Result → Result → Prop
  /-- It ends the run. -/
  | final {r : Result} (h : r.terminal = true) : Result.Redirected old next r r
  /-- It goes on. -/
  | step (data : Json) (stateType : String) :
      Result.Redirected old next (.step data stateType old) (.step data stateType next)

/-- The same is left, but for a result that goes on to another state. -/
structure Ran.Redirected (old next : String) (ran ran' : Ran σ Result) : Prop where
  /-- The outcomes are one fault, or results that are the same but for that. -/
  outcome : Except.Rel (Result.Redirected old next) ran.outcome ran'.outcome
  /-- The same resources were called, with the same payloads. -/
  calls : ran.calls = ran'.calls
  /-- The worlds are equal. -/
  world : ran.world = ran'.world

namespace Ran.Redirected

variable {old next : String} {ran ran' : Ran σ Result}

theorem after (h : Ran.Redirected old next ran ran') (events : List Event) :
    Ran.Redirected old next (ran.after events) (ran'.after events) :=
  ⟨h.outcome, by rw [Ran.calls_after, Ran.calls_after, h.calls], h.world⟩

/-- **Where a run goes on, the other goes on to the other state**, with the same
data. Otherwise both come to the same. -/
theorem onward?_cases (h : Ran.Redirected old next ran ran') :
    (ran.onward? = none ∧ ran'.onward? = none ∧ ran.outcome = ran'.outcome) ∨
    ∃ data, ran.onward? = some ⟨.str old, data, ran.world⟩ ∧
      ran'.onward? = some ⟨.str next, data, ran.world⟩ := by
  obtain ⟨houtcome, -, hworld⟩ := h
  unfold Ran.onward?
  rw [← hworld]
  generalize ran.outcome = outcome at houtcome ⊢
  generalize ran'.outcome = outcome' at houtcome ⊢
  cases houtcome with
  | error fault => exact .inl ⟨rfl, rfl, rfl⟩
  | @ok r r' hr =>
    cases hr with
    | final hterminal =>
      left
      simp only [Result.successor, hterminal, if_true]
      exact ⟨rfl, rfl, trivial⟩
    | step data stateType => exact .inr ⟨data, rfl, rfl⟩

end Ran.Redirected

namespace State

variable {s : State} {old next : String}

/-- **A state that computes does so before it looks where to go.** -/
theorem exists_compute (h : s.work.flow?.isSome) (registry : Registry σ) (mode : Mode)
    (name : StateName) (document : Json) : ∃ compute : Step σ Json,
      s.execute registry mode name document = compute >>= s.conclude name ∧
      ∀ next, (s.redirect next).execute registry mode name document =
        compute >>= (s.redirect next).conclude name := by
  -- the exit is only looked at by the last step, so all others are one computation
  obtain ⟨comment, work⟩ := s
  cases work with
  | task id flow exit =>
    refine ⟨do
      let payload ← Step.ofExcept (flow.payload document)
      let resource ← registry.find id
      Step.emit (.invoking name id)
      let answer ← resource.call mode id payload
      Step.ofExcept (flow.output document answer), ?_, fun next => ?_⟩
    · simp only [execute_eq, finish, bind_assoc]
    · simp only [execute_eq, redirect, Work.redirect, finish, bind_assoc]
  | pass flow exit =>
    refine ⟨do
      let payload ← Step.ofExcept (flow.payload document)
      Step.ofExcept (flow.output document payload), ?_, fun next => ?_⟩
    · simp only [execute_eq, finish, bind_assoc]
    · simp only [execute_eq, redirect, Work.redirect, finish, bind_assoc]
  | _ => cases h

/-- A state that computes and names a next state concludes with that one or the
other. -/
theorem conclude_redirect (h : s.work.flow?.isSome) (hb : s.next = some old) (hne : old ≠ "")
    (hne' : next ≠ "") (name : StateName) (data : Json) (world : σ) :
    Ran.Redirected old next (s.conclude name data world)
      ((s.redirect next).conclude name data world) := by
  have hparts : (s.redirect next).isTerminal = s.isTerminal ∧
      (s.redirect next).type = s.type ∧ (s.redirect next).next = some next := by
    obtain ⟨comment, work⟩ := s
    cases work with
    | task | pass => exact ⟨rfl, rfl, rfl⟩
    | _ => cases h
  obtain ⟨hterminal, htype, hnext⟩ := hparts
  cases ht : s.isTerminal with
  | true =>
    have hfinal (s' : State) (ht' : s'.isTerminal = true) : s'.conclude name data world =
        ⟨.ok (.final data s'.type.name), [.ended name], world⟩ := by
      rw [conclude, if_pos ht']
      rfl
    rw [hfinal s ht, hfinal _ (hterminal.trans ht), htype]
    exact ⟨.ok (.final rfl), rfl, rfl⟩
  | false =>
    have hleads : s.LeadsTo old := ⟨ht, hb, hne⟩
    have hleads' : (s.redirect next).LeadsTo next := ⟨hterminal.trans ht, hnext, hne'⟩
    rw [conclude_of_leadsTo hleads, conclude_of_leadsTo hleads', htype]
    exact ⟨.ok (.step data _), rfl, rfl⟩

/-- **A state with another next state does what it did**, and goes on to the
other state where it went on. -/
theorem execute_redirect (h : s.work.flow?.isSome) (hb : s.next = some old) (hne : old ≠ "")
    (hne' : next ≠ "") (registry : Registry σ) (mode : Mode) (name : StateName) (document : Json)
    (world : σ) :
    Ran.Redirected old next (s.execute registry mode name document world)
      ((s.redirect next).execute registry mode name document world) := by
  obtain ⟨compute, hexecute, hexecute'⟩ := exists_compute h registry mode name document
  rw [hexecute, hexecute' next]
  rcases hcompute : compute world with ⟨outcome, events, world'⟩
  simp only [Bind.bind, Step.bind, hcompute]
  cases outcome with
  | error fault => exact ⟨.error fault, rfl, rfl⟩
  | ok data => exact (conclude_redirect h hb hne hne' name data world').after events

end State

end Workflow
