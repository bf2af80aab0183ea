import Workflow.Proofs.InStep
/-!
# Workflow — machines that run alike

Resources keep what they like in their worlds, so two registries behave the
same if some relation holds of their worlds, is kept by every reply and makes
the replies equal otherwise. Executing a state leaves the same over resources
that are alike where the state calls them (`State.execute_alike`). Two machines
are in step if their visits are alike and lead to stops that are alike again:
`Machine.Alike` asks this of one visit, and `Machine.Alike.inStep` is what follows.
-/

namespace Workflow

variable {σ τ α : Type} {R : σ → τ → Prop}

/-! ## Replies, and what is left -/

/-- Two replies say the same, and leave worlds that are related. -/
inductive Reply.Alike (R : σ → τ → Prop) : Reply σ → Reply τ → Prop
  | now {answer : Except Fault Json} {world : σ} {world' : τ} (h : R world world') :
      Reply.Alike R (.now answer world) (.now answer world')
  | later {answer : Except Fault Json} {unawaited awaited : σ} {unawaited' awaited' : τ}
      (h : R unawaited unawaited') (h' : R awaited awaited') :
      Reply.Alike R (.later unawaited answer awaited) (.later unawaited' answer awaited')

/-- Two registries behave the same under an id: neither has a resource there,
or theirs reply alike to every payload, in worlds that are related. -/
def Registry.AlikeAt (R : σ → τ → Prop) (registry : Registry σ) (registry' : Registry τ)
    (id : String) : Prop :=
  Option.Rel (fun resource resource' => ∀ payload world world', R world world' →
    Reply.Alike R (resource payload world) (resource' payload world'))
    (registry.find? id) (registry'.find? id)

/-- The same is left, but for the world. -/
structure Ran.Alike (R : σ → τ → Prop) (ran : Ran σ α) (ran' : Ran τ α) : Prop where
  /-- The outcomes are equal. -/
  outcome : ran.outcome = ran'.outcome
  /-- The same happened. -/
  events : ran.events = ran'.events
  /-- The worlds are related. -/
  world : R ran.world ran'.world

/-- Two runs stand before one state, with one document and related worlds. -/
structure Stop.Alike (R : σ → τ → Prop) (s : Stop σ) (s' : Stop τ) : Prop where
  /-- The states are one. -/
  name : s.name = s'.name
  /-- So are the documents. -/
  document : s.document = s'.document
  /-- The worlds are related. -/
  world : R s.world s'.world

/-- Alike replies are taken alike. -/
theorem Reply.Alike.take {reply : Reply σ} {reply' : Reply τ} (h : Reply.Alike R reply reply')
    (mode : Mode) (id : String) :
    (reply.take mode id).1 = (reply'.take mode id).1 ∧
      R (reply.take mode id).2 (reply'.take mode id).2 := by
  cases h with
  | now h =>
    cases mode with
    | sync => exact ⟨rfl, h⟩
    | async => exact ⟨rfl, h⟩
  | later h h' =>
    cases mode with
    | sync => exact ⟨rfl, h⟩
    | async => exact ⟨rfl, h'⟩

namespace Ran.Alike

variable {ran : Ran σ α} {ran' : Ran τ α}

/-- The same resources were called, with the same payloads. -/
theorem calls (h : Ran.Alike R ran ran') : ran.calls = ran'.calls := by
  rw [Ran.calls, Ran.calls, h.events]

/-- Events before both change nothing. -/
theorem after (h : Ran.Alike R ran ran') (events : List Event) :
    Ran.Alike R (ran.after events) (ran'.after events) :=
  ⟨h.outcome, congrArg (events ++ ·) h.events, h.world⟩

/-- Nor does an overrun of both. -/
theorem overrun {ran : Ran σ Result} {ran' : Ran τ Result} (h : Ran.Alike R ran ran')
    (limit : Int) (last : StateName) :
    Ran.Alike R (ran.overrun limit last) (ran'.overrun limit last) :=
  ⟨rfl, h.events, h.world⟩

/-- Where a run goes on after the one it goes on after the other. -/
theorem onward? {ran : Ran σ Result} {ran' : Ran τ Result} (h : Ran.Alike R ran ran') :
    Option.Rel (Stop.Alike R) ran.onward? ran'.onward? := by
  unfold Ran.onward?
  rw [← h.outcome]
  cases ran.outcome with
  | error fault => exact .none
  | ok r =>
    dsimp only
    cases r.successor with
    | none => exact .none
    | some next => exact .some ⟨rfl, rfl, h.world⟩

/-- Runs that leave the same, if they end, come to one outcome with the same
calls. -/
theorem outcome_of_rel {ends : Option (Ran σ α)} {ends' : Option (Ran τ α)}
    (h : Option.Rel (Ran.Alike R) ends ends') :
    ends.map (fun ran => (ran.outcome, ran.calls)) =
      ends'.map (fun ran => (ran.outcome, ran.calls)) := by
  cases h with
  | none => rfl
  | some hran => simp only [Option.map_some, hran.outcome, hran.calls]

/-- What is the same but for values that are equal is the same. -/
theorem of_rel {ran : Ran σ Result} {ran' : Ran τ Result}
    (h : Ran.Rel R (· = ·) (Result.Rel (· = ·)) ran ran') : Ran.Alike R ran ran' := by
  obtain ⟨houtcome, hevents, hworld⟩ := h
  refine ⟨?_, ?_, hworld⟩
  · generalize ran.outcome = outcome at houtcome ⊢
    generalize ran'.outcome = outcome' at houtcome ⊢
    cases houtcome with
    | error fault => rfl
    | @ok r r' hr =>
      obtain ⟨data, stateType, next, terminal, onward⟩ := r
      obtain ⟨data', stateType', next', terminal', onward'⟩ := r'
      obtain ⟨rfl, rfl, rfl, rfl⟩ := hr
      rfl
  · refine List.forall₂_eq_eq_eq ▸ hevents.imp fun event event' hevent => ?_
    cases hevent with
    | called hpayload => rw [hpayload]
    | same _ => rfl

end Ran.Alike

/-! ## Executing a state -/

/-- Two steps leave the same in worlds that are related. -/
def Step.Alike (R : σ → τ → Prop) (s : Step σ α) (s' : Step τ α) : Prop :=
  ∀ world world', R world world' → Ran.Alike R (s world) (s' world')

/-- Registries that behave the same answer alike. -/
theorem Registry.AlikeAt.relAt {registry : Registry σ} {registry' : Registry τ} {id : String}
    (h : registry.AlikeAt R registry' id) (mode : Mode) :
    registry.RelAt R (· = ·) mode registry' id := by
  unfold AlikeAt at h
  unfold RelAt
  generalize registry.find? id = found at h ⊢
  generalize registry'.find? id = found' at h ⊢
  cases h with
  | none => exact .none
  | some hreply =>
    refine .some fun payload payload' world world' hpayload hworld => ?_
    subst hpayload
    obtain ⟨hanswer, hleft⟩ := (hreply payload world world' hworld).take mode id
    exact ⟨hanswer ▸ .refl fun _ _ => rfl, hleft⟩

/-- **Executing a state looks at no resource but its own.** -/
theorem State.execute_alike {registry : Registry σ} {registry' : Registry τ} {s : State}
    (h : ∀ id flow exit, s.work = .task id flow exit → registry.AlikeAt R registry' id)
    (mode : Mode) (name : StateName) (document : Json) :
    Step.Alike R (s.execute registry mode name document)
      (s.execute registry' mode name document) := by
  intro world world' hworld
  have hkeeps (flow : DataFlow) : flow.Keeps (· = ·) := {
    payload := by
      rintro document _ rfl
      exact .refl fun _ _ => rfl
    output := by
      rintro document _ result _ rfl rfl
      exact .refl fun _ _ => rfl }
  have hid (id : String) (flow : DataFlow) (exit : Exit) (hw : s.work = .task id flow exit) :=
    (h id flow exit hw).relAt mode
  exact .of_rel (execute_rel (fun flow _ => hkeeps flow) hid name rfl world world' hworld)

/-! ## Machines -/

/-- Visits at related stops leave the same, but for related worlds, and so lead
to stops that are alike; these are related again. -/
structure Machine.Alike (R : σ → τ → Prop) (S : Stop σ → Stop τ → Prop) (mode : Mode)
    (m : Machine σ) (m' : Machine τ) : Prop where
  /-- The limits are equal. -/
  limit : m.limit = m'.limit
  /-- Related stops are before one state. -/
  name : ∀ {s s'}, S s s' → s.name = s'.name
  /-- Visits at related stops leave the same. -/
  visit : ∀ {s s'}, S s s' → Ran.Alike R (m.visit mode s) (m'.visit mode s')
  /-- They lead to related stops. -/
  leads : ∀ {s s' t t'}, S s s' → m.Leads mode s t → m'.Leads mode s' t' → Stop.Alike R t t' →
    S t t'

/-- **Alike machines run in step.** -/
theorem Machine.Alike.inStep {m : Machine σ} {m' : Machine τ} {mode : Mode}
    {S : Stop σ → Stop τ → Prop} (h : Machine.Alike R S mode m m') :
    Machine.InStep (Ran.Alike R) S mode m m' where
  limit := h.limit
  visit hs := h.visit hs
  onward hs := by
    have honward := (h.visit hs).onward?
    refine .of_isSome_iff honward.isSome_iff fun t t' ht ht' => ?_
    obtain ⟨t'', ht'', hlike⟩ := honward.exists_of_eq_some ht
    obtain rfl := Option.some.inj (ht'.symm.trans ht'')
    exact h.leads hs (onward?_eq_some_iff.1 ht) (onward?_eq_some_iff.1 ht') hlike
  after hs hran := by
    rw [(h.visit hs).events]
    exact hran.after _
  overrun limit hs hran := by
    rw [h.name hs]
    exact hran.overrun limit _

end Workflow
