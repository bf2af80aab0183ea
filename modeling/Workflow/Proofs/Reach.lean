import Workflow.Proofs.Likeness
import Workflow.Proofs.Trace
/-!
# Workflow — what a run can reach

A run loads a state only when it comes to it, and it comes only to the start
state and to the next states of those that it has loaded. So two definitions
that declare the same under every name within reach run alike over resources
that behave the same where a Task within reach calls them
(`Definition.run_depends_on_reach`): what else they declare, and in what order,
never matters.
-/

namespace Workflow

variable {σ τ : Type} {R : σ → τ → Prop}

namespace Definition

variable {d d' : Definition} {name : String} {registry : Registry σ} {registry' : Registry τ}
  {limit : Option Int} {mode : Mode} {document : Json} {world : σ} {world' : τ}
  {events : List Event}

/-- The names within reach: the one that a run starts with, and every next
one of a state that loads under a name within reach. An empty name is none. -/
inductive Reaches (d : Definition) : String → Prop
  /-- The start state. -/
  | start {name : String} (h : d.startAt = some name) : d.Reaches name
  /-- The next state of one that loads, whether that ends the run or not. -/
  | next {name next : String} {st : State} (h : d.Reaches name) (hst : d.state name = .ok st)
      (hnext : st.next = some next) (hne : next ≠ "") : d.Reaches next

/-- Two definitions start with the same name and declare the same under every
name within reach of the first, and resources behave the same under every id
that a Task within reach names. -/
structure AlikeInReach (R : σ → τ → Prop) (registry : Registry σ) (registry' : Registry τ)
    (d d' : Definition) : Prop where
  /-- They start with the same name. -/
  startAt : d.startAt = d'.startAt
  /-- Under a name within reach they declare the same raw state, or none. -/
  states : ∀ name, d.Reaches name → Entries.get? d.states name = Entries.get? d'.states name
  /-- Under the id of a Task within reach the resources behave the same. -/
  resources : ∀ name comment id flow exit, d.Reaches name →
    d.state name = .ok ⟨comment, .task id flow exit⟩ → registry.AlikeAt R registry' id

namespace AlikeInReach

/-- The same state loads under a name within reach. -/
theorem state_eq (h : AlikeInReach R registry registry' d d') (hname : d.Reaches name) :
    d.program.state (.str name) = d'.program.state (.str name) := by
  have hstate : d.state name = d'.state name := by
    unfold state
    rw [h.states name hname]
  simpa [program, Json.textOr, Json.asName, bind, Except.bind, pure, Except.pure] using hstate

/-- Visits to a state within reach leave the same. -/
theorem visit_alike (h : AlikeInReach R registry registry' d d') (hname : d.Reaches name)
    (hworld : R world world') :
    Ran.Alike R ((d.machine registry limit).visit mode ⟨.str name, document, world⟩)
      ((d'.machine registry' limit).visit mode ⟨.str name, document, world'⟩) := by
  have hstate := h.state_eq hname
  cases hst : d.program.state (.str name) with
  | error fault =>
    rw [Machine.visit_of_error (s := ⟨.str name, document, world⟩) hst,
      Machine.visit_of_error (s := ⟨.str name, document, world'⟩) (hstate ▸ hst)]
    exact ⟨rfl, rfl, hworld⟩
  | ok st =>
    rw [Machine.visit_of_ok (s := ⟨.str name, document, world⟩) hst,
      Machine.visit_of_ok (s := ⟨.str name, document, world'⟩) (hstate ▸ hst)]
    have hload : d.state name = .ok st := hst
    refine (State.execute_alike (fun id flow exit hwork => ?_) mode _ document
      world world' hworld).after _
    obtain ⟨comment, work⟩ := st
    obtain rfl : work = .task id flow exit := hwork
    exact h.resources name comment id flow exit hname hload

/-- **Two machines over them are alike.** A visit within reach leads to a name
within reach. -/
theorem machine_alike (h : AlikeInReach R registry registry' d d') (limit : Option Int)
    (mode : Mode) :
    Machine.Alike R (fun s s' => Stop.Alike R s s' ∧ ∃ name, s.name = .str name ∧ d.Reaches name)
      mode (d.machine registry limit) (d'.machine registry' limit) where
  limit := rfl
  name hs := hs.1.name
  visit := by
    rintro ⟨_, document, world⟩ ⟨_, _, world'⟩ ⟨⟨rfl, rfl, hworld⟩, name, rfl, hname⟩
    exact h.visit_alike hname hworld
  leads := by
    rintro s s' t t' ⟨-, name, hs, hname⟩ ht - hlike
    obtain ⟨next, hnext, st, hst, -, hn, hne⟩ := leadsTo_of_leads ht hs
    exact ⟨hlike, next, hnext, hname.next hst hn hne⟩

/-- Runs over them start with the same state, or neither does. -/
theorem startsAt_iff (h : AlikeInReach R registry registry' d d') :
    d.StartsAt name ↔ d'.StartsAt name := by
  unfold StartsAt
  rw [← h.startAt]
  refine and_congr_right fun hname => and_congr_right fun _ => ?_
  rw [← Entries.get?_isSome_iff, ← Entries.get?_isSome_iff, h.states name (.start hname)]

/-- And if neither does, then by the same fault. -/
theorem noStart_eq (h : AlikeInReach R registry registry' d d') : d.noStart = d'.noStart := by
  rw [noStart, noStart, h.startAt]

/-- The stops that two runs start from are related. -/
theorem start_alike (hname : d.StartsAt name) (hworld : R world world') :
    Stop.Alike R ⟨.str name, document, world⟩ ⟨.str name, document, world'⟩ ∧
      ∃ name', Json.str name = .str name' ∧ d.Reaches name' :=
  ⟨⟨rfl, rfl, hworld⟩, name, rfl, .start hname.1⟩

/-- **Runs over them end alike**, or neither ends. -/
theorem run_rel (h : AlikeInReach R registry registry' d d') (hworld : R world world') :
    Option.Rel (Ran.Alike R) ((d.machine registry limit).run mode document world)
      ((d'.machine registry' limit).run mode document world') := by
  have hno : Ran.Alike R ⟨(.error d.noStart : Except Fault Result), [], world⟩
      ⟨.error d'.noStart, [], world'⟩ :=
    ⟨congrArg Except.error h.noStart_eq, rfl, hworld⟩
  exact run_rel_of_inStep (h.machine_alike limit mode).inStep (fun _ => h.startsAt_iff)
    (fun _ hname => start_alike hname hworld) hno

/-- A run over the one has the traces that the run over the other has. -/
theorem trace_iff (h : AlikeInReach R registry registry' d d') (hworld : R world world') :
    d.Trace registry limit mode document world events ↔
      d'.Trace registry' limit mode document world' events := by
  have hlike := (h.machine_alike limit mode).inStep
  constructor
  · intro htrace
    have htraces := exists_trace_of_inStep hlike (fun _ => h.startsAt_iff)
      (fun _ hname => start_alike hname hworld) htrace
    rcases htraces with rfl | ⟨ran, ran', hran, rfl, htrace'⟩
    · exact .inl rfl
    · rwa [hran.events]
  · intro htrace'
    have htraces := exists_trace_of_inStep hlike.flip (fun _ => h.startsAt_iff.symm)
      (fun _ hname => start_alike (h.startsAt_iff.2 hname) hworld) htrace'
    rcases htraces with rfl | ⟨ran', ran, hran, rfl, htrace⟩
    · exact .inl rfl
    · have hevents : ran.events = ran'.events := Ran.Alike.events hran
      rwa [← hevents]

end AlikeInReach

/-- **A run depends on what it can reach, and on nothing else.** Take two
definitions with one start state which under every name within reach declare
the same raw state or both none, and two registries which behave the same
under every id of a Task within reach. The runs over them, in worlds that are
related, come to one outcome with the same calls, or neither ends; and what
the one has left by some point the other has left by some point. -/
theorem run_depends_on_reach {d d' : Definition} {registry : Registry σ} {registry' : Registry τ}
    (h : AlikeInReach R registry registry' d d') (limit : Option Int) (mode : Mode)
    (document : Json) {world : σ} {world' : τ} (hworld : R world world') :
    ((d.machine registry limit).run mode document world).map
        (fun ran => (ran.outcome, ran.calls)) =
      ((d'.machine registry' limit).run mode document world').map
        (fun ran => (ran.outcome, ran.calls)) ∧
    ∀ events, d.Trace registry limit mode document world events ↔
      d'.Trace registry' limit mode document world' events := by
  exact ⟨Ran.Alike.outcome_of_rel (h.run_rel hworld), fun events => h.trace_iff hworld⟩

/-- A Task and an end that names a state which is not there. -/
def tally : Definition where
  states := [
    ("Count", [("Type", .str "Task"), ("Resource", .str "tick"), ("ResultPath", .str "$.n"),
      ("Next", .str "Done")]),
    ("Done", [("Type", .str "Succeed"), ("Next", .str "After")])]
  startAt := some "Count"
  comment := none
  version := none
  timeoutSeconds := none

/-- The same in another order and among states that are out of reach, one of
an unknown type and one with fields that are none of its type's. -/
def crowdedTally : Definition where
  states := [
    ("Later", [("Type", .str "Sleep"), ("Next", .str "Count")]),
    ("Done", [("Type", .str "Succeed"), ("Next", .str "After")]),
    ("Spare", [("Type", .str "Task"), ("Retry", .int 3)]),
    ("Count", [("Type", .str "Task"), ("Resource", .str "tick"), ("ResultPath", .str "$.n"),
      ("Next", .str "Done")])]
  startAt := some "Count"
  comment := some "with company"
  version := some "1.0"
  timeoutSeconds := some 60

/-- The resource that counts its invocations, next to one that remembers its
payloads. -/
def crowdedCounter : Registry (Nat × List Json) where
  find? id :=
    if id = "tick" then
      some fun _ world => .now (.ok (.int (world.1 + 1))) (world.1 + 1, world.2)
    else if id = "note" then
      some fun payload world => .now (.ok .null) (world.1, payload :: world.2)
    else none

/-- The worlds of the two have counted the same. -/
def CountsAlike (past : Nat) (world : Nat × List Json) : Prop :=
  past = world.1

/-- What loads under a name that is within the tally's reach. -/
theorem state_of_reaches_tally (h : tally.Reaches name) :
    tally.state name =
        .ok ⟨none, .task "tick" ⟨none, .whole, some "$.n", .whole⟩ ⟨some "Done", false⟩⟩ ∧
          name = "Count" ∨
      tally.state name = .ok ⟨none, .succeed ⟨some "After", false⟩⟩ ∧ name = "Done" ∨
      tally.state name = .error (.stateNotFound (.str name)) ∧ name = "After" := by
  induction h with
  | start h =>
    cases h
    exact .inl ⟨rfl, rfl⟩
  | next _ hst hnext _ ih =>
    rcases ih with ⟨hload, -⟩ | ⟨hload, -⟩ | ⟨hload, -⟩ <;> rw [hload] at hst <;> cases hst <;>
      cases hnext
    · exact .inr (.inl ⟨rfl, rfl⟩)
    · exact .inr (.inr ⟨rfl, rfl⟩)

/-- The crowd is out of reach. -/
theorem tally_alikeInReach :
    AlikeInReach CountsAlike ticking crowdedCounter tally crowdedTally where
  startAt := rfl
  states name hname := by
    rcases state_of_reaches_tally hname with ⟨-, rfl⟩ | ⟨-, rfl⟩ | ⟨-, rfl⟩ <;> rfl
  resources name comment id flow exit hname hst := by
    rcases state_of_reaches_tally hname with ⟨hload, -⟩ | ⟨hload, -⟩ | ⟨hload, -⟩ <;>
      rw [hload] at hst <;> cases hst
    refine .some fun payload world world' hworld => ?_
    obtain rfl : world = world'.1 := hworld
    exact .now rfl

/-- The tally runs the same in a crowd, when seven invocations are past. -/
theorem tally_run_depends_on_reach :
    AlikeInReach CountsAlike ticking crowdedCounter tally crowdedTally ∧
      CountsAlike 7 (7, [.null]) ∧
      ((tally.machine ticking (some 1)).run .sync .null 7).map
          (fun ran => (ran.outcome, ran.calls)) =
        ((crowdedTally.machine crowdedCounter (some 1)).run .sync .null (7, [.null])).map
          (fun ran => (ran.outcome, ran.calls)) ∧
      ∀ events, tally.Trace ticking (some 1) .sync .null 7 events ↔
        crowdedTally.Trace crowdedCounter (some 1) .sync .null (7, [.null]) events := by
  have hworld : CountsAlike 7 (7, [Json.null]) := rfl
  exact ⟨tally_alikeInReach, hworld,
    run_depends_on_reach tally_alikeInReach (some 1) .sync .null hworld⟩

end Definition

end Workflow
