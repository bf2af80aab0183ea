import Workflow.Fault
/-!
# Workflow — resources

A Task hands its input to a resource, which stands in for a remote service.
A resource replies at once or defers its reply, and may keep something in a
world of type `σ` from one invocation to the next. A deferred reply that
nobody waits for leaves undone whatever it would have done. Replies are taken
in two ways, each said by itself: `Reply.takeSync` refuses what is deferred,
`Reply.takeAsync` waits for it.
-/

namespace Workflow

/-- What a resource says to one invocation. -/
inductive Reply (σ : Type) where
  /-- An answer, and the world after it. -/
  | now (answer : Except Fault Json) (world : σ)
  /-- The world as it is until somebody waits, then the answer and the world
  after that. -/
  | later (unawaited : σ) (answer : Except Fault Json) (awaited : σ)

/-- A resource: what it says to a payload in a world. It answers with values of
its own and keeps what it likes in the world, but is taken to leave the payload
alone, which is part of the document that is at hand. -/
abbrev Resource (σ : Type) := Json → σ → Reply σ

/-- The resources at hand, by id. -/
structure Registry (σ : Type) where
  /-- The resource that is registered under an id. -/
  find? : String → Option (Resource σ)

/-- How a resource's reply is taken. -/
inductive Mode where
  /-- At once: a deferred reply is refused. -/
  | sync
  /-- With patience: a deferred reply is waited for. -/
  | async
  deriving DecidableEq, Repr

namespace Reply

/-- The reply in another world. -/
def map {σ τ : Type} (f : σ → τ) : Reply σ → Reply τ
  | now answer world => now answer (f world)
  | later unawaited answer awaited => later (f unawaited) answer (f awaited)

/-- What waiting for a reply would give, given at once. -/
def settle {σ : Type} : Reply σ → Reply σ
  | now answer world => now answer world
  | later _ answer awaited => now answer awaited

/-- The answer that is taken at once from the resource with an id, and the world
after it. -/
def takeSync {σ : Type} (id : String) : Reply σ → Except Fault Json × σ
  | now answer world => (answer, world)
  | later unawaited _ _ => (.error (.deferredResource id), unawaited)

/-- The answer that is taken with patience, and the world after it. A fault comes
out of waiting, also where there is nothing to wait for. -/
def takeAsync {σ : Type} : Reply σ → Except Fault Json × σ
  | now answer world => (answer.mapError Fault.awaited, world)
  | later _ answer awaited => (answer.mapError Fault.awaited, awaited)

/-- The answer that is taken in one mode or the other. -/
def take {σ : Type} (mode : Mode) (id : String) (reply : Reply σ) : Except Fault Json × σ :=
  match mode with
  | .sync => reply.takeSync id
  | .async => reply.takeAsync

end Reply

namespace Registry

/-- No resources. -/
def empty (σ : Type) : Registry σ := ⟨fun _ => none⟩

/-- The registry in which every resource gives at once what waiting for it
would give. -/
def settled {σ : Type} (registry : Registry σ) : Registry σ :=
  ⟨fun id => (registry.find? id).map fun resource payload world => (resource payload world).settle⟩

end Registry

end Workflow
