import AsterForge.Core.Identity

/-!
# The durable store

What the runners rely on from the product-owned journal: how a platform session fences the writes
of an executor, and how a call can fail.  The store itself is outside the repository; its port says
that every transition is atomic and happens under the active-generation fence.

* `StoreFault` — a call takes effect and answers, fails before it takes effect, or takes effect and
  loses its answer.
-/

namespace AsterForge.Core

/-- Stable classification of a persistence-layer failure.  The adapter-owned diagnostic text that
goes with it is left out: nothing depends on it. -/
inductive CloudFilesStoreErrorKind
  | notFound
  | conflict
  | invalidTransition
  | persistenceFailure
  deriving DecidableEq

inductive StoreWriteStatus
  | applied
  | alreadyApplied
  | fenced
  deriving DecidableEq

/-! ## Sessions -/

/-- Lifecycle of one active platform session generation. -/
inductive SessionState
  | accepting
  | closing
  | draining
  | closed
  deriving DecidableEq

/-- Whether moving from one state to the next is a valid idempotent lifecycle step. -/
def SessionState.canTransitionTo : SessionState → SessionState → Bool
  | .accepting, .accepting | .accepting, .closing => true
  | .closing, .closing | .closing, .draining => true
  | .draining, .draining | .draining, .closed => true
  | .closed, .closed => true
  | _, _ => false

/-- The active generation of one scope and its lifecycle state. -/
structure SessionRecord where
  generation : SessionGeneration
  state : SessionState

abbrev Sessions := CloudScope → Option SessionRecord

/-- Activates a generation in `accepting`, fencing all lower ones for the same scope. -/
def activateSession (sessions : Sessions) (scope : CloudScope) (generation : SessionGeneration) :
    Except CloudFilesStoreErrorKind StoreWriteStatus × Sessions :=
  let opened := Function.update sessions scope (some ⟨generation, .accepting⟩)
  match sessions scope with
  | none => (.ok .applied, opened)
  | some active =>
    if generation.value < active.generation.value then (.ok .fenced, sessions)
    else if generation = active.generation then
      if active.state = .accepting then (.ok .alreadyApplied, sessions)
      else (.error .invalidTransition, sessions)
    else (.ok .applied, opened)

/-- Advances one active generation through closing, draining and closed. -/
def transitionSession (sessions : Sessions) (scope : CloudScope) (generation : SessionGeneration)
    (next : SessionState) : Except CloudFilesStoreErrorKind StoreWriteStatus × Sessions :=
  match sessions scope with
  | none => (.error .notFound, sessions)
  | some session =>
    if generation.value < session.generation.value then (.ok .fenced, sessions)
    else if session.generation.value < generation.value then (.error .conflict, sessions)
    else if session.state = next then (.ok .alreadyApplied, sessions)
    else if session.state.canTransitionTo next then
      (.ok .applied, Function.update sessions scope (some { session with state := next }))
    else (.error .invalidTransition, sessions)

def activeGeneration (sessions : Sessions) (scope : CloudScope) (generation : SessionGeneration) :
    Except CloudFilesStoreErrorKind Bool :=
  match sessions scope with
  | none => .error .notFound
  | some active => .ok (active.generation = generation ∧ active.state ≠ .closed)

/-! ## Failing calls -/

inductive StoreFault
  /-- The call takes effect and its answer arrives. -/
  | none
  /-- The call fails before anything is durable. -/
  | beforePersist (kind : CloudFilesStoreErrorKind)
  /-- The effect is durable, but the caller sees a failure. -/
  | beforeReturn (kind : CloudFilesStoreErrorKind)
  deriving DecidableEq

def StoreFault.call {σ α : Type} (fault : StoreFault)
    (operation : σ → Except CloudFilesStoreErrorKind α × σ) (state : σ) :
    Except CloudFilesStoreErrorKind α × σ :=
  match fault with
  | .none => operation state
  | .beforePersist kind => (.error kind, state)
  | .beforeReturn kind => (.error kind, (operation state).2)

/-- What relates a state to itself and to the state after the operation relates it to the state
after any call. -/
lemma StoreFault.call_state {σ α : Type} {R : σ → Prop} (f : StoreFault)
    {o : σ → Except CloudFilesStoreErrorKind α × σ} {s : σ} (hs : R s) (hop : R (o s).2) : R (f.call o s).2 := by
  cases f with
  | none => exact hop
  | beforePersist k => exact hs
  | beforeReturn k => exact hop

end AsterForge.Core
