import AsterForge.Core.Mutation
import AsterForge.Library.Runs

/-!
# Concurrent mutation runners

Any number of `submit` and `resume` invocations drive one operation.  An invocation is a loop over
atomic steps: load the record, call the backend, ask the store for one transition, load the record
again.  Between them other invocations may move, the store may fail before or after a write is durable,
and the backend may answer anything.
-/

namespace AsterForge.Core

open Library

/-! ## Store operations -/

/-- Inserts the first recoverable mutation state before ingress acknowledgement. -/
def persistMutationIntent (sessions : Sessions) (intent : MutationIntent) (record : Option MutationRecord) :
    Except CloudFilesStoreErrorKind StoreWriteStatus × Option MutationRecord :=
  match MutationRecord.persist intent with
  | .error _ => (.error .invalidTransition, record)
  | .ok first =>
    match sessions intent.desired.scope with
    | none => (.error .notFound, record)
    | some session =>
      if session.generation ≠ intent.sessionGeneration ∨ session.state ≠ .accepting then
        (.ok .fenced, record)
      else
        match record with
        | some existing =>
          if existing = first then (.ok .alreadyApplied, record)
          else (.error .conflict, record)
        | none => (.ok .applied, some first)

def withFencedMutation (sessions : Sessions) (generation : SessionGeneration)
    (t : MutationTransition) (record : Option MutationRecord) :
    Except CloudFilesStoreErrorKind StoreWriteStatus × Option MutationRecord :=
  match record with
  | none => (.error .notFound, none)
  | some current =>
    match activeGeneration sessions current.intent.desired.scope generation with
    | .error kind => (.error kind, record)
    | .ok false => (.ok .fenced, record)
    | .ok true =>
      match current.apply t with
      | (.error _, next) => (.error .invalidTransition, some next)
      | (.ok .applied, next) => (.ok .applied, some next)
      | (.ok .alreadyApplied, next) => (.ok .alreadyApplied, some next)

def loadMutation (record : Option MutationRecord) :
    Except CloudFilesStoreErrorKind (Option MutationRecord) × Option MutationRecord :=
  (.ok record, record)

/-! ## One invocation -/

/-- Product-neutral failure while driving one durable mutation record. -/
inductive MutationRunError
  | backend (error : CloudBackendError)
  | store (kind : CloudFilesStoreErrorKind)
  | contract (error : CloudFilesCoreError)
  | recordNotFound
  deriving DecidableEq

inductive MutationRunOutcome
  | completed
  | remoteOutcomePending
  | fenced
  deriving DecidableEq

/-- Where an invocation stands, with what it holds there.  `pending` and `allowStableUnknown` are
the local values that decide what an observed record means. -/
inductive Invocation
  | submitting (intent : MutationIntent) (generation : SessionGeneration)
  | loading (generation : SessionGeneration)
  | applying (generation : SessionGeneration) (held : MutationRecord)
  | reconciling (generation : SessionGeneration) (held : MutationRecord)
  | transitioning (generation : SessionGeneration) (held : MutationRecord)
      (t : MutationTransition) (pending allowStableUnknown : Bool)
  | observing (generation : SessionGeneration) (held : MutationRecord)
      (status : StoreWriteStatus) (pending allowStableUnknown : Bool)
  | finished (result : Except MutationRunError MutationRunOutcome)
  deriving DecidableEq

/-- What one atomic step of an invocation meets. -/
inductive RunnerEvent
  /-- The pending store call goes this way. -/
  | store (fault : StoreFault)
  /-- `apply_mutation` is called and answers. -/
  | applyMutation (answer : Except CloudBackendError MutationRemoteOutcome)
  /-- `reconcile_mutation` is called and answers. -/
  | reconcileMutation (answer : Except CloudBackendError MutationRemoteOutcome)

namespace Invocation

/-- The match on the state of the record at the head of the loop. -/
def dispatch (generation : SessionGeneration) (record : MutationRecord) : Invocation :=
  match record.state with
  | .intentPersisted => .transitioning generation record .beginRemoteApply false false
  | .remoteApplying => .applying generation record
  | .remoteOutcomeUnknown => .reconciling generation record
  | .remoteOutcomeKnown =>
    match record.validateRecordedOutcome with
    | .error error => .finished (.error (.contract error))
    | .ok _ => .transitioning generation record .markPlatformReconciled false false
  | .platformReconciled =>
    match record.validateRecordedOutcome with
    | .error error => .finished (.error (.contract error))
    | .ok _ => .transitioning generation record .complete false false
  | .completed =>
    match record.validateRecordedOutcome with
    | .error error => .finished (.error (.contract error))
    | .ok _ => .finished (.ok .completed)

def afterBackend (generation : SessionGeneration) (held : MutationRecord)
    (answer : Except CloudBackendError MutationRemoteOutcome) (reconciled : Bool) : Invocation :=
  match answer with
  | .error error => .finished (.error (.backend error))
  | .ok outcome =>
    match validateRemoteOutcome held.intent outcome with
    | .error error => .finished (.error (.contract error))
    | .ok _ =>
      let pending := decide (outcome = .remoteOutcomeUnknown)
      .transitioning generation held (.recordRemoteOutcome outcome) pending (reconciled && pending)

/-- `observe_mutation_transition` on the record it loads, and what the loop does with it. -/
def observe (generation : SessionGeneration) (held : MutationRecord) (status : StoreWriteStatus)
    (pending allowStableUnknown : Bool) (current : MutationRecord) : Invocation :=
  let continued :=
    if pending ∧ current.state = .remoteOutcomeUnknown then .finished (.ok .remoteOutcomePending)
    else .loading generation
  if current ≠ held then continued
  else if status = .fenced then .finished (.ok .fenced)
  else if allowStableUnknown ∧ status = .alreadyApplied ∧ current.state = .remoteOutcomeUnknown then continued
  else
    .finished (.error (.contract (.invalidMutationTransition
      "mutation store reported a transition without durable progress")))

def step (sessions : Sessions) (record : Option MutationRecord) :
    Invocation → RunnerEvent → Option (Invocation × Option MutationRecord)
  | .submitting intent generation, .store fault =>
    if intent.sessionGeneration ≠ generation then
      some (.finished (.error (.contract (.invalidMutationIntent
        "submitted mutation generation must match the executor generation"))), record)
    else
      match fault.call (persistMutationIntent sessions intent) record with
      | (.error kind, record') => some (.finished (.error (.store kind)), record')
      | (.ok .fenced, record') => some (.finished (.ok .fenced), record')
      | (.ok _, record') => some (.loading generation, record')
  | .loading generation, .store fault =>
    match fault.call loadMutation record with
    | (.error kind, record') => some (.finished (.error (.store kind)), record')
    | (.ok none, record') => some (.finished (.error .recordNotFound), record')
    | (.ok (some loaded), record') => some (dispatch generation loaded, record')
  | .applying generation held, .applyMutation answer =>
    some (afterBackend generation held answer false, record)
  | .reconciling generation held, .reconcileMutation answer =>
    some (afterBackend generation held answer true, record)
  | .transitioning generation held t pending allowStableUnknown, .store fault =>
    match fault.call (withFencedMutation sessions generation t) record with
    | (.error kind, record') => some (.finished (.error (.store kind)), record')
    | (.ok status, record') =>
      some (.observing generation held status pending allowStableUnknown, record')
  | .observing generation held status pending allowStableUnknown, .store fault =>
    match fault.call loadMutation record with
    | (.error kind, record') => some (.finished (.error (.store kind)), record')
    | (.ok none, record') => some (.finished (.error .recordNotFound), record')
    | (.ok (some current), record') =>
      some (observe generation held status pending allowStableUnknown current, record')
  | _, _ => none

end Invocation

/-! ## Many invocations -/

/-- The sessions, the durable record of the operation, and its invocations. -/
structure MutationSystem (ι : Type) where
  sessions : Sessions
  record : Option MutationRecord
  runners : ι → Invocation

/-- One atomic step of the system. -/
inductive MutationAction (ι : Type)
  | activateSession (scope : CloudScope) (generation : SessionGeneration)
  | transitionSession (scope : CloudScope) (generation : SessionGeneration) (next : SessionState)
  | runner (i : ι) (event : RunnerEvent)

namespace MutationSystem

variable {ι : Type} [DecidableEq ι]

/-- The system after one step; a runner can only meet an event its invocation waits for. -/
def next (s : MutationSystem ι) : MutationAction ι → Option (MutationSystem ι)
  | .activateSession scope generation =>
    some { s with sessions := (activateSession s.sessions scope generation).2 }
  | .transitionSession scope generation state =>
    some { s with sessions := (transitionSession s.sessions scope generation state).2 }
  | .runner i event =>
    ((s.runners i).step s.sessions s.record event).map fun (invocation, record) =>
      { s with record := record, runners := Function.update s.runners i invocation }

def Step (s : MutationSystem ι) (a : MutationAction ι) (s' : MutationSystem ι) : Prop :=
  s.next a = some s'

/-- An invocation of an operation before its first step: `submit` or `resume`. -/
def Starting (operationId : OperationId) : Invocation → Prop
  | .submitting intent _ => intent.operationId = operationId
  | .loading _ => True
  | _ => False

/-- Any sessions, any record the operation can have in the store, any invocations. -/
structure Initial (operationId : OperationId) (s : MutationSystem ι) : Prop where
  record : ∀ record ∈ s.record, record.intent.operationId = operationId ∧ record.Coherent
  runners : ∀ i, Starting operationId (s.runners i)

end MutationSystem

end AsterForge.Core
