import AsterForge.Core.Upload
import AsterForge.Library.Runs

/-!
# Upload runners

One invocation of the upload runner is a loop over atomic steps: load the record, call the backend
or read the local snapshot, ask the store for one transition, load the record again.  The module
gives the loop for one invocation and the system of any number of them around one durable record.
-/

namespace AsterForge.Core

open Library

/-! ## Store operations -/

abbrev ActiveGenerations := CloudScope → Option SessionGeneration

def ContentUploadIntent.scope (intent : ContentUploadIntent) : CloudScope :=
  intent.baseCacheKey.itemKey.scope

/-- Persists an intent.  `effect` is what the store's own part of the transaction says, which looks
at the dirty state of the content: it can fence an outdated snapshot. -/
def persistContentUploadIntent (active : ActiveGenerations) (generation : SessionGeneration)
    (intent : ContentUploadIntent) (effect : StoreWriteStatus) (record : Option ContentUploadRecord) :
    Except CloudFilesStoreErrorKind StoreWriteStatus × Option ContentUploadRecord :=
  if intent.sessionGeneration ≠ generation ∨ active intent.scope ≠ some generation then
    (.ok .fenced, record)
  else
    match record with
    | some existing =>
      if existing.intent = intent then (.ok .alreadyApplied, record)
      else (.error .conflict, record)
    | none =>
      if effect = .fenced then (.ok .fenced, none) else (.ok .applied, some (.persist intent))

def uploadTransitionStatus : ContentUploadRecordTransition → StoreWriteStatus
  | .applied => .applied
  | .alreadyApplied => .alreadyApplied
  | .fenced => .fenced

/-- Applies a transition of the record while the executor is active.  Reconciling the metadata also
clears the dirty state, and is answered with what that says. -/
def withActiveUpload (active : ActiveGenerations) (generation : SessionGeneration)
    (t : UploadTransition) (effect : StoreWriteStatus) (record : Option ContentUploadRecord) :
    Except CloudFilesStoreErrorKind StoreWriteStatus × Option ContentUploadRecord :=
  match record with
  | none => (.error .notFound, none)
  | some current =>
    if active current.intent.scope ≠ some generation then (.ok .fenced, record)
    else
      match current.apply t with
      | (.error _, next) => (.error .invalidTransition, some next)
      | (.ok transition, next) =>
        if t = .markMetadataReconciled ∧ transition = .applied then (.ok effect, some next)
        else (.ok (uploadTransitionStatus transition), some next)

def loadContentUpload (record : Option ContentUploadRecord) :
    Except CloudFilesStoreErrorKind (Option ContentUploadRecord) × Option ContentUploadRecord :=
  (.ok record, record)

/-! ## One invocation -/

/-- Product-neutral failure while driving one durable upload record. -/
inductive ContentUploadRunError
  | backend (error : CloudBackendError)
  | store (kind : CloudFilesStoreErrorKind)
  | contract (error : CloudFilesCoreError)
  | recordNotFound
  deriving DecidableEq

inductive ContentUploadRunOutcome
  | completed
  | remoteOutcomePending
  | fenced
  deriving DecidableEq

/-- What an observation is about: any transition, the outcome of a commit, or the outcome of a
reconciliation; `pending` says that the outcome is unknown. -/
inductive UploadObservation
  | plain
  | commit (pending : Bool)
  | reconcile (pending : Bool)
  deriving DecidableEq

/-- Where an invocation stands, with what it holds there. -/
inductive UploadPhase
  | submitting (intent : ContentUploadIntent)
  | loading
  | starting (held : ContentUploadRecord)
  | reading (held : ContentUploadRecord) (session : ContentUploadSession)
  | uploadingChunk (held : ContentUploadRecord) (session : ContentUploadSession) (chunk : ContentUploadChunk)
  | reconcilingChunk (held : ContentUploadRecord) (session : ContentUploadSession)
      (chunk : ContentUploadChunk)
  | committing (held : ContentUploadRecord) (session : ContentUploadSession)
  | reconciling (held : ContentUploadRecord)
  | transitioning (held : ContentUploadRecord) (t : UploadTransition) (about : UploadObservation)
  | observing (held : ContentUploadRecord) (status : StoreWriteStatus) (about : UploadObservation)
  | finished (result : Except ContentUploadRunError ContentUploadRunOutcome)
  deriving DecidableEq

/-- What one atomic step of an invocation meets. -/
inductive UploadEvent
  /-- The pending store call goes this way. -/
  | store (fault : StoreFault) (effect : StoreWriteStatus)
  | startUpload (answer : Except CloudBackendError ContentUploadSession)
  | readSnapshot (answer : Except CloudFilesStoreErrorKind (List UInt8))
  | uploadChunk (answer : Except CloudBackendError ContentUploadChunkAck)
  | reconcileUploadChunk (answer : Except CloudBackendError ContentUploadChunkAck)
  | commitUpload (answer : Except CloudBackendError MutationRemoteOutcome)
  | reconcileUpload (answer : Except CloudBackendError MutationRemoteOutcome)

namespace UploadPhase

def contractError (reason : String) : UploadPhase :=
  .finished (.error (.contract (.invalidContentUploadTransition reason)))

/-- The match on the state of the record at the head of the loop. -/
def dispatch (record : ContentUploadRecord) : UploadPhase :=
  match record.state with
  | .intentPersisted => .starting record
  | .uploading =>
    match record.session with
    | none => contractError "uploading record omitted its backend session"
    | some session =>
      match session.validateFor record.intent with
      | .error error => .finished (.error (.contract error))
      | .ok _ =>
        if session.acceptedOffset < record.intent.snapshot.size then .reading record session
        else .transitioning record .beginRemoteCommit .plain
  | .remoteCommitting =>
    match record.session with
    | none => contractError "remote-committing record omitted its backend session"
    | some session => .committing record session
  | .remoteOutcomeUnknown => .reconciling record
  | .remoteOutcomeKnown => .transitioning record .markMetadataReconciled .plain
  | .metadataReconciled => .transitioning record .complete .plain
  | .completed =>
    match record.remoteOutcome with
    | none => contractError "completed upload record omitted its remote outcome"
    | some _ => .finished (.ok .completed)

def nextLength (chunkSize : ℕ) (held : ContentUploadRecord) (session : ContentUploadSession) : ℕ :=
  min (held.intent.snapshot.size - session.acceptedOffset) chunkSize

/-- What follows the bytes of the source: their length is checked, and they become a chunk. -/
def afterRead (chunkSize : ℕ) (held : ContentUploadRecord) (session : ContentUploadSession)
    (bytes : List UInt8) : UploadPhase :=
  let length := nextLength chunkSize held session
  if bytes.length ≠ length then
    contractError "local upload source returned a partial or oversized range"
  else
    .uploadingChunk held session (.fromValidatedParts session.id held.intent.snapshot.generation
      session.acceptedOffset bytes length held.intent.snapshot.size)

/-- What follows an acknowledgement: it is checked against the chunk, and becomes a checkpoint. -/
def afterAck (held : ContentUploadRecord) (chunk : ContentUploadChunk)
    (ack : ContentUploadChunkAck) : UploadPhase :=
  match ack.validateFor chunk with
  | .error error => .finished (.error (.contract error))
  | .ok _ => .transitioning held (.recordSession ⟨ack.sessionId, ack.acceptedOffset⟩) .plain

def observe (held : ContentUploadRecord) (status : StoreWriteStatus) (about : UploadObservation)
    (current : ContentUploadRecord) : UploadPhase :=
  let stalled := contractError "upload store reported a transition without durable progress"
  match about with
  | .reconcile pending =>
    if current = held then
      if pending ∧ status = .alreadyApplied ∧ current.state = .remoteOutcomeUnknown then
        .finished (.ok .remoteOutcomePending)
      else stalled
    else .loading
  | .commit pending =>
    if current = held then
      if status = .fenced then .finished (.ok .fenced) else stalled
    else if pending then .finished (.ok .remoteOutcomePending)
    else .loading
  | .plain =>
    if current = held then
      if status = .fenced then .finished (.ok .fenced) else stalled
    else .loading

/-- One atomic step of an invocation with a chunk size and an executor generation: the phase after
it, and the durable record. -/
def step (chunkSize : ℕ) (generation : SessionGeneration) (active : ActiveGenerations)
    (record : Option ContentUploadRecord) :
    UploadPhase → UploadEvent → Option (UploadPhase × Option ContentUploadRecord)
  | .submitting intent, .store fault effect =>
    match fault.call (persistContentUploadIntent active generation intent effect) record with
    | (.error kind, record') => some (.finished (.error (.store kind)), record')
    | (.ok .fenced, record') => some (.finished (.ok .fenced), record')
    | (.ok _, record') => some (.loading, record')
  | .loading, .store fault _ =>
    match fault.call loadContentUpload record with
    | (.error kind, record') => some (.finished (.error (.store kind)), record')
    | (.ok none, record') => some (.finished (.error .recordNotFound), record')
    | (.ok (some loaded), record') => some (dispatch loaded, record')
  | .starting held, .startUpload answer =>
    match answer with
    | .error error => some (.finished (.error (.backend error)), record)
    | .ok session =>
      match session.validateFor held.intent with
      | .error error => some (.finished (.error (.contract error)), record)
      | .ok _ => some (.transitioning held (.recordSession session) .plain, record)
  | .reading held session, .readSnapshot answer =>
    match answer with
    | .error kind => some (.finished (.error (.store kind)), record)
    | .ok bytes => some (afterRead chunkSize held session bytes, record)
  | .uploadingChunk held session chunk, .uploadChunk answer =>
    match answer with
    | .ok ack => some (afterAck held chunk ack, record)
    | .error error =>
      if error.kind = .conflict ∨ error.kind = .preconditionFailed then
        some (.reconcilingChunk held session chunk, record)
      else some (.finished (.error (.backend error)), record)
  | .reconcilingChunk held _ chunk, .reconcileUploadChunk answer =>
    match answer with
    | .error error => some (.finished (.error (.backend error)), record)
    | .ok ack => some (afterAck held chunk ack, record)
  | .committing held _, .commitUpload answer =>
    match answer with
    | .error error => some (.finished (.error (.backend error)), record)
    | .ok outcome =>
      some (.transitioning held (.recordRemoteOutcome outcome)
        (.commit (outcome = .remoteOutcomeUnknown)), record)
  | .reconciling held, .reconcileUpload answer =>
    match answer with
    | .error error => some (.finished (.error (.backend error)), record)
    | .ok outcome =>
      some (.transitioning held (.recordRemoteOutcome outcome)
        (.reconcile (outcome = .remoteOutcomeUnknown)), record)
  | .transitioning held t about, .store fault effect =>
    match fault.call (withActiveUpload active generation t effect) record with
    | (.error kind, record') => some (.finished (.error (.store kind)), record')
    | (.ok status, record') =>
      match about, status with
      | .reconcile _, .fenced => some (.finished (.ok .fenced), record')
      | _, _ => some (.observing held status about, record')
  | .observing held status about, .store fault _ =>
    match fault.call loadContentUpload record with
    | (.error kind, record') => some (.finished (.error (.store kind)), record')
    | (.ok none, record') => some (.finished (.error .recordNotFound), record')
    | (.ok (some current), record') => some (observe held status about current, record')
  | _, _ => none

end UploadPhase

/-! ## Many invocations -/

/-- One invocation: its configuration, where it stands, and its history.  `resumedAt` is the accepted
offset of the first uploading record it has loaded, `submitted` are the chunks it has sent; no step
looks at them. -/
@[ext]
structure UploadInvocation where
  chunkSize : ℕ
  chunkSize_pos : 0 < chunkSize
  generation : SessionGeneration
  phase : UploadPhase
  resumedAt : Option ℕ
  submitted : List ContentUploadChunk

instance : DecidableEq UploadInvocation := fun _ _ => decidable_of_iff' _ UploadInvocation.ext_iff

namespace UploadInvocation

def resumedAtAfter (invocation : UploadInvocation) (next : UploadPhase) : Option ℕ :=
  match invocation.resumedAt, next with
  | none, .reading held _ | none, .transitioning held .beginRemoteCommit _ =>
    some held.acceptedOffset
  | resumedAt, _ => resumedAt

def submittedAfter (invocation : UploadInvocation) (event : UploadEvent) : List ContentUploadChunk :=
  match invocation.phase, event with
  | .uploadingChunk _ _ chunk, .uploadChunk _ => invocation.submitted ++ [chunk]
  | _, _ => invocation.submitted

def after (invocation : UploadInvocation) (event : UploadEvent) (next : UploadPhase) :
    UploadInvocation :=
  { invocation with
    phase := next
    resumedAt := invocation.resumedAtAfter next
    submitted := invocation.submittedAfter event }

@[simp] lemma phase_after (i : UploadInvocation) (e : UploadEvent)
    (next : UploadPhase) : (i.after e next).phase = next := rfl

end UploadInvocation

/-- The active generations, the durable record of the operation, whether the backend has answered a
commit with `Committed`, and the invocations. -/
structure UploadSystem (ι : Type) where
  active : ActiveGenerations
  record : Option ContentUploadRecord
  committed : Bool
  runners : ι → UploadInvocation

/-- One atomic step of the system. -/
inductive UploadAction (ι : Type)
  | setActive (scope : CloudScope) (generation : Option SessionGeneration)
  | runner (i : ι) (event : UploadEvent)

namespace UploadSystem

variable {ι : Type} [DecidableEq ι]

/-- Whether an event is the answer that a commit has taken effect. -/
def isCommitted : UploadEvent → Bool
  | .commitUpload (.ok (.committed _)) => true
  | _ => false

/-- The system after one step; a runner can only meet an event its phase waits for. -/
def next (s : UploadSystem ι) : UploadAction ι → Option (UploadSystem ι)
  | .setActive scope generation =>
    some { s with active := Function.update s.active scope generation }
  | .runner i event =>
    let invocation := s.runners i
    (invocation.phase.step invocation.chunkSize invocation.generation s.active s.record event).map
      fun (phase, record) =>
        { s with
          record := record
          committed := s.committed || isCommitted event
          runners := Function.update s.runners i (invocation.after event phase) }

def Step (s : UploadSystem ι) (a : UploadAction ι) (s' : UploadSystem ι) : Prop :=
  s.next a = some s'

/-- An invocation before its first step: `submit`, of the intent if there is no record yet, or
`resume`. -/
def Starting (intent : ContentUploadIntent) (record : Option ContentUploadRecord)
    (invocation : UploadInvocation) : Prop :=
  ((∃ submitted, invocation.phase = .submitting submitted ∧ (record = none → submitted = intent))
    ∨ invocation.phase = .loading) ∧ invocation.resumedAt = none ∧ invocation.submitted = []

/-- Any active generations, any record that the operation can have in the store, any invocations. -/
structure Initial (intent : ContentUploadIntent) (s : UploadSystem ι) : Prop where
  record : ∀ record ∈ s.record, record.intent = intent ∧ record.IsReachable
  runners : ∀ i, Starting intent s.record (s.runners i)

end UploadSystem

end AsterForge.Core
