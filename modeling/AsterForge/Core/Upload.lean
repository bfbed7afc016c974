import AsterForge.Core.ContentStorage
import AsterForge.Core.Mutation

/-!
# Resumable uploads

The requests of the upload port, the checks that bind a chunk and its acknowledgement to a session,
and the durable record of one upload with its transitions.

* `ContentUploadRecord.remaining` — how far a record is from completion: the bytes that are not
  accepted yet, and the states after them.
* **`ContentUploadRecord.later_apply`** — every transition keeps a record or brings it closer to
  completion.
-/

namespace AsterForge.Core

/-! ## Intents, sessions and chunks -/

abbrev ContentUploadSessionId := StringIdentity "content upload session id"

structure ContentUploadIntent where
  operationId : OperationId
  idempotencyKey : IdempotencyKey
  baseCacheKey : ContentCacheKey
  snapshot : LocalContentSnapshot
  uploadLeaseId : ContentLeaseId
  sessionGeneration : SessionGeneration
  sameItem : baseCacheKey.itemKey = snapshot.itemKey
  deriving DecidableEq

structure ContentUploadSession where
  id : ContentUploadSessionId
  acceptedOffset : ℕ
  deriving DecidableEq

def sampleUpload (size : ℕ) (size_le : size ≤ u64Max) : ContentUploadIntent where
  operationId := sampleOperationId
  idempotencyKey := sampleIdempotencyKey
  baseCacheKey := ⟨sampleItemKey, sampleRevision⟩
  snapshot :=
    { itemKey := sampleItemKey
      generation := ⟨1, Nat.one_pos, one_le_u64Max⟩
      reference := ⟨"reference", by decide⟩
      size := size
      digest := none
      size_le := size_le }
  uploadLeaseId := ⟨"lease", by decide⟩
  sessionGeneration := firstGeneration
  sameItem := rfl

def sampleSessionId : ContentUploadSessionId := ⟨"upload", by decide⟩

/-- Validates that the backend checkpoint remains within the immutable snapshot. -/
def ContentUploadSession.validateFor (session : ContentUploadSession)
    (intent : ContentUploadIntent) : Except CloudFilesCoreError Unit :=
  if session.acceptedOffset > intent.snapshot.size then
    .error (.invalidContentUploadTransition
      "backend upload offset exceeds the immutable snapshot size")
  else .ok ()

structure ContentUploadChunk where
  sessionId : ContentUploadSessionId
  localGeneration : LocalContentGeneration
  offset : ℕ
  bytes : List UInt8
  byteLen : ℕ
  totalSize : ℕ
  deriving DecidableEq

namespace ContentUploadChunk

/-- Puts a chunk together without a check. -/
def fromValidatedParts (sessionId : ContentUploadSessionId)
    (localGeneration : LocalContentGeneration) (offset : ℕ) (bytes : List UInt8)
    (byteLen totalSize : ℕ) : ContentUploadChunk :=
  ⟨sessionId, localGeneration, offset, bytes, byteLen, totalSize⟩

def new (sessionId : ContentUploadSessionId) (localGeneration : LocalContentGeneration)
    (offset : ℕ) (bytes : List UInt8) (totalSize : ℕ) : Except CloudFilesCoreError ContentUploadChunk :=
  if bytes.length = 0 then
    .error (.invalidContentUploadTransition "upload chunks must contain at least one byte")
  else if offset + bytes.length > u64Max then
    .error (.invalidContentUploadTransition "upload chunk end exceeds u64")
  else if offset + bytes.length > totalSize then
    .error (.invalidContentUploadTransition "upload chunk exceeds the immutable snapshot size")
  else .ok (fromValidatedParts sessionId localGeneration offset bytes bytes.length totalSize)

/-- The exclusive end acknowledged when this chunk commits exactly; the source adds unchecked. -/
def endExclusive (chunk : ContentUploadChunk) : ℕ := chunk.offset + chunk.byteLen

def validateFor (chunk : ContentUploadChunk) (intent : ContentUploadIntent)
    (session : ContentUploadSession) : Except CloudFilesCoreError Unit :=
  if chunk.sessionId ≠ session.id then
    .error (.invalidContentUploadTransition "upload chunk belongs to another backend session")
  else if chunk.localGeneration ≠ intent.snapshot.generation then
    .error (.invalidContentUploadTransition "upload chunk belongs to another local generation")
  else if chunk.totalSize ≠ intent.snapshot.size then
    .error (.invalidContentUploadTransition
      "upload chunk size does not match the immutable snapshot")
  else if chunk.offset ≠ session.acceptedOffset then
    .error (.invalidContentUploadTransition
      "upload chunk does not continue the durable accepted offset")
  else .ok ()

end ContentUploadChunk

structure ContentUploadChunkAck where
  sessionId : ContentUploadSessionId
  acceptedOffset : ℕ
  deriving DecidableEq

def ContentUploadChunkAck.validateFor (ack : ContentUploadChunkAck) (chunk : ContentUploadChunk) :
    Except CloudFilesCoreError Unit :=
  if ack.sessionId ≠ chunk.sessionId then
    .error (.invalidContentUploadTransition "upload acknowledgement belongs to another session")
  else if ack.acceptedOffset ≠ chunk.endExclusive then
    .error (.invalidContentUploadTransition
      "upload acknowledgement does not match the submitted chunk end")
  else .ok ()

lemma ContentUploadChunkAck.validateFor_eq_ok {ack : ContentUploadChunkAck}
    {c : ContentUploadChunk} (h : ack.validateFor c = .ok ()) :
    ack.sessionId = c.sessionId ∧ ack.acceptedOffset = c.endExclusive := by
  unfold validateFor at h
  split_ifs at h with hsess hoff
  exact ⟨not_not.mp hsess, not_not.mp hoff⟩

def validateCommittedUpload (intent : ContentUploadIntent) (item : Option CloudItem) :
    Except CloudFilesCoreError Unit :=
  match item with
  | none =>
    .error (.invalidContentUploadTransition
      "committed upload outcome requires current item metadata")
  | some item =>
    if item.key ≠ intent.baseCacheKey.itemKey then
      .error (.invalidContentUploadTransition "committed upload outcome belongs to another item")
    else
      match item.content with
      | none =>
        .error (.invalidContentUploadTransition
          "committed upload outcome must describe file content")
      | some content =>
        if content.size ≠ intent.snapshot.size then
          .error (.invalidContentUploadTransition
            "committed upload size does not match the immutable snapshot")
        else .ok ()

def validateUploadOutcome (intent : ContentUploadIntent) :
    MutationRemoteOutcome → Except CloudFilesCoreError Unit
  | .committed item | .alreadyCommitted item => validateCommittedUpload intent item
  | _ => .ok ()

/-! ## Records -/

inductive ContentUploadState
  | intentPersisted
  | uploading
  | remoteCommitting
  | remoteOutcomeUnknown
  | remoteOutcomeKnown
  | metadataReconciled
  | completed
  deriving DecidableEq

inductive ContentUploadRecordTransition
  | applied
  | alreadyApplied
  | fenced
  deriving DecidableEq

structure ContentUploadRecord where
  intent : ContentUploadIntent
  state : ContentUploadState
  session : Option ContentUploadSession
  remoteOutcome : Option MutationRemoteOutcome
  deriving DecidableEq

namespace ContentUploadRecord

/-- Creates the first recoverable upload state. -/
def persist (intent : ContentUploadIntent) : ContentUploadRecord :=
  ⟨intent, .intentPersisted, none, none⟩

variable (record : ContentUploadRecord)

def recordSession (session : ContentUploadSession) :
    Except CloudFilesCoreError ContentUploadRecordTransition × ContentUploadRecord :=
  match session.validateFor record.intent with
  | .error error => (.error error, record)
  | .ok _ =>
    if record.state ≠ .intentPersisted ∧ record.state ≠ .uploading then
      if record.session = some session then (.ok .alreadyApplied, record)
      else
        (.error (.invalidContentUploadTransition
          "upload session checkpoint must precede remote commit"), record)
    else
      match record.session with
      | none => (.ok .applied, { record with state := .uploading, session := some session })
      | some current =>
        if current.id ≠ session.id then
          (.error (.invalidContentUploadTransition
            "one upload operation cannot switch backend session identity"), record)
        else if session.acceptedOffset < current.acceptedOffset then (.ok .fenced, record)
        else if session.acceptedOffset = current.acceptedOffset then
          (.ok .alreadyApplied, record)
        else (.ok .applied, { record with session := some session })

def beginRemoteCommit : Except CloudFilesCoreError ContentUploadRecordTransition × ContentUploadRecord :=
  match record.state with
  | .uploading =>
    if record.session.any fun session =>
        session.acceptedOffset = record.intent.snapshot.size then
      (.ok .applied, { record with state := .remoteCommitting })
    else
      (.error (.invalidContentUploadTransition
        "remote commit requires every immutable byte to be accepted"), record)
  | .intentPersisted =>
    (.error (.invalidContentUploadTransition
      "remote commit requires a backend upload session"), record)
  | _ => (.ok .alreadyApplied, record)

def recordRemoteOutcome (outcome : MutationRemoteOutcome) :
    Except CloudFilesCoreError ContentUploadRecordTransition × ContentUploadRecord :=
  match validateUploadOutcome record.intent outcome with
  | .error error => (.error error, record)
  | .ok _ =>
    let nextState : ContentUploadState :=
      if outcome = .remoteOutcomeUnknown then .remoteOutcomeUnknown else .remoteOutcomeKnown
    let durable := record.state = .remoteOutcomeUnknown ∨ record.state = .remoteOutcomeKnown
      ∨ record.state = .metadataReconciled ∨ record.state = .completed
    if record.remoteOutcome = some outcome ∧ durable then (.ok .alreadyApplied, record)
    else if record.state ≠ .remoteCommitting ∧ record.state ≠ .remoteOutcomeUnknown then
      (.error (.invalidContentUploadTransition
        "remote upload outcome must follow commit or reconcile an unknown outcome"), record)
    else (.ok .applied, { record with state := nextState, remoteOutcome := some outcome })

def markMetadataReconciled : Except CloudFilesCoreError ContentUploadRecordTransition × ContentUploadRecord :=
  match record.state with
  | .remoteOutcomeKnown => (.ok .applied, { record with state := .metadataReconciled })
  | .metadataReconciled | .completed => (.ok .alreadyApplied, record)
  | _ =>
    (.error (.invalidContentUploadTransition
      "upload metadata reconciliation requires a known remote outcome"), record)

/-- Marks the upload terminal after metadata reconciliation. -/
def complete : Except CloudFilesCoreError ContentUploadRecordTransition × ContentUploadRecord :=
  match record.state with
  | .metadataReconciled => (.ok .applied, { record with state := .completed })
  | .completed => (.ok .alreadyApplied, record)
  | _ =>
    (.error (.invalidContentUploadTransition
      "upload completion requires metadata reconciliation"), record)

end ContentUploadRecord

inductive UploadTransition
  | recordSession (session : ContentUploadSession)
  | beginRemoteCommit
  | recordRemoteOutcome (outcome : MutationRemoteOutcome)
  | markMetadataReconciled
  | complete
  deriving DecidableEq

namespace ContentUploadRecord

variable (record : ContentUploadRecord)

def apply : UploadTransition → Except CloudFilesCoreError ContentUploadRecordTransition × ContentUploadRecord
  | .recordSession session => record.recordSession session
  | .beginRemoteCommit => record.beginRemoteCommit
  | .recordRemoteOutcome outcome => record.recordRemoteOutcome outcome
  | .markMetadataReconciled => record.markMetadataReconciled
  | .complete => record.complete

/-- The records that transitions lead to from a persisted intent. -/
def IsReachable : Prop :=
  ∃ transitions : List UploadTransition,
    record = transitions.foldl (fun current t => (current.apply t).2) (persist record.intent)

/-! ## What a transition can do -/

def FullyAccepted : Prop :=
  ∃ session, record.session = some session ∧ session.acceptedOffset = record.intent.snapshot.size

def HasKnownOutcome : Prop :=
  ∃ outcome, record.remoteOutcome = some outcome ∧ outcome ≠ .remoteOutcomeUnknown
    ∧ validateUploadOutcome record.intent outcome = .ok ()

/-- The state of a record says what session and which outcome it has. -/
def Coherent : Prop :=
  match record.state with
  | .intentPersisted => record.session = none ∧ record.remoteOutcome = none
  | .uploading => (∃ session, record.session = some session
      ∧ session.acceptedOffset ≤ record.intent.snapshot.size) ∧ record.remoteOutcome = none
  | .remoteCommitting => record.FullyAccepted ∧ record.remoteOutcome = none
  | .remoteOutcomeUnknown =>
    record.FullyAccepted ∧ record.remoteOutcome = some .remoteOutcomeUnknown
  | _ => record.FullyAccepted ∧ record.HasKnownOutcome

def acceptedOffset (record : ContentUploadRecord) : ℕ :=
  match record.session with
  | some session => session.acceptedOffset
  | none => 0

/-- How far a record is from completion: the bytes still to be accepted, and the states ahead. -/
def remaining : ℕ :=
  match record.state with
  | .intentPersisted => record.intent.snapshot.size + 7
  | .uploading => record.intent.snapshot.size - record.acceptedOffset + 6
  | .remoteCommitting => 5
  | .remoteOutcomeUnknown => 4
  | .remoteOutcomeKnown => 3
  | .metadataReconciled => 2
  | .completed => 1

variable (r : ContentUploadRecord)

lemma remaining_pos : 0 < r.remaining := by
  unfold remaining
  split <;> omega

lemma remaining_le : r.remaining ≤ r.intent.snapshot.size + 7 := by
  unfold remaining
  split <;> omega

lemma remaining_lt_iff : r.remaining < r.intent.snapshot.size + 7 ↔ r.state ≠ .intentPersisted := by
  cases hstate : r.state with
  | intentPersisted => simp [remaining, hstate]
  | _ =>
    simp only [remaining, hstate, ne_eq, reduceCtorEq, not_false_eq_true, iff_true]
    omega

def SessionExtends (session session' : Option ContentUploadSession) : Prop :=
  ∀ current ∈ session, ∃ next ∈ session',
    next.id = current.id ∧ current.acceptedOffset ≤ next.acceptedOffset

lemma SessionExtends.refl (s : Option ContentUploadSession) : SessionExtends s s :=
  fun c hc => ⟨c, hc, rfl, Nat.le_refl _⟩

/-- One record is the other, or closer to completion with the same intent, a session that goes on,
and the same outcome once that is known. -/
def Later (record record' : ContentUploadRecord) : Prop :=
  record' = record ∨ record'.remaining < record.remaining ∧ record'.intent = record.intent
    ∧ SessionExtends record.session record'.session
    ∧ (record.HasKnownOutcome → record'.remoteOutcome = record.remoteOutcome)

lemma Later.refl : r.Later r := .inl rfl

variable {rc r' : ContentUploadRecord}

lemma Later.intent_eq (h : rc.Later r') : r'.intent = rc.intent := by
  rcases h with rfl | ⟨-, hi, -⟩
  · rfl
  · exact hi

lemma Later.remaining_le (h : rc.Later r') : r'.remaining ≤ rc.remaining := by
  rcases h with rfl | ⟨hlt, -⟩
  · exact Nat.le_refl _
  · exact Nat.le_of_lt hlt

lemma Later.session (h : rc.Later r') : SessionExtends rc.session r'.session := by
  rcases h with rfl | ⟨-, -, hs, -⟩
  · exact .refl _
  · exact hs

lemma Later.trans {r₁ r₂ r₃ : ContentUploadRecord} (h₁ : r₁.Later r₂) (h₂ : r₂.Later r₃) : r₁.Later r₃ := by
  rcases h₁ with rfl | ⟨hlt, hi, hs, ho⟩
  · exact h₂
  rcases h₂ with rfl | ⟨hlt', hi', hs', ho'⟩
  · exact .inr ⟨hlt, hi, hs, ho⟩
  refine .inr ⟨Nat.lt_trans hlt' hlt, hi'.trans hi, fun c hc => ?_, fun hk => ?_⟩
  · obtain ⟨m, hm, hid, hle⟩ := hs c hc
    obtain ⟨next, hn, hid', hle'⟩ := hs' m hm
    exact ⟨next, hn, hid'.trans hid, Nat.le_trans hle hle'⟩
  · have hsame := ho hk
    obtain ⟨o, hsm, hne, hv⟩ := hk
    rw [← hi] at hv
    exact (ho' ⟨o, hsame.trans hsm, hne, hv⟩).trans hsame

instance : Std.Refl Later := ⟨Later.refl⟩

instance : IsTrans ContentUploadRecord Later := ⟨fun _ _ _ => Later.trans⟩

lemma coherent_persist (i : ContentUploadIntent) : (persist i).Coherent := ⟨rfl, rfl⟩

lemma recordSession_cases {r : ContentUploadRecord} (h : r.Coherent) (s : ContentUploadSession) :
    (r.recordSession s).2 = r ∨ (r.recordSession s).2 = { r with state := .uploading, session := some s }
        ∧ s.acceptedOffset ≤ r.intent.snapshot.size ∧ (r.state = .intentPersisted ∨ r.state = .uploading)
        ∧ ∀ c ∈ r.session, c.id = s.id ∧ c.acceptedOffset < s.acceptedOffset := by
  unfold recordSession ContentUploadSession.validateFor
  by_cases hsize : s.acceptedOffset > r.intent.snapshot.size
  · rw [if_pos hsize]
    exact .inl rfl
  rw [if_neg hsize]
  split_ifs with hstate hsame
  · exact .inl rfl
  · exact .inl rfl
  rw [not_and_or, not_not, not_not] at hstate
  cases hsess : r.session with
  | none =>
    exact .inr ⟨rfl, Nat.le_of_not_lt hsize, hstate, fun c hc => by simp at hc⟩
  | some c =>
    dsimp only
    split_ifs with hid hlt heq
    · exact .inl rfl
    · exact .inl rfl
    · exact .inl rfl
    · have hupl : r.state = .uploading := by
        refine hstate.resolve_left fun hi => ?_
        rw [Coherent, hi, hsess] at h
        exact absurd h.1 (by simp)
      refine .inr ⟨by rw [hupl], Nat.le_of_not_lt hsize, hstate, fun o ho => ?_⟩
      obtain rfl : c = o := Option.some.inj ho
      exact ⟨not_not.mp hid, by omega⟩

lemma recordRemoteOutcome_cases (o : MutationRemoteOutcome) : (r.recordRemoteOutcome o).2 = r
      ∨ (r.recordRemoteOutcome o).2 = { r with
            state := if o = .remoteOutcomeUnknown then .remoteOutcomeUnknown
              else .remoteOutcomeKnown
            remoteOutcome := some o }
        ∧ validateUploadOutcome r.intent o = .ok ()
        ∧ (r.state = .remoteCommitting ∨ r.state = .remoteOutcomeUnknown ∧ r.remoteOutcome ≠ some o) := by
  unfold recordRemoteOutcome
  cases hvalid : validateUploadOutcome r.intent o with
  | error e => exact .inl rfl
  | ok _ =>
    by_cases hsame : r.remoteOutcome = some o ∧ (r.state = .remoteOutcomeUnknown
        ∨ r.state = .remoteOutcomeKnown ∨ r.state = .metadataReconciled ∨ r.state = .completed)
    · rw [if_pos hsame]
      exact .inl rfl
    by_cases hs : r.state ≠ .remoteCommitting ∧ r.state ≠ .remoteOutcomeUnknown
    · rw [if_neg hsame, if_pos hs]
      exact .inl rfl
    rw [if_neg hsame, if_neg hs]
    rw [not_and_or, not_not, not_not] at hs
    refine .inr ⟨rfl, rfl, hs.imp_right fun hs => ⟨hs, fun ho => hsame ?_⟩⟩
    exact ⟨ho, .inl hs⟩

variable {r : ContentUploadRecord}

lemma later_recordSession (h : r.Coherent)
    (s : ContentUploadSession) : r.Later (r.recordSession s).2 ∧ (r.recordSession s).2.Coherent := by
  rcases recordSession_cases h s with hk | ⟨hn, hsz, hs, hc⟩
  · rw [hk]
    exact ⟨.refl r, h⟩
  rw [hn]
  have hout : r.remoteOutcome = none := by
    rcases hs with hs | hs
    · rw [Coherent, hs] at h
      exact h.2
    · rw [Coherent, hs] at h
      exact h.2
  refine ⟨.inr ⟨?_, rfl, fun c hm => ?_, fun _ => rfl⟩, ⟨s, rfl, hsz⟩, hout⟩
  · rcases hs with hs | hs
    · simp only [remaining, hs, acceptedOffset]
      omega
    · rw [Coherent, hs] at h
      obtain ⟨⟨c, hss, hle⟩, -⟩ := h
      have hlt := (hc c hss).2
      simp only [remaining, hs, acceptedOffset, hss]
      omega
  · exact ⟨s, rfl, (hc c hm).1.symm, Nat.le_of_lt (hc c hm).2⟩

lemma later_recordRemoteOutcome (h : r.Coherent)
    (outcome : MutationRemoteOutcome) : r.Later (r.recordRemoteOutcome outcome).2
      ∧ (r.recordRemoteOutcome outcome).2.Coherent := by
  rcases recordRemoteOutcome_cases r outcome with hkp | ⟨hn, hv, hs⟩
  · rw [hkp]
    exact ⟨.refl r, h⟩
  rw [hn]
  have hbef : r.FullyAccepted ∧ ¬ r.HasKnownOutcome := by
    rcases hs with hs | ⟨hs, -⟩
    · rw [Coherent, hs] at h
      exact ⟨h.1, fun ⟨_, hsm, _⟩ => by simp [h.2] at hsm⟩
    · rw [Coherent, hs] at h
      exact ⟨h.1, fun ⟨_, hsm, hne, _⟩ => hne (by simpa [h.2] using hsm.symm)⟩
  by_cases hunk : outcome = .remoteOutcomeUnknown
  · subst hunk
    have hcomm : r.state = .remoteCommitting := by
      refine hs.resolve_right fun ⟨hs, hne⟩ => ?_
      rw [Coherent, hs] at h
      exact hne h.2
    refine ⟨.inr ⟨?_, rfl, .refl _, fun hk => absurd hk hbef.2⟩, hbef.1, rfl⟩
    simp [remaining, hcomm]
  · simp only [if_neg hunk]
    refine ⟨.inr ⟨?_, rfl, .refl _, fun hk => absurd hk hbef.2⟩, hbef.1, outcome, rfl, hunk, hv⟩
    rcases hs with hs | ⟨hs, -⟩ <;> simp [remaining, hs]

/-- **Every transition leads to a later record**, and keeps it coherent. -/
theorem later_apply (h : r.Coherent) (t : UploadTransition) : r.Later (r.apply t).2 ∧ (r.apply t).2.Coherent := by
  have hkept : r.Later r ∧ r.Coherent := ⟨.refl r, h⟩
  cases t with
  | recordSession s => exact later_recordSession h s
  | recordRemoteOutcome o => exact later_recordRemoteOutcome h o
  | beginRemoteCommit =>
    simp only [apply, beginRemoteCommit]
    cases hstate : r.state with
    | uploading =>
      rw [Coherent, hstate] at h
      obtain ⟨⟨s, hs, hle⟩, ho⟩ := h
      split_ifs with hcompl
      · have hfull : s.acceptedOffset = r.intent.snapshot.size := by
          simpa [hs] using hcompl
        refine ⟨.inr ⟨?_, rfl, .refl _, fun _ => rfl⟩, ⟨s, hs, hfull⟩, ho⟩
        simp only [remaining, hstate]
        omega
      · exact hkept
    | _ => exact hkept
  | markMetadataReconciled =>
    simp only [apply, markMetadataReconciled]
    cases hstate : r.state with
    | remoteOutcomeKnown =>
      rw [Coherent, hstate] at h
      exact ⟨.inr ⟨by simp [remaining, hstate], rfl, .refl _, fun _ => rfl⟩, h⟩
    | _ => exact hkept
  | complete =>
    simp only [apply, complete]
    cases hstate : r.state with
    | metadataReconciled =>
      rw [Coherent, hstate] at h
      exact ⟨.inr ⟨by simp [remaining, hstate], rfl, .refl _, fun _ => rfl⟩, h⟩
    | _ => exact hkept

/-- Every reachable record is coherent. -/
theorem IsReachable.coherent (h : r.IsReachable) : r.Coherent := by
  obtain ⟨tr, hr⟩ := h
  rw [hr]
  refine List.foldlRecOn tr _ (coherent_persist r.intent) fun c hc t _ =>
    (later_apply hc t).2

end ContentUploadRecord

end AsterForge.Core
