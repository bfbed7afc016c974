import AsterForge.Core.UploadRunner
import AsterForge.Library.Journal

/-!
# What one step of an upload runner does

* `UploadPhase.Written` and `UploadPhase.Moves` — what a step can do to the durable record, and
  where it can lead; **`UploadPhase.step_cases`** derives both from the loop, once.
* `UploadPhase.Holds` — the invariant of an invocation: the record it holds is the durable one or an
  earlier one, in the state the phase is for, and the transition it is about to ask for fits it.
* **`UploadSystem.safe_step`** — every step of the system keeps the invariant and uses up budget.
-/

namespace AsterForge.Core

open Library Option

namespace UploadPhase

/-! ## Where a step leads -/

/-- What a step can do to the durable record. -/
def Written (phase : UploadPhase) (record record' : Option ContentUploadRecord) : Prop :=
  match phase with
  | .submitting intent => record' = record ∨ record = none ∧ record' = some (.persist intent)
  | .transitioning _ t _ =>
    record' = record ∨ ∃ current, record = some current ∧ record' = some (current.apply t).2
  | _ => record' = record

/-- Where a step can lead, apart from the end of the invocation. -/
inductive Moves (chunkSize : ℕ) (record : Option ContentUploadRecord) :
    UploadPhase → UploadEvent → UploadPhase → Prop
  | ended {phase : UploadPhase} {event : UploadEvent}
      {result : Except ContentUploadRunError ContentUploadRunOutcome}
      (hphase : ∀ result, phase ≠ .finished result) (hresult : result ≠ .ok .completed) :
      Moves chunkSize record phase event (.finished result)
  | accepted (intent : ContentUploadIntent) (event : UploadEvent) :
      Moves chunkSize record (.submitting intent) event .loading
  | dispatched {loaded : ContentUploadRecord} (event : UploadEvent) (hrecord : record = some loaded) :
      Moves chunkSize record .loading event (dispatch loaded)
  | started {held : ContentUploadRecord} {session : ContentUploadSession} (event : UploadEvent)
      (hsession : session.acceptedOffset ≤ held.intent.snapshot.size) :
      Moves chunkSize record (.starting held) event (.transitioning held (.recordSession session) .plain)
  | read {held : ContentUploadRecord} {session : ContentUploadSession} {bytes : List UInt8}
      (event : UploadEvent) (hlength : bytes.length = nextLength chunkSize held session) :
      Moves chunkSize record (.reading held session) event
        (.uploadingChunk held session (.fromValidatedParts session.id
          held.intent.snapshot.generation session.acceptedOffset bytes bytes.length
          held.intent.snapshot.size))
  | conflicted (held : ContentUploadRecord) (session : ContentUploadSession)
      (chunk : ContentUploadChunk) (answer : Except CloudBackendError ContentUploadChunkAck) :
      Moves chunkSize record (.uploadingChunk held session chunk) (.uploadChunk answer)
        (.reconcilingChunk held session chunk)
  | acknowledged (held : ContentUploadRecord) (session : ContentUploadSession)
      (chunk : ContentUploadChunk) (answer : Except CloudBackendError ContentUploadChunkAck) :
      Moves chunkSize record (.uploadingChunk held session chunk) (.uploadChunk answer)
        (.transitioning held (.recordSession ⟨chunk.sessionId, chunk.endExclusive⟩) .plain)
  | reconciledChunk (held : ContentUploadRecord) (session : ContentUploadSession)
      (chunk : ContentUploadChunk) (answer : Except CloudBackendError ContentUploadChunkAck) :
      Moves chunkSize record (.reconcilingChunk held session chunk) (.reconcileUploadChunk answer)
        (.transitioning held (.recordSession ⟨chunk.sessionId, chunk.endExclusive⟩) .plain)
  | commitAnswered (held : ContentUploadRecord) (session : ContentUploadSession)
      (outcome : MutationRemoteOutcome) (event : UploadEvent) :
      Moves chunkSize record (.committing held session) event
        (.transitioning held (.recordRemoteOutcome outcome) (.commit (outcome = .remoteOutcomeUnknown)))
  | reconcileAnswered (held : ContentUploadRecord) (outcome : MutationRemoteOutcome) (event : UploadEvent) :
      Moves chunkSize record (.reconciling held) event
        (.transitioning held (.recordRemoteOutcome outcome) (.reconcile (outcome = .remoteOutcomeUnknown)))
  | transitioned (held : ContentUploadRecord) (t : UploadTransition) (about : UploadObservation)
      (status : StoreWriteStatus) (event : UploadEvent) :
      Moves chunkSize record (.transitioning held t about) event (.observing held status about)
  | observed {held current : ContentUploadRecord} (status : StoreWriteStatus)
      (about : UploadObservation) (event : UploadEvent) (hrecord : record = some current)
      (hmoved : current ≠ held) : Moves chunkSize record (.observing held status about) event .loading

variable (active : ActiveGenerations) (generation : SessionGeneration)

lemma persist_written (intent : ContentUploadIntent) (e : StoreWriteStatus) (record : Option ContentUploadRecord) :
    Written (.submitting intent) record (persistContentUploadIntent active generation intent e record).2 := by
  unfold persistContentUploadIntent
  by_cases hfence : intent.sessionGeneration ≠ generation ∨ active intent.scope ≠ some generation
  · rw [if_pos hfence]
    exact .inl rfl
  cases record with
  | some ex =>
    dsimp only
    split_ifs
    · exact .inl rfl
    · exact .inl rfl
  | none =>
    split_ifs
    · exact .inl rfl
    · exact .inr ⟨rfl, rfl⟩

lemma withActiveUpload_written (h : ContentUploadRecord) (t : UploadTransition) (a : UploadObservation)
    (e : StoreWriteStatus) (record : Option ContentUploadRecord) :
    Written (.transitioning h t a) record (withActiveUpload active generation t e record).2 := by
  cases record with
  | none => exact .inl rfl
  | some c =>
    simp only [withActiveUpload]
    split_ifs
    · exact .inl rfl
    refine .inr ⟨c, rfl, ?_⟩
    generalize c.apply t = result
    obtain ⟨er | tr, next⟩ := result
    · rfl
    · dsimp only
      split_ifs <;> rfl

lemma loadContentUpload_cases (f : StoreFault) (record : Option ContentUploadRecord) :
    f.call loadContentUpload record = (.ok record, record)
      ∨ ∃ k, f.call loadContentUpload record = (.error k, record) := by
  cases f with
  | none => exact .inl rfl
  | beforePersist k => exact .inr ⟨k, rfl⟩
  | beforeReturn k => exact .inr ⟨k, rfl⟩

variable (h : ContentUploadRecord)

lemma observe_cases (st : StoreWriteStatus) (a : UploadObservation) (c : ContentUploadRecord) :
    (∃ r, observe h st a c = .finished r ∧ r ≠ .ok .completed) ∨ observe h st a c = .loading ∧ c ≠ h := by
  unfold observe contractError
  cases a with
  | plain | reconcile p =>
    dsimp only
    split_ifs with hsame
    · exact .inl ⟨_, rfl, by simp⟩
    · exact .inl ⟨_, rfl, by simp⟩
    · exact .inr ⟨rfl, hsame⟩
  | commit p =>
    dsimp only
    split_ifs with hsame
    · exact .inl ⟨_, rfl, by simp⟩
    · exact .inl ⟨_, rfl, by simp⟩
    · exact .inl ⟨_, rfl, by simp⟩
    · exact .inr ⟨rfl, hsame⟩

lemma afterAck_cases (c : ContentUploadChunk) (ack : ContentUploadChunkAck) :
    (∃ e, afterAck h c ack = .finished (.error e)) ∨ afterAck h c ack
          = .transitioning h (.recordSession ⟨c.sessionId, c.endExclusive⟩) .plain := by
  unfold afterAck
  cases hvalid : ack.validateFor c with
  | error e => exact .inl ⟨_, rfl⟩
  | ok _ =>
    obtain ⟨hs, ho⟩ := ContentUploadChunkAck.validateFor_eq_ok hvalid
    rw [hs, ho]
    exact .inr rfl

section

variable {cs : ℕ} {g : SessionGeneration} {av : ActiveGenerations}
  {rc r' : Option ContentUploadRecord} {p p' : UploadPhase} {ev : UploadEvent}

lemma Moves.error {e : ContentUploadRunError} (hp : ∀ r, p ≠ .finished r) :
    Moves cs rc p ev (.finished (.error e)) :=
  .ended hp (by simp)

/-- **What a step can do.** -/
theorem step_cases (h : p.step cs g av rc ev = some (p', r')) : Written p rc r' ∧ Moves cs rc p ev p' := by
  cases p with
  | submitting intent =>
    cases ev with
    | store f e =>
      have hwrit : Written (.submitting intent) rc (f.call (persistContentUploadIntent av g intent e) rc).2 :=
        f.call_state (.inl rfl) (persist_written ..)
      simp only [step] at h
      generalize f.call _ rc = r at h hwrit
      obtain ⟨k | st, w⟩ := r
      · cases h
        exact ⟨hwrit, .error (by simp)⟩
      · cases st with
        | fenced =>
          cases h
          exact ⟨hwrit, .ended (by simp) (by simp)⟩
        | _ =>
          cases h
          exact ⟨hwrit, .accepted intent _⟩
    | _ => simp [step] at h
  | loading =>
    cases ev with
    | store f e =>
      rcases loadContentUpload_cases f rc with ha | ⟨k, ha⟩
      · simp only [step, ha] at h
        cases hrec : rc with
        | none =>
          rw [hrec] at h
          cases h
          exact ⟨rfl, .error (by simp)⟩
        | some l =>
          rw [hrec] at h
          cases h
          exact ⟨rfl, .dispatched _ rfl⟩
      · simp only [step, ha] at h
        cases h
        exact ⟨rfl, .error (by simp)⟩
    | _ => simp [step] at h
  | starting held =>
    cases ev with
    | startUpload a =>
      rcases a with er | session
      · cases h
        exact ⟨rfl, .error (by simp)⟩
      · simp only [step, ContentUploadSession.validateFor] at h
        split_ifs at h with hsize
        · cases h
          exact ⟨rfl, .error (by simp)⟩
        · cases h
          exact ⟨rfl, .started _ (Nat.le_of_not_lt hsize)⟩
    | _ => simp [step] at h
  | reading held session =>
    cases ev with
    | readSnapshot a =>
      rcases a with k | b
      · cases h
        exact ⟨rfl, .error (by simp)⟩
      · simp only [step, afterRead] at h
        split_ifs at h with hlen
        · cases h
          exact ⟨rfl, .error (by simp)⟩
        · rw [← not_not.mp hlen] at h
          cases h
          exact ⟨rfl, .read _ (not_not.mp hlen)⟩
    | _ => simp [step] at h
  | uploadingChunk held session c =>
    cases ev with
    | uploadChunk a =>
      rcases a with er | ack
      · simp only [step] at h
        split_ifs at h
        · cases h
          exact ⟨rfl, .conflicted ..⟩
        · cases h
          exact ⟨rfl, .error (by simp)⟩
      · cases h
        refine ⟨rfl, ?_⟩
        rcases afterAck_cases held c ack with ⟨er, he⟩ | hac
        · exact he ▸ .error (by simp)
        · exact hac ▸ .acknowledged ..
    | _ => simp [step] at h
  | reconcilingChunk held session c =>
    cases ev with
    | reconcileUploadChunk a =>
      rcases a with er | ack
      · cases h
        exact ⟨rfl, .error (by simp)⟩
      · cases h
        refine ⟨rfl, ?_⟩
        rcases afterAck_cases held c ack with ⟨er, he⟩ | hac
        · exact he ▸ .error (by simp)
        · exact hac ▸ .reconciledChunk ..
    | _ => simp [step] at h
  | committing held session =>
    cases ev with
    | commitUpload a =>
      rcases a with er | o
      · cases h
        exact ⟨rfl, .error (by simp)⟩
      · cases h
        exact ⟨rfl, .commitAnswered ..⟩
    | _ => simp [step] at h
  | reconciling held =>
    cases ev with
    | reconcileUpload a =>
      rcases a with er | o
      · cases h
        exact ⟨rfl, .error (by simp)⟩
      · cases h
        exact ⟨rfl, .reconcileAnswered ..⟩
    | _ => simp [step] at h
  | transitioning held t ab =>
    cases ev with
    | store f e =>
      have hwrit : Written (.transitioning held t ab) rc (f.call (withActiveUpload av g t e) rc).2 :=
        f.call_state (.inl rfl) (withActiveUpload_written ..)
      simp only [step] at h
      generalize f.call _ rc = r at h hwrit
      obtain ⟨k | st, w⟩ := r
      · cases h
        exact ⟨hwrit, .error (by simp)⟩
      · dsimp only at h
        split at h
        · cases h
          exact ⟨hwrit, .ended (by simp) (by simp)⟩
        · cases h
          exact ⟨hwrit, .transitioned ..⟩
    | _ => simp [step] at h
  | observing held st ab =>
    cases ev with
    | store f e =>
      rcases loadContentUpload_cases f rc with ha | ⟨k, ha⟩
      · simp only [step, ha] at h
        cases hrec : rc with
        | none =>
          rw [hrec] at h
          cases h
          exact ⟨rfl, .error (by simp)⟩
        | some cr =>
          rw [hrec] at h
          cases h
          refine ⟨rfl, ?_⟩
          rcases observe_cases held st ab cr with
            ⟨r, he, hres⟩ | ⟨hloading, hmoved⟩
          · exact he ▸ .ended (by simp) hres
          · exact hloading ▸ .observed st ab _ rfl hmoved
      · simp only [step, ha] at h
        cases h
        exact ⟨rfl, .error (by simp)⟩
    | _ => simp [step] at h
  | finished r => cases ev <;> simp [step] at h

end

/-! ## What an invocation holds -/

structure AtChunk (held : ContentUploadRecord) (session : ContentUploadSession) : Prop where
  state_eq : held.state = .uploading
  session_eq : held.session = some session
  lt : session.acceptedOffset < held.intent.snapshot.size

structure Continues (held : ContentUploadRecord) (session : ContentUploadSession)
    (chunk : ContentUploadChunk) : Prop where
  sessionId : chunk.sessionId = session.id
  localGeneration : chunk.localGeneration = held.intent.snapshot.generation
  offset : chunk.offset = session.acceptedOffset
  byteLen : chunk.byteLen = chunk.bytes.length
  totalSize : chunk.totalSize = held.intent.snapshot.size
  nonempty : 0 < chunk.byteLen
  le : chunk.endExclusive ≤ held.intent.snapshot.size

/-- A transition that the state of a record calls for, with the observation that goes with it. -/
def Fits (held : ContentUploadRecord) : UploadTransition → UploadObservation → Prop
  | .recordSession session, .plain => session.acceptedOffset ≤ held.intent.snapshot.size
      ∧ (held.state = .intentPersisted ∨ ∃ current, AtChunk held current ∧ current.id = session.id
          ∧ current.acceptedOffset < session.acceptedOffset)
  | .beginRemoteCommit, .plain => held.state = .uploading ∧ held.FullyAccepted
  | .recordRemoteOutcome outcome, .commit pending =>
    held.state = .remoteCommitting ∧ pending = decide (outcome = .remoteOutcomeUnknown)
  | .recordRemoteOutcome outcome, .reconcile pending =>
    held.state = .remoteOutcomeUnknown ∧ pending = decide (outcome = .remoteOutcomeUnknown)
  | .markMetadataReconciled, .plain => held.state = .remoteOutcomeKnown
  | .complete, .plain => held.state = .metadataReconciled
  | _, _ => False

def Durable (intent : ContentUploadIntent) (record : ContentUploadRecord) : Prop :=
  record.Coherent ∧ record.intent = intent

structure Held (intent : ContentUploadIntent) (record : Option ContentUploadRecord)
    (held : ContentUploadRecord) : Prop where
  stored : StoredLater ContentUploadRecord.Later held record
  durable : Durable intent held

variable {it : ContentUploadIntent} {rr rc' : Option ContentUploadRecord} {held : ContentUploadRecord}

lemma Held.mono (h : Held it rr held) (hl : RecordLater ContentUploadRecord.Later rr rc') : Held it rc' held :=
  ⟨h.stored.mono hl, h.durable⟩

lemma Held.of_eq (h : rr = some held) (hd : Durable it held) : Held it rr held :=
  ⟨.of_eq h, hd⟩

/-- **The invariant of an invocation.** -/
def Holds (intent : ContentUploadIntent) (record : Option ContentUploadRecord) : UploadPhase → Prop
  | .submitting submitted => record = none → submitted = intent
  | .loading => True
  | .starting held => Held intent record held ∧ held.state = .intentPersisted
  | .reading held session => Held intent record held ∧ AtChunk held session
  | .uploadingChunk held session chunk | .reconcilingChunk held session chunk =>
    Held intent record held ∧ AtChunk held session ∧ Continues held session chunk
  | .committing held session =>
    Held intent record held ∧ held.state = .remoteCommitting ∧ held.session = some session
  | .reconciling held => Held intent record held ∧ held.state = .remoteOutcomeUnknown
  | .transitioning held t about => Held intent record held ∧ Fits held t about
  | .observing held _ _ => Held intent record held
  | .finished result =>
    result = .ok .completed → ∃ current ∈ record, current.state = .completed

/-- How many steps an invocation has left at most: six for each move of the record. -/
def budget (intent : ContentUploadIntent) (record : Option ContentUploadRecord) : UploadPhase → ℕ
  | .submitting _ => 6 * (intent.snapshot.size + 7) + 2
  | .loading => 6 * (record.elim (intent.snapshot.size + 7) ContentUploadRecord.remaining) + 1
  | .starting held | .reading held _ | .committing held _ | .reconciling held => 6 * held.remaining
  | .uploadingChunk held _ _ => 6 * held.remaining - 1
  | .reconcilingChunk held _ _ => 6 * held.remaining - 2
  | .transitioning held _ _ => 6 * held.remaining - 3
  | .observing held _ _ => 6 * held.remaining - 4
  | .finished _ => 0

variable {phase : UploadPhase}

lemma Holds.mono (h : phase.Holds it rr) (hl : RecordLater ContentUploadRecord.Later rr rc') :
    phase.Holds it rc' := by
  cases phase with
  | submitting sb =>
    intro hnn
    cases rr with
    | none => exact h rfl
    | some c =>
      obtain ⟨next, hn, -⟩ := hl c rfl
      simp [hnn] at hn
  | loading => trivial
  | observing held st a => exact Held.mono h hl
  | finished r =>
    intro hr
    obtain ⟨c, hc, hs⟩ := h hr
    obtain ⟨next, hn, hle⟩ := hl c hc
    refine ⟨next, hn, ?_⟩
    have hrem : next.remaining ≤ 1 := by
      simpa [ContentUploadRecord.remaining, hs] using hle.remaining_le
    cases hnextState : next.state with
    | completed => rfl
    | _ =>
      simp only [ContentUploadRecord.remaining, hnextState] at hrem
      omega
  | _ => exact ⟨h.1.mono hl, h.2⟩

lemma budget_mono (hd : ∀ c ∈ rc', Durable it c)
    (hl : RecordLater ContentUploadRecord.Later rr rc') (phase : UploadPhase) :
    phase.budget it rc' ≤ phase.budget it rr := by
  cases phase with
  | loading =>
    simp only [budget]
    cases rr with
    | some held =>
      obtain ⟨c, rfl, hle⟩ := hl held rfl
      have hrem := hle.remaining_le
      simp only [elim_some]
      omega
    | none =>
      cases rc' with
      | none => exact Nat.le_refl _
      | some c =>
        have hrem := c.remaining_le
        rw [(hd c rfl).2] at hrem
        simp only [elim_some, elim_none]
        omega
  | _ => exact Nat.le_refl _

lemma budget_pos (h : ∀ r, phase ≠ .finished r) : 0 < phase.budget it rr := by
  cases phase with
  | submitting => exact Nat.succ_pos _
  | loading => exact Nat.succ_pos _
  | finished r => exact absurd rfl (h r)
  | starting held | reading held | committing held | reconciling held | uploadingChunk held
  | reconcilingChunk held | transitioning held | observing held =>
    have hpos := held.remaining_pos
    simp only [budget]
    omega

/-! ## One step of an invocation -/

lemma Written.advances (h : Written phase rr rc') (hh : phase.Holds it rr) (hd : ∀ c ∈ rr, Durable it c) :
    Advances ContentUploadRecord.Later (Durable it) rr rc' := by
  have hkept : rc' = rr → Advances ContentUploadRecord.Later (Durable it) rr rc' := by
    rintro rfl
    exact .refl hd
  cases phase with
  | submitting sb =>
    rcases h with hs | ⟨rfl, rfl⟩
    · exact hkept hs
    · obtain rfl : sb = it := hh rfl
      exact .create ⟨ContentUploadRecord.coherent_persist sb, rfl⟩
  | transitioning held t a =>
    rcases h with hs | ⟨c, rfl, rfl⟩
    · exact hkept hs
    · obtain ⟨hc, hi⟩ := hd c rfl
      obtain ⟨hl, hn⟩ := ContentUploadRecord.later_apply hc t
      exact .write hl ⟨hn, hl.intent_eq.trans hi⟩
  | _ => exact hkept h

lemma dispatch_spec {l : ContentUploadRecord} (hr : rr = some l) (hd : Durable it l) :
    (dispatch l).Holds it rr ∧ (dispatch l).budget it rr ≤ 6 * l.remaining := by
  have hheld : Held it rr l := .of_eq hr hd
  have hcoh := hd.1
  unfold dispatch
  cases hstate : l.state with
  | intentPersisted | remoteOutcomeUnknown => exact ⟨⟨hheld, hstate⟩, Nat.le_refl _⟩
  | uploading =>
    rw [ContentUploadRecord.Coherent, hstate] at hcoh
    obtain ⟨⟨session, hs, hle⟩, -⟩ := hcoh
    simp only [hs, ContentUploadSession.validateFor, if_neg (Nat.not_lt.mpr hle)]
    split_ifs with hlt
    · exact ⟨⟨hheld, hstate, hs, hlt⟩, Nat.le_refl _⟩
    · exact ⟨⟨hheld, hstate, session, hs, by omega⟩, Nat.sub_le _ _⟩
  | remoteCommitting =>
    rw [ContentUploadRecord.Coherent, hstate] at hcoh
    obtain ⟨⟨session, hs, -⟩, -⟩ := hcoh
    simp only [hs]
    exact ⟨⟨hheld, hstate, hs⟩, Nat.le_refl _⟩
  | remoteOutcomeKnown | metadataReconciled => exact ⟨⟨hheld, hstate⟩, Nat.sub_le _ _⟩
  | completed =>
    rw [ContentUploadRecord.Coherent, hstate] at hcoh
    obtain ⟨-, o, ho, -⟩ := hcoh
    simp only [ho]
    exact ⟨fun _ => ⟨l, hr, hstate⟩, Nat.zero_le _⟩

variable {sn : ContentUploadSession}

lemma continues_read {chunkSize : ℕ} (hp : 0 < chunkSize) (hc : AtChunk held sn) {b : List UInt8}
    (hl : b.length = nextLength chunkSize held sn) :
    Continues held sn (.fromValidatedParts sn.id held.intent.snapshot.generation
      sn.acceptedOffset b b.length held.intent.snapshot.size) := by
  have hlt := hc.lt
  have hnonempty : 0 < b.length := by
    rw [hl]
    exact Nat.lt_min.mpr ⟨by omega, hp⟩
  have hle : b.length ≤ held.intent.snapshot.size - sn.acceptedOffset := by
    rw [hl]
    exact Nat.min_le_left _ _
  refine ⟨rfl, rfl, rfl, rfl, rfl, hnonempty, ?_⟩
  show sn.acceptedOffset + b.length ≤ held.intent.snapshot.size
  omega

lemma fits_checkpoint {c : ContentUploadChunk} (hch : AtChunk held sn) (hc : Continues held sn c) :
    Fits held (.recordSession ⟨c.sessionId, c.endExclusive⟩) .plain := by
  refine ⟨hc.le, .inr ⟨sn, hch, hc.sessionId.symm, ?_⟩⟩
  have hpos := hc.nonempty
  simp only [ContentUploadChunk.endExclusive, hc.offset]
  omega

structure StepSpec (intent : ContentUploadIntent) (record record' : Option ContentUploadRecord)
    (phase phase' : UploadPhase) : Prop where
  advances : Advances ContentUploadRecord.Later (Durable intent) record record'
  holds : phase'.Holds intent record'
  budget_lt : phase'.budget intent record' < phase.budget intent record

/-- **One step of an invocation.** -/
theorem step_spec {chunkSize : ℕ} (hps : 0 < chunkSize) {generation : SessionGeneration}
    {active : ActiveGenerations} {phase phase' : UploadPhase} {event : UploadEvent}
    (hd : ∀ c ∈ rr, Durable it c) (hh : phase.Holds it rr)
    (h : phase.step chunkSize generation active rr event = some (phase', rc')) :
    StepSpec it rr rc' phase phase' := by
  obtain ⟨hw, hmv⟩ := step_cases h
  have hadv := hw.advances hh hd
  have hlater := hadv.later
  cases hmv with
  | ended hp hrs =>
    exact ⟨hadv, fun hc => absurd hc hrs, budget_pos hp⟩
  | accepted sb =>
    refine ⟨hadv, trivial, ?_⟩
    simp only [budget]
    cases rc' with
    | none =>
      simp only [elim_none]
      omega
    | some c =>
      have hrem := c.remaining_le
      rw [(hadv.stored c rfl).2] at hrem
      simp only [elim_some]
      omega
  | @dispatched l _ hr =>
    obtain rfl : rc' = rr := hw
    obtain ⟨hn, hle⟩ := dispatch_spec hr (hd l hr)
    refine ⟨hadv, hn, ?_⟩
    subst hr
    exact Nat.lt_succ_of_le hle
  | @started held sn _ hs =>
    have hrem := held.remaining_pos
    refine ⟨hadv, ⟨hh.1.mono hlater, hs, .inl hh.2⟩, ?_⟩
    simp only [budget]
    omega
  | @read held sn b _ hl =>
    have hrem := held.remaining_pos
    refine ⟨hadv, ⟨hh.1.mono hlater, hh.2, continues_read hps hh.2 hl⟩, ?_⟩
    simp only [budget]
    omega
  | conflicted held sn ch =>
    have hrem := held.remaining_pos
    refine ⟨hadv, ⟨hh.1.mono hlater, hh.2⟩, ?_⟩
    simp only [budget]
    omega
  | acknowledged held sn ch | reconciledChunk held sn ch =>
    have hrem := held.remaining_pos
    refine ⟨hadv, ⟨hh.1.mono hlater, fits_checkpoint hh.2.1 hh.2.2⟩, ?_⟩
    simp only [budget]
    omega
  | commitAnswered held sn o =>
    have hrem := held.remaining_pos
    refine ⟨hadv, ⟨hh.1.mono hlater, hh.2.1, rfl⟩, ?_⟩
    simp only [budget]
    omega
  | reconcileAnswered held o =>
    have hrem := held.remaining_pos
    refine ⟨hadv, ⟨hh.1.mono hlater, hh.2, rfl⟩, ?_⟩
    simp only [budget]
    omega
  | transitioned held t a ss =>
    have hrem := held.remaining_pos
    refine ⟨hadv, hh.1.mono hlater, ?_⟩
    simp only [budget]
    omega
  | @observed held c ss a _ hr hm =>
    obtain rfl : rc' = rr := hw
    obtain ⟨st, hst, hle⟩ := hh.stored
    obtain rfl : c = st := some.inj (hr.symm.trans hst)
    have hlt : c.remaining < held.remaining := (hle.resolve_left hm).1
    refine ⟨hadv, trivial, ?_⟩
    subst hr
    simp only [budget, elim_some]
    omega

lemma exists_step (chunkSize : ℕ) (generation : SessionGeneration) (active : ActiveGenerations)
    (record : Option ContentUploadRecord) {phase : UploadPhase} (h : ∀ r, phase ≠ .finished r) :
    ∃ event, (phase.step chunkSize generation active record event).isSome = true := by
  cases phase with
  | starting held => exact ⟨.startUpload (.error (.new .internal)), rfl⟩
  | reading held sn => exact ⟨.readSnapshot (.error .persistenceFailure), rfl⟩
  | uploadingChunk held sn c => exact ⟨.uploadChunk (.error (.new .internal)), rfl⟩
  | reconcilingChunk held sn c =>
    exact ⟨.reconcileUploadChunk (.error (.new .internal)), rfl⟩
  | committing held sn => exact ⟨.commitUpload (.error (.new .internal)), rfl⟩
  | reconciling held => exact ⟨.reconcileUpload (.error (.new .internal)), rfl⟩
  | finished r => exact absurd rfl (h r)
  | _ => exact ⟨.store (.beforePersist .persistenceFailure) .fenced, rfl⟩

end UploadPhase

/-! ## The system -/

namespace UploadSystem

variable {ι : Type} [DecidableEq ι] {intent : ContentUploadIntent}

/-- **The invariant of the system.** -/
structure RunnersSafe (intent : ContentUploadIntent) (s : UploadSystem ι) : Prop where
  durable : ∀ current ∈ s.record, UploadPhase.Durable intent current
  holds : ∀ i, (s.runners i).phase.Holds intent s.record

def actionOf (i : ι) : UploadAction ι → Bool
  | .runner j _ => decide (j = i)
  | .setActive .. => false

/-- What is left of one invocation. -/
def budget (intent : ContentUploadIntent) (i : ι) (s : UploadSystem ι) : ℕ :=
  (s.runners i).phase.budget intent s.record

variable {s : UploadSystem ι}

omit [DecidableEq ι] in
lemma safe_of_initial (h : s.Initial intent) : s.RunnersSafe intent := by
  refine ⟨fun record hrc => ?_, fun i => ?_⟩
  · obtain ⟨hi, hr⟩ := h.record record hrc
    exact ⟨hr.coherent, hi⟩
  · rcases (h.runners i).1 with ⟨sb, hp, hs⟩ | hp
    · rw [hp]
      exact hs
    · rw [hp]
      trivial

variable {s' : UploadSystem ι} {i : ι}

lemma next_runner {event : UploadEvent} (h : Step s (.runner i event) s') : ∃ phase record,
      (s.runners i).phase.step (s.runners i).chunkSize (s.runners i).generation s.active s.record
        event = some (phase, record) ∧
      s' = { s with
        record := record
        committed := s.committed || isCommitted event
        runners := Function.update s.runners i ((s.runners i).after event phase) } := by
  simp only [Step, next, map_eq_some_iff] at h
  obtain ⟨⟨phase, record⟩, hst, hs'⟩ := h
  exact ⟨phase, record, hst, hs'.symm⟩

structure StepSpec (intent : ContentUploadIntent) (s : UploadSystem ι) (a : UploadAction ι)
    (s' : UploadSystem ι) : Prop where
  safe : s'.RunnersSafe intent
  later : RecordLater ContentUploadRecord.Later s.record s'.record
  budget_le : ∀ i, s'.budget intent i ≤ s.budget intent i
  budget_lt : ∀ i, actionOf i a = true → s'.budget intent i < s.budget intent i

/-- **One step of the system** keeps the invariant, moves the record to a later one, lengthens no
invocation's way and shortens the way of the one that moves. -/
theorem safe_step {a : UploadAction ι} (hs : s.RunnersSafe intent) (h : Step s a s') : StepSpec intent s a s' := by
  cases a with
  | setActive sc generation =>
    obtain rfl := some.inj h
    exact ⟨⟨hs.durable, hs.holds⟩, .refl _, fun _ => Nat.le_refl _, fun i hi => by simp [actionOf] at hi⟩
  | runner i event =>
    obtain ⟨phase, record, hst, rfl⟩ := next_runner h
    have hspec := UploadPhase.step_spec (s.runners i).chunkSize_pos hs.durable (hs.holds i) hst
    refine ⟨⟨hspec.advances.stored, fun j => ?_⟩, hspec.advances.later, fun j => ?_, fun j hj => ?_⟩
    · by_cases hij : j = i
      · subst hij
        simpa using hspec.holds
      · simpa [hij] using (hs.holds j).mono hspec.advances.later
    · by_cases hij : j = i
      · subst hij
        simpa [budget] using Nat.le_of_lt hspec.budget_lt
      · simpa [budget, hij] using UploadPhase.budget_mono hspec.advances.stored
          hspec.advances.later (s.runners j).phase
    · obtain rfl : i = j := by simpa [actionOf] using hj
      simpa [budget] using hspec.budget_lt

variable {l : List (UploadAction ι)}

omit [DecidableEq ι] in
lemma budget_le_of_initial (h : s.Initial intent) (i : ι) :
    s.budget intent i ≤ 6 * (intent.snapshot.size + 7) + 2 := by
  rcases (h.runners i).1 with ⟨sb, hp, -⟩ | hp
  · rw [budget, hp]
    exact Nat.le_refl _
  · rw [budget, hp]
    simp only [UploadPhase.budget]
    cases hrec : s.record with
    | none =>
      simp only [elim_none]
      omega
    | some c =>
      have hrem := c.remaining_le
      rw [(h.record c hrec).1] at hrem
      simp only [elim_some]
      omega

lemma count_actionOf_le (hin : s.Initial intent) (hr : Run Step s l s') (i : ι) :
    l.countP (actionOf i) ≤ 6 * (intent.snapshot.size + 7) + 2 := by
  have hcount := hr.count_le_of_decreasing (I := RunnersSafe intent) (P := actionOf i)
    (fun s => s.budget intent i) (fun _ _ _ hs hst => (safe_step hs hst).safe)
    (fun _ _ _ hs hst => (safe_step hs hst).budget_le i)
    (fun _ _ _ hs hi hst => (safe_step hs hst).budget_lt i hi) (safe_of_initial hin)
  have hbud := budget_le_of_initial hin i
  omega

lemma exists_step (h : ∀ r, (s.runners i).phase ≠ .finished r) : ∃ event s', Step s (.runner i event) s' := by
  obtain ⟨event, he⟩ := UploadPhase.exists_step (s.runners i).chunkSize
    (s.runners i).generation s.active s.record h
  obtain ⟨⟨phase, record⟩, hs⟩ := isSome_iff_exists.mp he
  refine ⟨event, { s with
    record := record
    committed := s.committed || isCommitted event
    runners := Function.update s.runners i ((s.runners i).after event phase) }, ?_⟩
  simp [Step, next, hs]

end UploadSystem

end AsterForge.Core
