import AsterForge.Core.UploadSafety

/-!
# Do concurrent upload runners converge?

Upload runners that share one operation over an idempotent backend converge unless one of them records
something that a faster one has made the record refuse: the other spelling of an outcome that is known
already, or a checkpoint of the upload after the remote commit has begun.

* `ContentUploadRecord.Refuses` — what a record refuses that an earlier one called for; with
  **`ContentUploadRecord.apply_error_iff`** it is the only way in which a transition fails.
* **`IdempotentBackend.converges_iff`** — a run is free of store and contract errors exactly if no step
  asks for something that the record refuses.
-/

namespace AsterForge.Core

open Library ContentUploadSession UploadPhase UploadSystem ContentUploadRecord Option

namespace ContentUploadRecord

/-! ## What a record refuses -/

def Refuses (current : ContentUploadRecord) : UploadTransition → Prop
  | .recordSession session =>
    current.state ≠ .intentPersisted ∧ current.state ≠ .uploading ∧ current.session ≠ some session
  | .recordRemoteOutcome outcome =>
    (current.state = .remoteOutcomeKnown ∨ current.state = .metadataReconciled
      ∨ current.state = .completed) ∧ current.remoteOutcome ≠ some outcome
  | _ => False

variable {h c : ContentUploadRecord}

/-- A checkpoint is refused once the record is past its upload, unless it is the durable one. -/
lemma recordSession_error_iff {ss : ContentUploadSession} (hs : ss.acceptedOffset ≤ c.intent.snapshot.size)
    (hid : ∀ o ∈ c.session, o.id = ss.id) :
    (∃ e, (c.recordSession ss).1 = .error e) ↔ c.Refuses (.recordSession ss) := by
  unfold recordSession validateFor Refuses
  rw [if_neg (Nat.not_lt.mpr hs)]
  by_cases hstate : c.state ≠ .intentPersisted ∧ c.state ≠ .uploading
  · by_cases hsame : c.session = some ss
    · simp [hsame]
    · simp [hstate, hsame]
  · rw [if_neg hstate]
    have hrefuses : ¬ (c.state ≠ .intentPersisted ∧ c.state ≠ .uploading
        ∧ c.session ≠ some ss) := fun h => hstate ⟨h.1, h.2.1⟩
    refine iff_of_false ?_ hrefuses
    cases hsess : c.session with
    | none => simp
    | some o =>
      have hsame : o.id = ss.id := hid o hsess
      simp only [hsame, ne_eq, not_true_eq_false, if_false]
      split_ifs <;> simp

lemma recordRemoteOutcome_error_iff {o : MutationRemoteOutcome} (hv : validateUploadOutcome c.intent o = .ok ())
    (hs : c.state ≠ .intentPersisted ∧ c.state ≠ .uploading) :
    (∃ e, (c.recordRemoteOutcome o).1 = .error e) ↔ c.Refuses (.recordRemoteOutcome o) := by
  simp only [recordRemoteOutcome, hv, Refuses]
  by_cases hsame : c.remoteOutcome = some o
  · cases hcurr : c.state with
    | intentPersisted => exact absurd hcurr hs.1
    | uploading => exact absurd hcurr hs.2
    | _ => simp [hsame]
  · cases hcurr : c.state with
    | intentPersisted => exact absurd hcurr hs.1
    | uploading => exact absurd hcurr hs.2
    | _ => simp [hsame]

variable {t : UploadTransition} {ab : UploadObservation}

/-- **A transition that an earlier record called for fails only if the record refuses it.** -/
theorem apply_error_iff (hc : c.Coherent) (hl : h.Later c) (hf : UploadPhase.Fits h t ab)
    (hid : ∀ ss, t = .recordSession ss → ∀ ot ∈ c.session, ot.id = ss.id)
    (hv : ∀ o, t = .recordRemoteOutcome o → validateUploadOutcome c.intent o = .ok ()) :
    (∃ e, (c.apply t).1 = .error e) ↔ c.Refuses t := by
  have hrem := hl.remaining_le
  -- how far the held record is bounds how far the durable one can be behind
  have hpast : h.remaining ≤ 5 → c.state ≠ .intentPersisted ∧ c.state ≠ .uploading := by
    intro hle
    constructor
    · intro hs
      simp only [remaining, hs] at hrem hle
      omega
    · intro hs
      rw [show c.remaining = c.intent.snapshot.size - c.acceptedOffset + 6 by
        simp only [remaining, hs]] at hrem
      omega
  cases t with
  | recordSession ss =>
    cases ab with
    | plain =>
      have hsize := hf.1
      rw [← hl.intent_eq] at hsize
      exact recordSession_error_iff hsize (hid ss rfl)
    | _ => exact hf.elim
  | recordRemoteOutcome o =>
    refine recordRemoteOutcome_error_iff (hv o rfl) (hpast ?_)
    cases ab with
    | plain => exact hf.elim
    | commit p => simp [remaining, hf.1]
    | reconcile p => simp [remaining, hf.1]
  | beginRemoteCommit =>
    cases ab with
    | plain =>
      obtain ⟨hs, ss, hss, hfl⟩ := hf
      refine iff_of_false ?_ not_false
      obtain ⟨next, hn, -, hle⟩ := hl.session ss hss
      simp only [apply, beginRemoteCommit]
      cases hcurr : c.state with
      | intentPersisted =>
        simp only [remaining, hcurr, hs, acceptedOffset, hss] at hrem
        omega
      | uploading =>
        rw [Coherent, hcurr] at hc
        obtain ⟨⟨ot, ho, hb⟩, -⟩ := hc
        obtain rfl : next = ot := some.inj (hn.symm.trans ho)
        rw [hl.intent_eq] at hb
        have hcompl : next.acceptedOffset = c.intent.snapshot.size := by
          rw [hl.intent_eq]
          omega
        simp [ho, hcompl]
      | _ => simp
    | _ => exact hf.elim
  | markMetadataReconciled =>
    cases ab with
    | plain =>
      have hb : h.remaining = 3 := by
        simp only [remaining, show h.state = .remoteOutcomeKnown from hf]
      refine iff_of_false ?_ not_false
      simp only [apply, markMetadataReconciled]
      cases hcurr : c.state with
      | remoteOutcomeKnown | metadataReconciled | completed => simp
      | _ =>
        simp only [remaining, hcurr] at hrem hb
        omega
    | _ => exact hf.elim
  | complete =>
    cases ab with
    | plain =>
      have hb : h.remaining = 2 := by
        simp only [remaining, show h.state = .metadataReconciled from hf]
      refine iff_of_false ?_ not_false
      simp only [apply, complete]
      cases hcurr : c.state with
      | metadataReconciled | completed => simp
      | _ =>
        simp only [remaining, hcurr] at hrem hb
        omega
    | _ => exact hf.elim

/-- What the held record itself makes of the transition it called for: it moves, or an unknown
outcome stays unknown. -/
lemma apply_held (hch : h.Coherent) (hf : UploadPhase.Fits h t ab)
    (hv : ∀ o, t = .recordRemoteOutcome o → validateUploadOutcome h.intent o = .ok ()) :
    (h.apply t).2 ≠ h ∨ ab = .reconcile true ∧ h.state = .remoteOutcomeUnknown
        ∧ h.apply t = (.ok .alreadyApplied, h) := by
  have hstate : (h.apply t).2.state ≠ h.state → (h.apply t).2 ≠ h :=
    fun hne hsm => hne (congrArg ContentUploadRecord.state hsm)
  cases t with
  | recordSession ss =>
    cases ab with
    | plain =>
      refine .inl ?_
      obtain ⟨hsz, hi | ⟨ot, hc, hid, hlt⟩⟩ := hf
      · have hnone := hch
        rw [Coherent, hi] at hnone
        refine hstate ?_
        simp [apply, recordSession, validateFor, Nat.not_lt.mpr hsz, hi, hnone.1]
      · intro hsm
        have hs := congrArg ContentUploadRecord.session hsm
        simp only [apply, recordSession, validateFor,
          if_neg (Nat.not_lt.mpr hsz), hc.state_eq, hc.session_eq, hid] at hs
        simp [Nat.not_lt.mpr (Nat.le_of_lt hlt), Nat.ne_of_gt hlt] at hs
        exact Nat.lt_irrefl _ (hs ▸ hlt)
    | _ => exact hf.elim
  | recordRemoteOutcome o =>
    cases ab with
    | plain => exact hf.elim
    | commit p =>
      refine .inl (hstate ?_)
      have hcomm := hch
      rw [Coherent, hf.1] at hcomm
      simp only [apply, recordRemoteOutcome, hv o rfl, hf.1, hcomm.2]
      by_cases hunk : o = .remoteOutcomeUnknown <;> simp [hunk]
    | reconcile p =>
      have hdur := hch
      rw [Coherent, hf.1] at hdur
      by_cases hunk : o = .remoteOutcomeUnknown
      · refine .inr ⟨by rw [hf.2, hunk]; rfl, hf.1, ?_⟩
        simp only [apply, recordRemoteOutcome, hf.1, hdur.2, hunk]
        rfl
      · refine .inl (hstate ?_)
        simp only [apply, recordRemoteOutcome, hv o rfl, hf.1, hdur.2]
        simp [hunk, Ne.symm hunk]
  | beginRemoteCommit =>
    cases ab with
    | plain =>
      obtain ⟨hu, ss, hs, hfl⟩ := hf
      refine .inl (hstate ?_)
      simp [apply, beginRemoteCommit, hu, hs, hfl]
    | _ => exact hf.elim
  | markMetadataReconciled =>
    cases ab with
    | plain =>
      refine .inl (hstate ?_)
      simp [apply, markMetadataReconciled, show h.state = .remoteOutcomeKnown from hf]
    | _ => exact hf.elim
  | complete =>
    cases ab with
    | plain =>
      refine .inl (hstate ?_)
      simp [apply, complete, show h.state = .metadataReconciled from hf]
    | _ => exact hf.elim

lemma session_apply (hc : c.Coherent) (t : UploadTransition) : (c.apply t).2.session = c.session
    ∨ ∃ ss, t = .recordSession ss ∧ (c.apply t).2.session = some ss := by
  cases t with
  | recordSession ss =>
    rcases recordSession_cases hc ss with hk | ⟨hn, -⟩
    · exact .inl (congrArg ContentUploadRecord.session hk)
    · exact .inr ⟨ss, rfl, congrArg ContentUploadRecord.session hn⟩
  | recordRemoteOutcome o =>
    rcases recordRemoteOutcome_cases c o with hk | ⟨hn, -⟩
    · exact .inl (congrArg ContentUploadRecord.session hk)
    · exact .inl (by simp only [apply, hn])
  | beginRemoteCommit =>
    simp only [apply, beginRemoteCommit]
    cases c.state with
    | uploading =>
      split_ifs <;> exact .inl rfl
    | _ => exact .inl rfl
  | markMetadataReconciled =>
    simp only [apply, markMetadataReconciled]
    cases c.state with
    | _ => exact .inl rfl
  | complete =>
    simp only [apply, complete]
    cases c.state with
    | _ => exact .inl rfl

end ContentUploadRecord

/-! ## The setting -/

/-- An idempotent backend for one operation: the session it gives the operation, and the item that
its commit leads to. -/
structure IdempotentBackend (intent : ContentUploadIntent) where
  sessionId : ContentUploadSessionId
  item : CloudItem
  item_valid : validateCommittedUpload intent (some item) = .ok ()

namespace IdempotentBackend

variable {ι : Type} {intent : ContentUploadIntent} (backend : IdempotentBackend intent)

/-- What the backend, the source and the store may answer.  Starting again gives the same session;
the source has the bytes it is asked for; a chunk is acknowledged at its end; the first commit
is answered `Committed` and every later one `AlreadyCommitted`, with the same item; any call may fail
in the backend; the store works. -/
def answers (s : UploadSystem ι) : UploadAction ι → Bool
  | .setActive _ _ => true
  | .runner _ (.store fault _) => fault = .none
  | .runner _ (.startUpload (.ok session)) =>
    session.id = backend.sessionId ∧ session.acceptedOffset ≤ intent.snapshot.size
  | .runner i (.readSnapshot answer) =>
    match (s.runners i).phase, answer with
    | .reading held session, .ok bytes =>
      bytes.length = UploadPhase.nextLength (s.runners i).chunkSize held session
    | _, _ => false
  | .runner i (.uploadChunk (.ok ack)) | .runner i (.reconcileUploadChunk (.ok ack)) =>
    match (s.runners i).phase with
    | .uploadingChunk _ _ chunk | .reconcilingChunk _ _ chunk =>
      ack = ⟨chunk.sessionId, chunk.endExclusive⟩
    | _ => false
  | .runner _ (.commitUpload (.ok outcome)) =>
    outcome = if s.committed then .alreadyCommitted backend.item else .committed backend.item
  | .runner _ (.reconcileUpload (.ok outcome)) =>
    outcome = .remoteOutcomeUnknown ∨ outcome = .committed backend.item
      ∨ outcome = .alreadyCommitted backend.item
  | .runner _ (.startUpload (.error _)) | .runner _ (.uploadChunk (.error _))
  | .runner _ (.reconcileUploadChunk (.error _)) | .runner _ (.commitUpload (.error _))
  | .runner _ (.reconcileUpload (.error _)) => true

def Step [DecidableEq ι] : UploadSystem ι → UploadAction ι → UploadSystem ι → Prop :=
  Guarded (fun s a => backend.answers s a = true) UploadSystem.Step

/-- **The condition**: a runner asks the durable record for nothing that it refuses. -/
def Meets (s : UploadSystem ι) : UploadAction ι → Prop
  | .runner i (.store _ _) => ∀ held t about current,
      (s.runners i).phase = .transitioning held t about → s.record = some current →
        s.active current.intent.scope = some (s.runners i).generation → ¬ current.Refuses t
  | _ => True

/-- An invocation has ended with an error other than one of the backend. -/
def Failed (s : UploadSystem ι) : Prop :=
  ∃ i error, (s.runners i).phase = .finished (.error error) ∧ ∀ e, error ≠ .backend e

/-! ## What an invocation is about to ask for -/

def Accepts : UploadTransition → Prop
  | .recordSession session => session.id = backend.sessionId
  | .recordRemoteOutcome outcome => validateUploadOutcome intent outcome = .ok ()
  | _ => True

def Explained (record : Option ContentUploadRecord) (held : ContentUploadRecord)
    (status : StoreWriteStatus) : UploadObservation → Prop
  | .reconcile pending => record ≠ some held
      ∨ pending = true ∧ status = .alreadyApplied ∧ held.state = .remoteOutcomeUnknown
  | _ => record ≠ some held ∨ status = .fenced

variable {status : StoreWriteStatus} {about : UploadObservation} {ph : UploadPhase}

lemma Explained.of_moved {r : Option ContentUploadRecord} {held : ContentUploadRecord} (h : r ≠ some held) :
    Explained r held status about := by
  cases about with
  | _ => exact .inl h

/-- **The invariant of an invocation** in this setting. -/
def Expected (record : Option ContentUploadRecord) : UploadPhase → Prop
  | .submitting submitted => submitted = intent
  | .loading => record.isSome = true
  | .transitioning _ t _ => backend.Accepts t
  | .observing held status about => Explained record held status about
  | .finished result => ∀ error, result = .error error → ∃ e, error = .backend e
  | _ => True

def SameSession (record : Option ContentUploadRecord) : Prop :=
  ∀ current ∈ record, ∀ session ∈ current.session, session.id = backend.sessionId

variable {backend} {record r' : Option ContentUploadRecord}

lemma Expected.mono (h : backend.Expected record ph) (hh : ph.Holds intent record)
    (hl : RecordLater ContentUploadRecord.Later record r') : backend.Expected r' ph := by
  cases ph with
  | loading =>
    obtain ⟨current, hc⟩ := isSome_iff_exists.mp h
    obtain ⟨next, hn, -⟩ := hl current hc
    rw [mem_def.mp hn]
    rfl
  | observing held status about =>
    have hmoved : record ≠ some held → r' ≠ some held := by
      rintro hne rfl
      obtain ⟨current, hc, hle⟩ := UploadPhase.Held.stored hh
      obtain ⟨next, hn, hle'⟩ := hl current hc
      obtain rfl : held = next := some.inj hn
      rcases hle with rfl | ⟨hlt, -⟩
      · exact hne hc
      · exact absurd hle'.remaining_le (Nat.not_le.mpr hlt)
    cases about with
    | reconcile p => exact h.imp_left hmoved
    | _ => exact h.imp_left hmoved
  | _ => exact h

variable {held : ContentUploadRecord}

lemma session_id_of_held {ss : ContentUploadSession}
    (hsm : backend.SameSession record) (hh : UploadPhase.Held intent record held)
    (hs : held.session = some ss) : ss.id = backend.sessionId := by
  obtain ⟨current, hc, hle⟩ := hh.stored
  obtain ⟨next, hn, hid, -⟩ := hle.session ss hs
  exact hid.symm.trans (hsm current hc next hn)

lemma expected_dispatch {l : ContentUploadRecord} (hc : l.Coherent) : backend.Expected record (dispatch l) := by
  unfold dispatch
  cases hstate : l.state with
  | intentPersisted | remoteOutcomeUnknown | remoteOutcomeKnown | metadataReconciled => trivial
  | uploading =>
    rw [ContentUploadRecord.Coherent, hstate] at hc
    obtain ⟨⟨ss, hs, hle⟩, -⟩ := hc
    simp only [hs, validateFor, if_neg (Nat.not_lt.mpr hle)]
    split_ifs <;> trivial
  | remoteCommitting =>
    rw [ContentUploadRecord.Coherent, hstate] at hc
    obtain ⟨⟨ss, hs, -⟩, -⟩ := hc
    simp only [hs]
    trivial
  | completed =>
    rw [ContentUploadRecord.Coherent, hstate] at hc
    obtain ⟨-, o, ho, -⟩ := hc
    simp only [ho]
    exact fun e he => by simp at he

lemma expected_afterAck {c : ContentUploadChunk} (hid : c.sessionId = backend.sessionId) :
    backend.Expected record (afterAck held c ⟨c.sessionId, c.endExclusive⟩) := by
  simp only [afterAck, ContentUploadChunkAck.validateFor, ne_eq, not_true_eq_false, if_false]
  exact hid

lemma expected_observe {held current : ContentUploadRecord} (h : Explained (some current) held status about) :
    backend.Expected (some current) (observe held status about current) := by
  have hended : ∀ o, backend.Expected (some current) (.finished (.ok o)) :=
    fun o e he => by simp at he
  unfold observe
  cases about with
  | reconcile p =>
    by_cases hsame : current = held
    · obtain ⟨rfl, rfl, hs⟩ := h.resolve_left (by simp [hsame])
      simp only [hsame, hs, if_true, and_self]
      exact hended _
    · simp only [if_neg hsame]
      rfl
  | commit p =>
    by_cases hsame : current = held
    · obtain rfl : status = .fenced := h.resolve_left (by simp [hsame])
      simp only [hsame, if_true]
      exact hended _
    · simp only [if_neg hsame]
      split_ifs
      · exact hended _
      · rfl
  | plain =>
    by_cases hsame : current = held
    · obtain rfl : status = .fenced := h.resolve_left (by simp [hsame])
      simp only [hsame, if_true]
      exact hended _
    · simp only [if_neg hsame]
      rfl

/-- What the store answers to a transition of an invocation: an error exactly if the executor is
active and the record refuses, and otherwise a status that explains what will be observed. -/
lemma withActiveUpload_spec (av : ActiveGenerations) (g : SessionGeneration)
    (e : StoreWriteStatus) {held current : ContentUploadRecord} {t : UploadTransition}
    (hd : UploadPhase.Durable intent current)
    (hh : UploadPhase.Held intent (some current) held) (hf : UploadPhase.Fits held t about)
    (ha : backend.Accepts t) (hsm : backend.SameSession (some current)) :
    (av current.intent.scope = some g ∧ current.Refuses t
        ∧ (withActiveUpload av g t e (some current)).1 = .error .invalidTransition)
      ∨ ¬ (av current.intent.scope = some g ∧ current.Refuses t)
        ∧ ∃ status, (withActiveUpload av g t e (some current)).1 = .ok status ∧ (status = .fenced
            ∨ Explained (withActiveUpload av g t e (some current)).2 held status about) := by
  obtain ⟨hc, hi⟩ := hd
  obtain ⟨st, hst, hl⟩ := hh.stored
  obtain rfl : current = st := some.inj hst
  have hid : ∀ ss, t = .recordSession ss → ∀ ot ∈ current.session, ot.id = ss.id := by
    rintro ss rfl ot ho
    exact (hsm current rfl ot ho).trans (Eq.symm ha)
  have hvalid : ∀ o, t = .recordRemoteOutcome o → validateUploadOutcome intent o = .ok () := by
    rintro o rfl
    exact ha
  have he := apply_error_iff hc hl hf hid (hi.symm ▸ hvalid)
  simp only [withActiveUpload]
  by_cases hact : av current.intent.scope = some g
  case neg =>
    refine .inr ⟨fun h => hact h.1, .fenced, ?_, .inl rfl⟩
    rw [if_pos hact]
  rw [if_neg (not_not.mpr hact)]
  by_cases hrefuses : current.Refuses t
  · obtain ⟨er, he⟩ := he.mpr hrefuses
    refine .inl ⟨hact, hrefuses, ?_⟩
    rw [show current.apply t = (.error er, (current.apply t).2) from Prod.ext he rfl]
  · refine .inr ⟨fun h => hrefuses h.2, ?_⟩
    have hlaterApply := (later_apply hc t).1
    have hm : (current.apply t).2 ≠ held ∨ about = .reconcile true
        ∧ held.state = .remoteOutcomeUnknown ∧ current.apply t = (.ok .alreadyApplied, held) := by
      rcases hl with rfl | ⟨hlt, -⟩
      · exact apply_held hc hf (hi.symm ▸ hvalid)
      · refine .inl fun hb => ?_
        have hle := hlaterApply.remaining_le
        rw [hb] at hle
        omega
    generalize hres : current.apply t = result at hm he
    obtain ⟨er | tr, next⟩ := result
    · exact absurd (he.mp ⟨er, rfl⟩) hrefuses
    rcases hm with hm | ⟨rfl, hs, hk⟩
    · have hexplained : ∀ status, Explained (some next) held status about :=
        fun status => .of_moved fun hb => hm (some.inj hb)
      dsimp only
      split_ifs
      · exact ⟨e, rfl, .inr (hexplained e)⟩
      · exact ⟨uploadTransitionStatus tr, rfl, .inr (hexplained _)⟩
    · obtain ⟨ht, rfl⟩ := Prod.mk.inj hk
      obtain rfl : tr = .alreadyApplied := by simpa using ht
      refine ⟨.alreadyApplied, ?_, .inr (.inr ⟨rfl, rfl, hs⟩)⟩
      simp [uploadTransitionStatus]

lemma SameSession.written (h : backend.SameSession record)
    (hd : ∀ current ∈ record, UploadPhase.Durable intent current)
    (hw : ph.Written record r') (he : backend.Expected record ph) : backend.SameSession r' := by
  have hkept : r' = record → backend.SameSession r' := by
    rintro rfl
    exact h
  cases ph with
  | submitting submitted =>
    rcases hw with hs | ⟨-, rfl⟩
    · exact hkept hs
    · rintro current hc session hss
      obtain rfl : persist submitted = current := some.inj hc
      simp [persist] at hss
  | transitioning held t about =>
    rcases hw with hs | ⟨current, rfl, rfl⟩
    · exact hkept hs
    · rintro next hn session hss
      obtain rfl : (current.apply t).2 = next := some.inj hn
      rcases session_apply (hd current rfl).1 t with
        hs | ⟨recorded, rfl, hrec⟩
      · exact h current rfl session (hs ▸ hss)
      · obtain rfl : recorded = session := some.inj (hrec.symm.trans hss)
        exact he
  | _ => exact hkept hw

section

variable {s : UploadSystem ι} {i : ι} {ev : UploadEvent} {next : UploadPhase}

lemma persist_spec (av : ActiveGenerations) (g : SessionGeneration)
    (ef : StoreWriteStatus) (hd : ∀ current ∈ record, UploadPhase.Durable intent current) :
    persistContentUploadIntent av g intent ef record = (.ok .fenced, record)
      ∨ ∃ status r', status ≠ .fenced ∧ r'.isSome = true
        ∧ persistContentUploadIntent av g intent ef record = (.ok status, r') := by
  unfold persistContentUploadIntent
  by_cases hfence : intent.sessionGeneration ≠ g ∨ av intent.scope ≠ some g
  · rw [if_pos hfence]
    exact .inl rfl
  rw [if_neg hfence]
  cases record with
  | some e =>
    dsimp only
    rw [if_pos (hd e rfl).2]
    exact .inr ⟨.alreadyApplied, some e, by simp, rfl, rfl⟩
  | none =>
    split_ifs
    · exact .inl rfl
    · exact .inr ⟨.applied, some (.persist intent), by simp, rfl, rfl⟩

lemma expected_transitioning {held : ContentUploadRecord} {t : UploadTransition}
    {abt : UploadObservation} {e : StoreWriteStatus} (hsf : s.RunnersSafe intent)
    (hsm : backend.SameSession s.record)
    (hp : (s.runners i).phase = .transitioning held t abt) (hac : backend.Accepts t)
    (hs : (transitioning held t abt).step (s.runners i).chunkSize
      (s.runners i).generation s.active s.record (.store .none e) = some (next, r')) :
    (Meets s (.runner i (.store .none e)) → backend.Expected r' next)
      ∧ (¬ Meets s (.runner i (.store .none e)) →
        next = .finished (.error (.store .invalidTransition))) := by
  have hholds := hsf.holds i
  rw [hp] at hholds
  obtain ⟨hh, hft⟩ := hholds
  obtain ⟨current, hc, -⟩ := hh.stored
  have hrec : s.record = some current := hc
  rw [hrec] at hh hsm hs
  have hmeets : Meets s (.runner i (.store .none e))
      ↔ ¬ (s.active current.intent.scope = some (s.runners i).generation ∧ current.Refuses t) := by
    constructor
    · rintro h ⟨ha, hr⟩
      exact h held t abt current hp hrec ha hr
    · intro h hl' t' a' c' hp' hrc' ha hr
      obtain ⟨-, rfl, -⟩ := transitioning.inj (hp.symm.trans hp')
      obtain rfl : current = c' := some.inj (hrec.symm.trans hrc')
      exact h ⟨ha, hr⟩
  rw [hmeets, not_not]
  have hdur := hsf.durable current hc
  simp only [step, StoreFault.call] at hs
  rcases withActiveUpload_spec s.active (s.runners i).generation e hdur hh hft hac hsm with
    ⟨ha, hr, he⟩ | ⟨hok, status, hstatus, hexplained⟩
  · generalize withActiveUpload s.active (s.runners i).generation t e (some current) = result at he hs
    obtain ⟨an, w⟩ := result
    obtain rfl : an = .error .invalidTransition := he
    obtain ⟨rfl, -⟩ := Prod.mk.inj (some.inj hs)
    exact ⟨fun h => absurd ⟨ha, hr⟩ h, fun _ => rfl⟩
  · refine ⟨fun _ => ?_, fun h => absurd h hok⟩
    generalize withActiveUpload s.active (s.runners i).generation t e (some current) = result
      at hstatus hs hexplained
    obtain ⟨an, w⟩ := result
    obtain rfl : an = .ok status := hstatus
    dsimp only at hs hexplained
    split at hs
    · obtain ⟨rfl, -⟩ := Prod.mk.inj (some.inj hs)
      exact fun er he => by simp at he
    · next hother =>
        cases hs
        cases abt with
        | reconcile p => exact hexplained.resolve_left fun hf => hother _ rfl hf
        | _ => exact hexplained.elim .inr id

/-- The backend's answers and the working store take an invocation on without an error, unless it
asks for something that the record refuses. -/
theorem expected_step (hsf : s.RunnersSafe intent) (hsm : backend.SameSession s.record)
    (he : backend.Expected s.record (s.runners i).phase) (ha : backend.answers s (.runner i ev) = true)
    (hs : (s.runners i).phase.step (s.runners i).chunkSize (s.runners i).generation s.active
      s.record ev = some (next, r')) :
    (Meets s (.runner i ev) → backend.Expected r' next) ∧ (¬ Meets s (.runner i ev) →
        next = .finished (.error (.store .invalidTransition))) := by
  have hholds := hsf.holds i
  have hbackend : ∀ e, backend.Expected r' (.finished (.error (.backend e))) :=
    fun e _ her => ⟨e, by simpa using her.symm⟩
  have hended : ∀ o, backend.Expected r' (.finished (.ok o)) :=
    fun o e her => by simp at her
  generalize hphase : (s.runners i).phase = ph at he hs hholds
  have hmeets : (∀ held t about, ph ≠ .transitioning held t about) → Meets s (.runner i ev) := by
    intro hne
    cases ev with
    | store f ef =>
      intro held t about current hp'
      exact absurd (hphase.symm.trans hp') (hne held t about)
    | _ => trivial
  suffices hother : (∀ held t about, ph ≠ .transitioning held t about) → backend.Expected r' next by
    cases ph with
    | transitioning held t about =>
      cases ev with
      | store f ef =>
        obtain rfl : f = .none := by simpa [answers] using ha
        exact expected_transitioning hsf hsm hphase he hs
      | _ => simp [step] at hs
    | _ => exact ⟨fun _ => hother (by simp), fun h => absurd (hmeets (by simp)) h⟩
  intro hne
  cases ph with
  | transitioning held t about => exact absurd rfl (hne held t about)
  | submitting sb =>
    cases ev with
    | store f ef =>
      obtain rfl : f = .none := by simpa [answers] using ha
      obtain rfl : sb = intent := he
      simp only [step, StoreFault.call] at hs
      rcases persist_spec s.active (s.runners i).generation ef hsf.durable with hf | ⟨status, w, hst, hso, hac⟩
      · rw [hf] at hs
        cases hs
        exact hended _
      · rw [hac] at hs
        cases status with
        | fenced => exact absurd rfl hst
        | _ =>
          cases hs
          exact hso
    | _ => simp [step] at hs
  | loading =>
    cases ev with
    | store f ef =>
      obtain rfl : f = .none := by simpa [answers] using ha
      obtain ⟨l, hl⟩ := isSome_iff_exists.mp he
      simp only [step, StoreFault.call, loadContentUpload, hl] at hs
      cases hs
      exact expected_dispatch (hsf.durable l hl).1
    | _ => simp [step] at hs
  | starting held =>
    cases ev with
    | startUpload an =>
      rcases an with e | ss
      · cases hs
        exact hbackend e
      · obtain ⟨hid, hsize⟩ : ss.id = backend.sessionId
            ∧ ss.acceptedOffset ≤ intent.snapshot.size := by simpa [answers] using ha
        have hvalid : ¬ ss.acceptedOffset > held.intent.snapshot.size := by
          rw [hholds.1.durable.2]
          exact Nat.not_lt.mpr hsize
        simp only [step, validateFor, if_neg hvalid] at hs
        cases hs
        exact hid
    | _ => simp [step] at hs
  | reading held ss =>
    cases ev with
    | readSnapshot an =>
      rcases an with k | b
      · simp [answers, hphase] at ha
      · have hlen : b.length = nextLength (s.runners i).chunkSize held ss := by
          simpa [answers, hphase] using ha
        simp only [step, afterRead, hlen, ne_eq, not_true_eq_false, if_false] at hs
        cases hs
        trivial
    | _ => simp [step] at hs
  | uploadingChunk held ss c =>
    have hid := session_id_of_held hsm hholds.1 hholds.2.1.session_eq
    cases ev with
    | uploadChunk an =>
      rcases an with e | ack
      · simp only [step] at hs
        split_ifs at hs
        · cases hs
          trivial
        · cases hs
          exact hbackend e
      · obtain rfl : ack = ⟨c.sessionId, c.endExclusive⟩ := by
          simpa [answers, hphase] using ha
        cases hs
        exact expected_afterAck (hholds.2.2.sessionId.trans hid)
    | _ => simp [step] at hs
  | reconcilingChunk held ss c =>
    have hid := session_id_of_held hsm hholds.1 hholds.2.1.session_eq
    cases ev with
    | reconcileUploadChunk an =>
      rcases an with e | ack
      · cases hs
        exact hbackend e
      · obtain rfl : ack = ⟨c.sessionId, c.endExclusive⟩ := by
          simpa [answers, hphase] using ha
        cases hs
        exact expected_afterAck (hholds.2.2.sessionId.trans hid)
    | _ => simp [step] at hs
  | committing held ss =>
    cases ev with
    | commitUpload an =>
      rcases an with e | o
      · cases hs
        exact hbackend e
      · cases hs
        have hout : o = if s.committed then .alreadyCommitted (some backend.item)
            else .committed (some backend.item) := by simpa [answers] using ha
        rw [hout]
        split_ifs
        · exact backend.item_valid
        · exact backend.item_valid
    | _ => simp [step] at hs
  | reconciling held =>
    cases ev with
    | reconcileUpload an =>
      rcases an with e | o
      · cases hs
        exact hbackend e
      · cases hs
        have hout : o = .remoteOutcomeUnknown ∨ o = .committed backend.item
            ∨ o = .alreadyCommitted backend.item := by simpa [answers] using ha
        rcases hout with rfl | rfl | rfl
        · rfl
        · exact backend.item_valid
        · exact backend.item_valid
    | _ => simp [step] at hs
  | observing held status about =>
    cases ev with
    | store f ef =>
      obtain rfl : f = .none := by simpa [answers] using ha
      obtain ⟨current, hc, -⟩ := UploadPhase.Held.stored hholds
      have hrec : s.record = some current := hc
      simp only [step, StoreFault.call, loadContentUpload, hrec] at hs
      cases hs
      rw [hrec] at he
      exact expected_observe he
    | _ => simp [step] at hs
  | finished r => cases ev <;> simp [step] at hs

end

/-! ## Every run -/

structure Converging (backend : IdempotentBackend intent) (s : UploadSystem ι) : Prop where
  safe : s.RunnersSafe intent
  session : backend.SameSession s.record
  expected : ∀ i, backend.Expected s.record (s.runners i).phase

/-- Any active generations; any record the operation can have, in the backend's session; any
invocations that submit the intent, or resume the record that is there. -/
structure Initial (backend : IdempotentBackend intent) (s : UploadSystem ι) : Prop where
  initial : s.Initial intent
  session : backend.SameSession s.record
  submitting : ∀ i submitted, (s.runners i).phase = .submitting submitted → submitted = intent
  loading : ∀ i, (s.runners i).phase = .loading → s.record.isSome = true

lemma converging_of_initial {s : UploadSystem ι} (h : backend.Initial s) : backend.Converging s := by
  refine ⟨safe_of_initial h.initial, h.session, fun i => ?_⟩
  rcases (h.initial.runners i).1 with ⟨sb, hp, -⟩ | hp
  · rw [hp]
    exact h.submitting i sb hp
  · rw [hp]
    exact h.loading i hp

lemma Converging.not_failed {s : UploadSystem ι} (h : backend.Converging s) : ¬ Failed s := by
  rintro ⟨i, er, hp, ho⟩
  have hexp := h.expected i
  rw [hp] at hexp
  obtain ⟨e, he⟩ := hexp er rfl
  exact ho e he

section

variable [DecidableEq ι] {s s' : UploadSystem ι} {a : UploadAction ι}

/-- **A step that meets the condition** keeps the invariant. -/
theorem converging_step (h : backend.Converging s) (hm : Meets s a)
    (hs : backend.Step s a s') : backend.Converging s' := by
  obtain ⟨ha, hs⟩ := hs
  have hspec := safe_step h.safe hs
  cases a with
  | setActive sc g =>
    obtain rfl := some.inj hs
    exact ⟨hspec.safe, h.session, h.expected⟩
  | runner i event =>
    obtain ⟨next, record, hn, rfl⟩ := next_runner hs
    have hwrit := (step_cases hn).1
    have hexp := (expected_step h.safe h.session (h.expected i) ha hn).1 hm
    refine ⟨hspec.safe, h.session.written h.safe.durable hwrit (h.expected i), fun j => ?_⟩
    by_cases hij : j = i
    · subst hij
      simpa using hexp
    · simpa [hij] using (h.expected j).mono (h.safe.holds j) hspec.later

/-- **A step that does not meet the condition** ends an invocation with a store error. -/
theorem failed_step (h : backend.Converging s) (hm : ¬ Meets s a) (hs : backend.Step s a s') : Failed s' := by
  obtain ⟨ha, hs⟩ := hs
  cases a with
  | setActive sc g => exact absurd trivial hm
  | runner i event =>
    obtain ⟨next, record, hn, rfl⟩ := next_runner hs
    have hfail := (expected_step h.safe h.session (h.expected i) ha hn).2 hm
    exact ⟨i, .store .invalidTransition, by simpa using hfail, by simp⟩

lemma Failed.step (h : Failed s) (hs : backend.Step s a s') : Failed s' := by
  obtain ⟨i, e, hp, ho⟩ := h
  refine ⟨i, e, ?_, ho⟩
  cases a with
  | setActive sc g =>
    obtain rfl := some.inj hs.2
    exact hp
  | runner j event =>
    obtain ⟨next, record, hn, rfl⟩ := next_runner hs.2
    by_cases hij : i = j
    · subst hij
      rw [hp] at hn
      cases event <;> simp [step] at hn
    · simpa [hij] using hp

/-- An invocation that has not finished can take its next step, and the backend need not fail. -/
lemma exists_step {i : ι} (hu : ∀ r, (s.runners i).phase ≠ .finished r) :
    ∃ event s', backend.Step s (.runner i event) s' := by
  have hstep : ∀ event, backend.answers s (.runner i event) = true →
      ((s.runners i).phase.step (s.runners i).chunkSize (s.runners i).generation s.active s.record
        event).isSome = true → ∃ event s', backend.Step s (.runner i event) s' := by
    intro event ha hs
    obtain ⟨⟨ph, record⟩, hn⟩ := isSome_iff_exists.mp hs
    refine ⟨event, { s with
      record := record
      committed := s.committed || isCommitted event
      runners := Function.update s.runners i ((s.runners i).after event ph) }, ha, ?_⟩
    simp [UploadSystem.Step, next, hn]
  cases hphase : (s.runners i).phase with
  | starting held =>
    refine hstep (.startUpload (.ok ⟨backend.sessionId, 0⟩)) (by simp [answers]) ?_
    rw [hphase]
    simp only [step]
    split <;> rfl
  | reading held ss =>
    refine hstep (.readSnapshot (.ok (List.replicate (nextLength (s.runners i).chunkSize held ss) 0))) ?_ ?_
    · simp [answers, hphase]
    · rw [hphase]
      rfl
  | uploadingChunk held ss c =>
    refine hstep (.uploadChunk (.ok ⟨c.sessionId, c.endExclusive⟩)) ?_ ?_
    · simp [answers, hphase]
    · rw [hphase]
      rfl
  | reconcilingChunk held ss c =>
    refine hstep (.reconcileUploadChunk (.ok ⟨c.sessionId, c.endExclusive⟩)) ?_ ?_
    · simp [answers, hphase]
    · rw [hphase]
      rfl
  | committing held ss =>
    refine hstep (.commitUpload (.ok (if s.committed then .alreadyCommitted backend.item
      else .committed backend.item))) (by simp [answers]) ?_
    rw [hphase]
    rfl
  | reconciling held =>
    refine hstep (.reconcileUpload (.ok (.alreadyCommitted backend.item))) (by simp [answers]) ?_
    rw [hphase]
    rfl
  | finished r => exact absurd hphase (hu r)
  | transitioning held t about =>
    refine hstep (.store .none .applied) rfl ?_
    rw [hphase]
    simp only [step]
    split
    · rfl
    · split <;> rfl
  | submitting | loading | observing =>
    refine hstep (.store .none .applied) rfl ?_
    rw [hphase]
    simp only [step]
    split <;> rfl

end

/-- An outcome that says that the commit has taken effect, in one of its two spellings. -/
def CommittedAs (item : Option CloudItem) (outcome : MutationRemoteOutcome) : Prop :=
  outcome = .committed item ∨ outcome = .alreadyCommitted item

lemma recordRemoteOutcome_again {r : ContentUploadRecord} (h : r.Coherent)
    {it : Option CloudItem} {d o : MutationRemoteOutcome}
    (hd : r.remoteOutcome = some d) (hc : CommittedAs it d) (ha : CommittedAs it o) :
    r.recordRemoteOutcome o = (.ok .alreadyApplied, r) ↔ o = d := by
  have hknown : d ≠ .remoteOutcomeUnknown := by
    rcases hc with rfl | rfl <;> simp
  have hs : (r.state = .remoteOutcomeKnown ∨ r.state = .metadataReconciled
      ∨ r.state = .completed) ∧ r.HasKnownOutcome := by
    unfold ContentUploadRecord.Coherent at h
    cases hs : r.state with
    | remoteOutcomeKnown | metadataReconciled | completed =>
      rw [hs] at h
      exact ⟨by simp, h.2⟩
    | remoteOutcomeUnknown =>
      rw [hs] at h
      exact absurd (some.inj (hd.symm.trans h.2)) hknown
    | _ =>
      rw [hs] at h
      simp [hd] at h
  obtain ⟨hs, st, hst, -, hv⟩ := hs
  obtain rfl : d = st := some.inj (hd.symm.trans hst)
  have hv : validateUploadOutcome r.intent o = .ok () := by
    rcases hc with rfl | rfl <;> rcases ha with rfl | rfl <;> exact hv
  have he := recordRemoteOutcome_error_iff hv (by rcases hs with hs | hs | hs <;> simp [hs])
  constructor
  · intro han
    by_contra hother
    obtain ⟨e, he⟩ := he.mpr ⟨hs, fun hsm =>
      hother (some.inj (hd.symm.trans hsm)).symm⟩
    rw [han] at he
    simp at he
  · rintro rfl
    simp only [recordRemoteOutcome, hv, hd]
    rcases hs with hs | hs | hs <;> simp [hs]

/-- **When concurrent upload runners converge.**

* A committed outcome over a durable one with the same item is answered `AlreadyApplied`, with the
  record unchanged, exactly if it has the same spelling.
* Any number of runners over an idempotent backend run without a store or a contract error exactly
  if no step records another outcome than the known one, and none a checkpoint of the upload after
  the commit has begun, unless it is the durable one.
* Each of them takes a bounded number of steps, and one that has not finished can take the next. -/
theorem converges_iff (backend : IdempotentBackend intent) :
    (∀ record : ContentUploadRecord, record.IsReachable → ∀ item durable outcome,
        record.remoteOutcome = some durable → CommittedAs item durable → CommittedAs item outcome →
          (record.recordRemoteOutcome outcome = (.ok .alreadyApplied, record) ↔ outcome = durable))
      ∧ ∀ (ι : Type) [DecidableEq ι] (s₀ s : UploadSystem ι) labels, backend.Initial s₀ →
          Run backend.Step s₀ labels s →
          ((∀ i error, (s.runners i).phase = .finished (.error error) → ∃ e, error = .backend e)
              ↔ Run (Guarded Meets backend.Step) s₀ labels s)
            ∧ (∀ i, labels.countP (actionOf i) ≤ 6 * (intent.snapshot.size + 7) + 2)
            ∧ ∀ i, (∀ result, (s.runners i).phase ≠ .finished result) →
                ∃ event s', backend.Step s (.runner i event) s' := by
  refine ⟨fun record hr item durable outcome hd hc ha =>
    recordRemoteOutcome_again hr.coherent hd hc ha, ?_⟩
  intro ι _ s₀ s labels hi hrn
  have hplain : Run UploadSystem.Step s₀ labels s := hrn.mono fun _ _ _ hs => hs.2
  refine ⟨?_, fun i => count_actionOf_le hi.initial hplain i, fun i => exists_step⟩
  rw [← hrn.harmless_iff_guarded (I := backend.Converging) (H := Failed)
    (fun _ _ _ => converging_step) (fun _ _ _ => failed_step) (fun _ _ _ => Failed.step)
    (fun _ => Converging.not_failed) (converging_of_initial hi)]
  constructor
  · rintro hcl ⟨i, error, hp, ho⟩
    obtain ⟨e, he⟩ := hcl i error hp
    exact ho e he
  · intro hh i error hp
    by_contra ho
    exact hh ⟨i, error, hp, fun e he => ho ⟨e, he⟩⟩

/-! ## Two uploads -/

def emptyFile : ContentUploadIntent := sampleUpload 0 (Nat.zero_le _)

/-- What the backend has after its commit. -/
def emptyItem : CloudItem where
  key := emptyFile.baseCacheKey.itemKey
  parentId := some ⟨"folder", by decide⟩
  name := "file"
  kind := .file
  metadataRevision := ⟨[2], by decide⟩
  content := some ⟨⟨[2], by decide⟩, none, 0, Nat.zero_le _⟩
  name_nonempty := by decide
  parent_ne := by decide
  shape := by decide

def emptyBackend : IdempotentBackend emptyFile where
  sessionId := sampleSessionId
  item := emptyItem
  item_valid := by decide

def twoUploads : UploadSystem Bool where
  active := fun _ => some firstGeneration
  record := none
  committed := false
  runners := fun _ =>
    ⟨1, Nat.one_pos, firstGeneration, .submitting emptyFile, none, []⟩

lemma initial_twoUploads : emptyBackend.Initial twoUploads := by
  refine ⟨⟨?_, ?_⟩, ?_, ?_, ?_⟩
  · simp [twoUploads]
  · exact fun i => ⟨.inl ⟨emptyFile, rfl, fun _ => rfl⟩, rfl, rfl⟩
  · simp [SameSession, twoUploads]
  · exact fun i sb hp => (submitting.inj hp).symm
  · simp [twoUploads]

/-- One step of the setting, as a function. -/
def nextAnswered {ι : Type} [DecidableEq ι] {intent : ContentUploadIntent}
    (backend : IdempotentBackend intent) (s : UploadSystem ι) (a : UploadAction ι) :
    Option (UploadSystem ι) :=
  if backend.answers s a = true then s.next a else none

lemma run_of_executeAnswered {ι : Type} [DecidableEq ι] {it : ContentUploadIntent}
    {b : IdempotentBackend it} {s s' : UploadSystem ι} {l : List (UploadAction ι)}
    (h : execute b.nextAnswered s l = some s') : Run b.Step s l s' := by
  refine (run_of_execute h).mono fun s a s' hs => ?_
  obtain ⟨ha, hn⟩ := ite_none_right_eq_some.mp hs
  exact ⟨ha, hn⟩

/-- The first invocation goes as far as the commit, and the second one loads the record there. -/
def towardsCommit : List (UploadAction Bool) :=
  [.runner false (.store .none .applied), .runner true (.store .none .applied),
    .runner false (.store .none .applied), .runner false (.startUpload (.ok ⟨sampleSessionId, 0⟩)),
    .runner false (.store .none .applied), .runner false (.store .none .applied),
    .runner false (.store .none .applied), .runner false (.store .none .applied),
    .runner false (.store .none .applied), .runner false (.store .none .applied)]

/-- The first invocation drives the record to completion before the second one loads it. -/
def oneAfterTheOther : List (UploadAction Bool) :=
  towardsCommit ++ [UploadAction.runner false (.commitUpload (.ok (.committed emptyItem)))]
    ++ List.replicate 9 (UploadAction.runner false (.store .none .applied))
    ++ [UploadAction.runner true (.store .none .applied)]

/-- One after the other they complete, and every step has met the condition. -/
theorem converges_iff_oneAfterTheOther :
    ∃ s, Run (Guarded Meets emptyBackend.Step) twoUploads oneAfterTheOther s
      ∧ ∀ i, (s.runners i).phase = .finished (.ok .completed) := by
  have hdone : ((execute emptyBackend.nextAnswered twoUploads oneAfterTheOther).map fun s =>
        ((s.runners false).phase, (s.runners true).phase))
      = some (.finished (.ok .completed), .finished (.ok .completed)) := by decide
  obtain ⟨s, hs, he⟩ := map_eq_some_iff.mp hdone
  obtain ⟨hf, ht⟩ := Prod.mk.inj he
  have hphases : ∀ i, (s.runners i).phase = .finished (.ok .completed) := by
    intro i
    cases i with
    | false => exact hf
    | true => exact ht
  have hiff := (emptyBackend.converges_iff.2 Bool twoUploads s oneAfterTheOther initial_twoUploads
    (run_of_executeAnswered hs)).1
  exact ⟨s, hiff.mp fun i e hp => by simp [hphases i] at hp, hphases⟩

/-- Both invocations commit before either of them records what the backend has answered. -/
def bothCommit : List (UploadAction Bool) :=
  towardsCommit ++ [UploadAction.runner true (.store .none .applied),
    .runner false (.commitUpload (.ok (.committed emptyItem))),
    .runner true (.commitUpload (.ok (.alreadyCommitted emptyItem))),
    .runner false (.store .none .applied), .runner true (.store .none .applied)]

def committedRecord : ContentUploadRecord :=
  ⟨emptyFile, .remoteOutcomeKnown, some ⟨sampleSessionId, 0⟩, some (.committed emptyItem)⟩

/-- **The other spelling is refused**: `AlreadyCommitted` with the item that is durable as
`Committed` is an error, and the invocation it was answered to ends with a store error. -/
theorem otherSpelling_refused : committedRecord.IsReachable
    ∧ committedRecord.recordRemoteOutcome (.alreadyCommitted emptyItem)
      = (.error (.invalidContentUploadTransition
          "remote upload outcome must follow commit or reconcile an unknown outcome"),
        committedRecord)
    ∧ ∃ s, Run emptyBackend.Step twoUploads bothCommit s ∧ s.record = some committedRecord
      ∧ (s.runners true).phase = .finished (.error (.store .invalidTransition)) := by
  refine ⟨⟨[.recordSession ⟨sampleSessionId, 0⟩, .beginRemoteCommit,
    .recordRemoteOutcome (.committed emptyItem)], by decide⟩, by decide, ?_⟩
  have he : ((execute emptyBackend.nextAnswered twoUploads bothCommit).map fun s =>
        (s.record, (s.runners true).phase))
      = some (some committedRecord, .finished (.error (.store .invalidTransition))) := by decide
  obtain ⟨s, hs, he⟩ := map_eq_some_iff.mp he
  obtain ⟨hr, hp⟩ := Prod.mk.inj he
  exact ⟨s, run_of_executeAnswered hs, hr, hp⟩

end IdempotentBackend

end AsterForge.Core
