import AsterForge.Core.Upload

/-!
# Replays of upload transitions

A restarted runner calls the transitions of an upload record again without knowing which of them are
durable, so the record has to say.

* `ContentUploadRecord.Contains` — the effect of a transition is still there, or a later one of its kind
  is; **`later_applyAll`** — once there it stays.
* `ContentUploadRecord.replayAnswer` — the answer to a transition that was applied before: the state
  contains it, or a later checkpoint or outcome superseded it.
* **`upload_record_replay`** — the two together, for every sequence of transitions.
-/

namespace AsterForge.Core

open ContentUploadState Option

def ContentUploadState.rank : ContentUploadState → ℕ
  | .intentPersisted => 0
  | .uploading => 1
  | .remoteCommitting => 2
  | .remoteOutcomeUnknown => 3
  | .remoteOutcomeKnown => 4
  | .metadataReconciled => 5
  | .completed => 6

namespace ContentUploadRecord

def applyAll (record : ContentUploadRecord) (transitions : List UploadTransition) : ContentUploadRecord :=
  transitions.foldl (fun current t => (current.apply t).2) record

variable (r : ContentUploadRecord)

variable {record record' : ContentUploadRecord} {session : ContentUploadSession}
    {outcome : MutationRemoteOutcome} {t : UploadTransition}

/-- **A sequence of transitions leads to a later record**, and keeps it coherent. -/
theorem later_applyAll (h : record.Coherent) (tr : List UploadTransition) :
    record.Later (record.applyAll tr) ∧ (record.applyAll tr).Coherent := by
  induction tr generalizing record with
  | nil => exact ⟨.refl record, h⟩
  | cons t tr ih =>
    obtain ⟨hl, hc⟩ := later_apply h t
    obtain ⟨hl', hc'⟩ := ih hc
    exact ⟨hl.trans hl', hc'⟩

/-! ## What a later record keeps -/

lemma remaining_of_rank : r.state.rank ≤ 6 ∧ 7 - r.state.rank ≤ r.remaining
    ∧ (r.state.rank = 0 → r.remaining = r.intent.snapshot.size + 7)
    ∧ (1 ≤ r.state.rank → r.remaining ≤ r.intent.snapshot.size + 6)
    ∧ (2 ≤ r.state.rank → r.remaining = 7 - r.state.rank) := by
  cases hstate : r.state
  all_goals
    simp only [remaining, hstate, rank]
    refine ⟨by omega, by omega, fun h => ?_, fun h => ?_, fun h => ?_⟩
    all_goals first | trivial | omega

lemma Later.rank_le (h : record.Later record') : record.state.rank ≤ record'.state.rank := by
  have hle := h.remaining_le
  have hintent := h.intent_eq
  obtain ⟨hm, -, -, hs, hc⟩ := record.remaining_of_rank
  obtain ⟨-, hl', hz', -, -⟩ := record'.remaining_of_rank
  rw [hintent] at hz'
  by_contra hlt
  by_cases hstate : 2 ≤ record.state.rank
  · omega
  · omega

lemma Later.acceptedOffset_le (h : record.Later record') : record.acceptedOffset ≤ record'.acceptedOffset := by
  unfold acceptedOffset
  cases hsess : record.session with
  | none => exact Nat.zero_le _
  | some c =>
    obtain ⟨next, hn, -, hle⟩ := h.session c hsess
    rw [mem_def.mp hn]
    exact hle

lemma Later.session_id (h : record.Later record') (hs : record.session = some session) :
    ∃ s', record'.session = some s' ∧ s'.id = session.id := by
  obtain ⟨next, hn, hid, -⟩ := h.session session hs
  exact ⟨next, hn, hid⟩

lemma Coherent.acceptedOffset (h : record.Coherent) :
    record.acceptedOffset ≤ record.intent.snapshot.size ∧ (2 ≤ record.state.rank → record.FullyAccepted) := by
  have hfull : record.FullyAccepted → record.acceptedOffset ≤ record.intent.snapshot.size := by
    rintro ⟨session, hs, hsz⟩
    simp [ContentUploadRecord.acceptedOffset, hs, hsz]
  cases hstate : record.state with
  | intentPersisted =>
    rw [Coherent, hstate] at h
    simp [ContentUploadRecord.acceptedOffset, h.1, rank]
  | uploading =>
    rw [Coherent, hstate] at h
    obtain ⟨⟨session, hs, hle⟩, -⟩ := h
    simp [ContentUploadRecord.acceptedOffset, hs, hle, rank]
  | _ =>
    rw [Coherent, hstate] at h
    exact ⟨hfull h.1, fun _ => h.1⟩

lemma FullyAccepted.acceptedOffset_eq (h : record.FullyAccepted) :
    record.acceptedOffset = record.intent.snapshot.size := by
  obtain ⟨session, hs, hsz⟩ := h
  simp only [ContentUploadRecord.acceptedOffset, hs, hsz]

lemma Coherent.hasKnownOutcome (h : record.Coherent) (ho : record.remoteOutcome = some outcome)
    (hk : outcome ≠ .remoteOutcomeUnknown) : record.HasKnownOutcome := by
  cases hstate : record.state with
  | intentPersisted | uploading =>
    rw [Coherent, hstate, ho] at h
    cases h.2
  | remoteCommitting =>
    rw [Coherent, hstate, ho] at h
    cases h.2
  | remoteOutcomeUnknown =>
    rw [Coherent, hstate, ho] at h
    exact absurd (some.inj h.2) hk
  | _ =>
    rw [Coherent, hstate] at h
    exact h.2

lemma Later.knownOutcome (h : record.Later record')
    (hk : record.HasKnownOutcome) : record'.remoteOutcome = record.remoteOutcome := by
  rcases h with rfl | ⟨-, -, -, ho⟩
  · rfl
  · exact ho hk

/-! ## Failed transitions -/

/-- **A transition that fails leaves the record alone**, whatever the record. -/
theorem apply_of_error {e : CloudFilesCoreError} (he : (record.apply t).1 = .error e) :
    (record.apply t).2 = record := by
  cases t with
  | recordSession session =>
    simp only [apply, recordSession] at he ⊢
    cases hvalid : session.validateFor record.intent with
    | error e => rfl
    | ok _ =>
      simp only [hvalid] at he ⊢
      split_ifs at he ⊢
      · rfl
      cases hsess : record.session with
      | none => simp [hsess] at he
      | some c =>
        simp only [hsess] at he ⊢
        split_ifs at he ⊢
        rfl
  | beginRemoteCommit =>
    simp only [apply, beginRemoteCommit] at he ⊢
    cases hstate : record.state with
    | uploading =>
      simp only [hstate] at he ⊢
      split_ifs at he ⊢
      rfl
    | _ => rfl
  | recordRemoteOutcome outcome =>
    simp only [apply, recordRemoteOutcome] at he ⊢
    cases hvalid : validateUploadOutcome record.intent outcome with
    | error e => rfl
    | ok _ =>
      simp only [hvalid] at he ⊢
      split_ifs at he ⊢
      rfl
  | markMetadataReconciled =>
    simp only [apply, markMetadataReconciled] at he ⊢
    cases hstate : record.state with
    | remoteOutcomeKnown => simp [hstate] at he
    | _ => rfl
  | complete =>
    simp only [apply, complete] at he ⊢
    cases hstate : record.state with
    | metadataReconciled => simp [hstate] at he
    | _ => rfl

/-! ## Transitions that the record contains -/

def Contains (record : ContentUploadRecord) : UploadTransition → Prop
  | .recordSession session => ∃ current, record.session = some current ∧ current.id = session.id
      ∧ session.acceptedOffset ≤ current.acceptedOffset
  | .beginRemoteCommit => 2 ≤ record.state.rank
  | .recordRemoteOutcome outcome => 3 ≤ record.state.rank
      ∧ validateUploadOutcome record.intent outcome = .ok ()
      ∧ (outcome ≠ .remoteOutcomeUnknown → record.remoteOutcome = some outcome)
  | .markMetadataReconciled => 5 ≤ record.state.rank
  | .complete => 6 ≤ record.state.rank

lemma session_of_applied (ha : (record.recordSession session).1 = .ok .applied) :
    (record.recordSession session).2.session = some session := by
  simp only [recordSession] at ha ⊢
  cases hvalid : session.validateFor record.intent with
  | error e => simp [hvalid] at ha
  | ok _ =>
    simp only [hvalid] at ha ⊢
    split_ifs at ha ⊢
    · simp at ha
    cases hsess : record.session with
    | none => rfl
    | some c =>
      simp only [hsess] at ha ⊢
      split_ifs at ha ⊢
      · simp at ha
      · simp at ha
      · rfl

lemma outcome_of_applied (ha : (record.recordRemoteOutcome outcome).1 = .ok .applied) :
    validateUploadOutcome record.intent outcome = .ok () ∧
      (record.recordRemoteOutcome outcome).2 = { record with
        state := if outcome = .remoteOutcomeUnknown then .remoteOutcomeUnknown else .remoteOutcomeKnown
        remoteOutcome := some outcome } := by
  simp only [recordRemoteOutcome] at ha ⊢
  cases hvalid : validateUploadOutcome record.intent outcome with
  | error e => simp [hvalid] at ha
  | ok _ =>
    simp only [hvalid] at ha ⊢
    split at ha
    case isTrue => simp at ha
    case isFalse hfresh =>
        split at ha
        case isTrue => simp at ha
        case isFalse hstate => exact ⟨trivial, by rw [if_neg hfresh, if_neg hstate]⟩

lemma contains_of_applied (ha : (record.apply t).1 = .ok .applied) : (record.apply t).2.Contains t := by
  cases t with
  | recordSession session => exact ⟨session, session_of_applied ha, rfl, le_rfl⟩
  | beginRemoteCommit =>
    simp only [apply, beginRemoteCommit] at ha ⊢
    cases hstate : record.state with
    | uploading =>
      simp only [hstate] at ha ⊢
      split_ifs at ha ⊢
      exact Nat.le_refl 2
    | _ => simp [hstate] at ha
  | recordRemoteOutcome outcome =>
    obtain ⟨hv, haf⟩ := outcome_of_applied ha
    rw [apply, haf]
    refine ⟨?_, hv, fun _ => rfl⟩
    by_cases hunk : outcome = .remoteOutcomeUnknown
    · simp [hunk, rank]
    · simp [hunk, rank]
  | markMetadataReconciled =>
    simp only [apply, markMetadataReconciled] at ha ⊢
    cases hstate : record.state with
    | remoteOutcomeKnown => exact Nat.le_refl 5
    | _ => simp [hstate] at ha
  | complete =>
    simp only [apply, complete] at ha ⊢
    cases hstate : record.state with
    | metadataReconciled => exact Nat.le_refl 6
    | _ => simp [hstate] at ha

lemma Later.contains (h : record.Later record') (hch : record.Coherent) (hc : record.Contains t) :
    record'.Contains t := by
  have hrank := h.rank_le
  cases t with
  | recordSession session =>
    obtain ⟨c, hss, hid, hle⟩ := hc
    obtain ⟨next, hn, hid', hle'⟩ := h.session c hss
    exact ⟨next, hn, hid'.trans hid, hle.trans hle'⟩
  | recordRemoteOutcome outcome =>
    obtain ⟨hs, hv, ho⟩ := hc
    refine ⟨hs.trans hrank, h.intent_eq ▸ hv, fun hk => ?_⟩
    have hdur := hch.hasKnownOutcome (ho hk) hk
    exact (h.knownOutcome hdur).trans (ho hk)
  | beginRemoteCommit | markMetadataReconciled => exact Nat.le_trans hc hrank
  | complete => exact Nat.le_trans hc hrank

/-! ## Replays -/

/-- The answer to a transition that the record contains.  An older checkpoint is fenced while bytes are still
being sent and rejected after that, and an unknown outcome is rejected once another one has replaced it. -/
def replayAnswer (record : ContentUploadRecord) :
    UploadTransition → Except CloudFilesCoreError ContentUploadRecordTransition
  | .recordSession session =>
    if record.acceptedOffset ≤ session.acceptedOffset then .ok .alreadyApplied
    else if record.state = .uploading then .ok .fenced
    else .error (.invalidContentUploadTransition
      "upload session checkpoint must precede remote commit")
  | .recordRemoteOutcome .remoteOutcomeUnknown =>
    if record.state = .remoteOutcomeUnknown then .ok .alreadyApplied
    else .error (.invalidContentUploadTransition
      "remote upload outcome must follow commit or reconcile an unknown outcome")
  | _ => .ok .alreadyApplied

lemma Coherent.started (h : record.Coherent)
    (hss : record.session = some session) : record.state ≠ .intentPersisted := by
  intro hs
  rw [Coherent, hs, hss] at h
  cases h.1

lemma recordSession_contained (h : record.Coherent) (hc : record.Contains (.recordSession session)) :
    record.apply (.recordSession session) = (record.replayAnswer (.recordSession session), record) := by
  obtain ⟨c, hs, hid, hle⟩ := hc
  have hoff : record.acceptedOffset = c.acceptedOffset := by
    simp only [acceptedOffset, hs]
  have hvalid : session.validateFor record.intent = .ok () := by
    have hsize := h.acceptedOffset.1
    rw [ContentUploadSession.validateFor, if_neg (by omega)]
  have hsame : c = session ↔ c.acceptedOffset ≤ session.acceptedOffset := by
    constructor
    · rintro rfl
      exact le_rfl
    · intro hge
      cases c
      cases session
      simp only [ContentUploadSession.mk.injEq] at hid hle hge ⊢
      exact ⟨hid, Nat.le_antisymm hge hle⟩
  simp only [apply, recordSession, replayAnswer, hvalid, hs, hoff, some.injEq, hsame, hid,
    ne_eq, not_true_eq_false, if_false]
  by_cases hupl : record.state = .uploading
  · simp only [hupl, reduceCtorEq, not_false_eq_true, not_true_eq_false, and_false, if_false, if_true]
    split_ifs
    all_goals first | rfl | omega
  · simp only [h.started hs, hupl, not_false_eq_true, and_self, if_true, if_false]
    split_ifs
    · rfl
    · rfl

lemma Coherent.unknown_iff (h : record.Coherent) (hr : 3 ≤ record.state.rank) :
    record.remoteOutcome = some .remoteOutcomeUnknown ↔ record.state = .remoteOutcomeUnknown := by
  have hknown : record.HasKnownOutcome → record.remoteOutcome ≠ some .remoteOutcomeUnknown := by
    rintro ⟨outcome, ho, hne, -⟩ hu
    exact hne (some.inj (ho.symm.trans hu))
  cases hstate : record.state with
  | intentPersisted | uploading => simp [hstate, rank] at hr
  | remoteCommitting => simp [hstate, rank] at hr
  | remoteOutcomeUnknown =>
    rw [Coherent, hstate] at h
    simp [h.2]
  | _ =>
    rw [Coherent, hstate] at h
    simp [hknown h.2]

lemma durable_of_rank (hr : 3 ≤ record.state.rank) :
    record.state = .remoteOutcomeUnknown ∨ record.state = .remoteOutcomeKnown
      ∨ record.state = .metadataReconciled ∨ record.state = .completed := by
  cases hstate : record.state
  all_goals simp [hstate, rank] at hr ⊢

lemma recordRemoteOutcome_contained (h : record.Coherent) (hcn : record.Contains (.recordRemoteOutcome outcome)) :
    record.apply (.recordRemoteOutcome outcome) =
      (record.replayAnswer (.recordRemoteOutcome outcome), record) := by
  obtain ⟨hr, hv, ho⟩ := hcn
  have hdur := durable_of_rank hr
  simp only [apply, recordRemoteOutcome, hv]
  by_cases hunk : outcome = .remoteOutcomeUnknown
  · subst hunk
    have hiff := h.unknown_iff hr
    rw [replayAnswer]
    by_cases hstate : record.state = .remoteOutcomeUnknown
    · rw [if_pos ⟨hiff.mpr hstate, hdur⟩, if_pos hstate]
    · have hc : record.state ≠ .remoteCommitting := by
        intro hc
        simp [hc, rank] at hr
      rw [if_neg fun hb => hstate (hiff.mp hb.1), if_pos ⟨hc, hstate⟩, if_neg hstate]
  · rw [if_pos ⟨ho hunk, hdur⟩]
    cases outcome with
    | remoteOutcomeUnknown => exact absurd rfl hunk
    | _ => rfl

/-- **A contained transition changes nothing**, and is answered as a replay. -/
theorem apply_of_contains (h : record.Coherent)
    (hc : record.Contains t) : record.apply t = (record.replayAnswer t, record) := by
  cases t with
  | recordSession session => exact recordSession_contained h hc
  | recordRemoteOutcome outcome => exact recordRemoteOutcome_contained h hc
  | beginRemoteCommit =>
    simp only [Contains] at hc
    simp only [apply, beginRemoteCommit, replayAnswer]
    cases hstate : record.state with
    | intentPersisted | uploading => simp [hstate, rank] at hc
    | _ => rfl
  | markMetadataReconciled =>
    simp only [Contains] at hc
    simp only [apply, markMetadataReconciled, replayAnswer]
    cases hstate : record.state with
    | metadataReconciled => rfl
    | completed => rfl
    | _ => simp [hstate, rank] at hc
  | complete =>
    simp only [Contains] at hc
    simp only [apply, complete, replayAnswer]
    cases hstate : record.state with
    | completed => rfl
    | _ => simp [hstate, rank] at hc

lemma replayAnswer_of_applied (ha : (record.apply t).1 = .ok .applied) :
    (record.apply t).2.replayAnswer t = .ok .alreadyApplied := by
  cases t with
  | recordSession session =>
    have hsess := session_of_applied ha
    simp [apply, replayAnswer, acceptedOffset, hsess]
  | recordRemoteOutcome outcome =>
    obtain ⟨-, haf⟩ := outcome_of_applied ha
    cases outcome with
    | remoteOutcomeUnknown => simp [apply, haf, replayAnswer]
    | _ => rfl
  | _ => rfl

/-! ## Every sequence of transitions -/

/-- **An upload record over every sequence of transitions.**  Between any two records of a run, the accepted offset
does not decrease and stays within the snapshot, the session keeps its identity, a known outcome stays, and the
state does not regress; from the commit on every byte is accepted; a failed transition changes nothing.  A
transition that was applied changes nothing when it comes again, and is answered as already applied, unless the
record has gone on to a later checkpoint or from the unknown outcome to another. -/
theorem upload_record_replay (intent : ContentUploadIntent) (before after : List UploadTransition)
    (t : UploadTransition) :
    let record := (persist intent).applyAll before
    let record' := record.applyAll after
    (record.acceptedOffset ≤ record'.acceptedOffset ∧ record'.acceptedOffset ≤ intent.snapshot.size)
      ∧ (∀ session, record.session = some session →
          ∃ session', record'.session = some session' ∧ session'.id = session.id)
      ∧ (remoteCommitting.rank ≤ record.state.rank → record.acceptedOffset = intent.snapshot.size)
      ∧ (∀ outcome, record.remoteOutcome = some outcome → outcome ≠ .remoteOutcomeUnknown →
          record'.remoteOutcome = some outcome)
      ∧ record.state.rank ≤ record'.state.rank
      ∧ (∀ error, (record.apply t).1 = .error error → (record.apply t).2 = record)
      ∧ ((record.apply t).1 = .ok .applied →
          (record.apply t).2.apply t = (.ok .alreadyApplied, (record.apply t).2)
          ∧ ((record.apply t).2.applyAll after).apply t =
            (((record.apply t).2.applyAll after).replayAnswer t, (record.apply t).2.applyAll after)) := by
  intro record record'
  obtain ⟨hrc, hc⟩ := later_applyAll (coherent_persist intent) before
  obtain ⟨hl, hc'⟩ := later_applyAll hc after
  have hintent : record.intent = intent := hrc.intent_eq
  have hintent' : record'.intent = intent := hl.intent_eq.trans hintent
  refine ⟨⟨hl.acceptedOffset_le, hintent' ▸ hc'.acceptedOffset.1⟩, fun _ => hl.session_id,
    fun hr => hintent ▸ (hc.acceptedOffset.2 hr).acceptedOffset_eq, fun outcome ho hne => ?_,
    hl.rank_le, fun _ => apply_of_error, fun ha => ?_⟩
  · exact (hl.knownOutcome (hc.hasKnownOutcome ho hne)).trans ho
  · obtain ⟨-, hn⟩ := later_apply hc t
    obtain ⟨hls, hlc⟩ := later_applyAll hn after
    have hcont := contains_of_applied ha
    refine ⟨?_, apply_of_contains hlc (hls.contains hn hcont)⟩
    rw [← replayAnswer_of_applied ha]
    exact apply_of_contains hn hcont

/-- A checkpoint at two bytes, then one at four: when the first comes again it is fenced. -/
theorem upload_record_replay_counterexample :
    ¬∀ (intent : ContentUploadIntent) (before after : List UploadTransition) (t : UploadTransition),
      (((persist intent).applyAll before).apply t).1 = .ok .applied →
        ((((persist intent).applyAll before).apply t).2.applyAll after).apply t =
          (.ok .alreadyApplied, (((persist intent).applyAll before).apply t).2.applyAll after) := by
  intro hc
  have hreplay := hc (sampleUpload 8 (by decide)) [] [.recordSession ⟨sampleSessionId, 4⟩]
    (.recordSession ⟨sampleSessionId, 2⟩) (by decide)
  revert hreplay
  decide

end ContentUploadRecord

end AsterForge.Core
