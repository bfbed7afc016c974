import AsterForge.Core.UploadSafety
import AsterForge.Library.Intervals

/-!
# The chunks of one invocation

One upload runner at a time: what it sends from the accepted offset on tiles the rest of the
snapshot, whatever the source and the backend answer and wherever the store fails.

* `UploadInvocation.Planned` — the invariant: an invocation holds the durable record up to its next
  store call, and its chunks reach from the offset it resumed at to the one it is about to record.
* **`UploadInvocation.planned_step`** — one step of the loop keeps it.
* **`UploadSystem.chunkPlan`** — the plan, for every run.
-/

namespace AsterForge.Core

open Library ContentUploadRecord UploadPhase False ContentUploadChunk Option

/-! ## Where a transition leads -/

def UploadTransition.target (held : ContentUploadRecord) : UploadTransition → ℕ
  | .recordSession session => session.acceptedOffset
  | _ => held.acceptedOffset

variable {record : ContentUploadRecord}

lemma ContentUploadRecord.acceptedOffset_apply (h : record.Coherent) (t : UploadTransition) :
    (record.apply t).2 = record ∨ (record.apply t).2.acceptedOffset = t.target record := by
  cases t with
  | recordSession session =>
    rcases recordSession_cases h session with hk | ⟨hn, -⟩
    · exact .inl hk
    · simp only [apply, hn]
      exact .inr rfl
  | recordRemoteOutcome o =>
    rcases recordRemoteOutcome_cases record o with hk | ⟨hn, -⟩
    · exact .inl hk
    · simp only [apply, hn]
      exact .inr rfl
  | beginRemoteCommit =>
    simp only [apply, beginRemoteCommit]
    cases record.state with
    | uploading =>
      split_ifs
      · exact .inr rfl
      · exact .inl rfl
    | _ => exact .inl rfl
  | markMetadataReconciled =>
    simp only [apply, markMetadataReconciled]
    cases record.state with
    | remoteOutcomeKnown => exact .inr rfl
    | _ => exact .inl rfl
  | complete =>
    simp only [apply, complete]
    cases record.state with
    | metadataReconciled => exact .inr rfl
    | _ => exact .inl rfl

lemma ContentUploadRecord.acceptedOffset_le (h : record.Coherent) :
    record.acceptedOffset ≤ record.intent.snapshot.size := by
  have hs : ∀ session, record.session = some session → session.acceptedOffset ≤ record.intent.snapshot.size →
      record.acceptedOffset ≤ record.intent.snapshot.size := by
    intro session hs hle
    rwa [acceptedOffset, hs]
  unfold Coherent at h
  cases hstate : record.state with
  | intentPersisted =>
    rw [hstate] at h
    rw [acceptedOffset, h.1]
    exact Nat.zero_le _
  | uploading =>
    rw [hstate] at h
    obtain ⟨⟨session, hsm, hle⟩, -⟩ := h
    exact hs session hsm hle
  | _ =>
    rw [hstate] at h
    obtain ⟨⟨session, hsm, hf⟩, -⟩ := h
    exact hs session hsm (Nat.le_of_eq hf)

/-! ## The invariant -/

/-- Chunks tile what lies between two offsets. -/
abbrev ContentUploadChunk.Plan (chunks : List ContentUploadChunk) (start stop : ℕ) : Prop :=
  Tiles ContentUploadChunk.offset ContentUploadChunk.endExclusive chunks start stop

namespace UploadPhase

/-- The copy of the record that an invocation acts on before its next load. -/
def heldRecord : UploadPhase → Option ContentUploadRecord
  | .starting held | .reading held _ | .uploadingChunk held _ _ | .reconcilingChunk held _ _
  | .committing held _ | .reconciling held | .transitioning held _ _ => some held
  | _ => none

def AtUpload : UploadPhase → Prop
  | .reading .. | .uploadingChunk .. | .reconcilingChunk ..
  | .transitioning _ .beginRemoteCommit _ => True
  | _ => False

end UploadPhase

namespace UploadInvocation

variable {i : ContentUploadIntent} {rc r' : Option ContentUploadRecord} {iv : UploadInvocation}

def SentTo (resumedAt : Option ℕ) (submitted : List ContentUploadChunk) (stop : ℕ) : Prop :=
  match resumedAt with
  | none => submitted = []
  | some start => ContentUploadChunk.Plan submitted start stop

def SentWithin (intent : ContentUploadIntent) (resumedAt : Option ℕ)
    (submitted : List ContentUploadChunk) : Prop :=
  ∃ stop ≤ intent.snapshot.size, SentTo resumedAt submitted stop

def storedOffset (record : Option ContentUploadRecord) : ℕ :=
  record.elim 0 ContentUploadRecord.acceptedOffset

/-- How far the chunks of an invocation reach: to the offset in the store, or to the one that the
invocation is about to record there. -/
def Covered (intent : ContentUploadIntent) (record : Option ContentUploadRecord)
    (phase : UploadPhase) (resumedAt : Option ℕ) (submitted : List ContentUploadChunk) : Prop :=
  match phase with
  | .finished _ => SentWithin intent resumedAt submitted
  | .observing held _ _ => record = some held ∧ SentWithin intent resumedAt submitted
      ∨ SentTo resumedAt submitted (storedOffset record)
  | .reconcilingChunk _ _ chunk => SentTo resumedAt submitted chunk.endExclusive
  | .transitioning held t _ => SentTo resumedAt submitted (t.target held)
  | _ => SentTo resumedAt submitted (storedOffset record)

/-- **The invariant of the only invocation.** -/
structure Planned (intent : ContentUploadIntent) (record : Option ContentUploadRecord)
    (invocation : UploadInvocation) : Prop where
  current : ∀ held ∈ invocation.phase.heldRecord, record = some held
  resumed : invocation.phase.AtUpload → invocation.resumedAt.isSome = true
  started : invocation.resumedAt.isSome = true → ∃ current ∈ record, current.state ≠ .intentPersisted
  covered : Covered intent record invocation.phase invocation.resumedAt invocation.submitted

variable {ra : Option ℕ} {sb : List ContentUploadChunk} {he : ContentUploadRecord}
  {next : UploadPhase} {sp : ℕ} {t : UploadTransition} {a : UploadObservation}
  {ss : ContentUploadSession} {ch : ContentUploadChunk} {e : UploadEvent}

lemma SentTo.of_none (h : SentTo ra sb sp) (hn : ra = none) (s' : ℕ) : SentTo ra sb s' := by
  subst hn
  exact h

lemma storedOffset_le (hd : ∀ c ∈ rc, UploadPhase.Durable i c) : storedOffset rc ≤ i.snapshot.size := by
  cases rc with
  | none => exact Nat.zero_le _
  | some c =>
    obtain ⟨hc, hi⟩ := hd c rfl
    have hle := acceptedOffset_le hc
    rwa [hi] at hle

lemma target_le (hd : UploadPhase.Durable i he) (hf : UploadPhase.Fits he t a) :
    t.target he ≤ i.snapshot.size := by
  obtain ⟨hc, rfl⟩ := hd
  cases t with
  | recordSession ss =>
    cases a with
    | plain => exact hf.1
    | _ => exact hf.elim
  | _ => exact acceptedOffset_le hc

lemma Planned.within (h : iv.Planned i rc) (hd : ∀ c ∈ rc, UploadPhase.Durable i c)
    (hh : iv.phase.Holds i rc) : SentWithin i iv.resumedAt iv.submitted := by
  have hstor : SentTo iv.resumedAt iv.submitted (storedOffset rc) → SentWithin i iv.resumedAt iv.submitted :=
    fun hs => ⟨_, storedOffset_le hd, hs⟩
  have hcov := h.covered
  cases hphase : iv.phase with
  | finished r =>
    rw [hphase] at hcov
    exact hcov
  | observing he st a =>
    rw [hphase] at hcov
    exact hcov.elim And.right hstor
  | reconcilingChunk he ss ch =>
    rw [hphase] at hcov hh
    obtain ⟨hhl, -, hc⟩ := hh
    have hle := hc.le
    rw [hhl.durable.2] at hle
    exact ⟨_, hle, hcov⟩
  | transitioning he t a =>
    rw [hphase] at hcov hh
    exact ⟨_, target_le hh.1.durable hh.2, hcov⟩
  | _ =>
    rw [hphase] at hcov
    exact hstor hcov

lemma Planned.sent_chunk (h : iv.Planned i rc) (hp : iv.phase = .uploadingChunk he ss ch)
    (hh : iv.phase.Holds i rc) : SentTo iv.resumedAt (iv.submitted ++ [ch]) ch.endExclusive := by
  rw [hp] at hh
  obtain ⟨-, hch, hc⟩ := hh
  have hresu := h.resumed (by rw [hp]; trivial)
  have hrec := h.current he (by rw [hp]; rfl)
  have hcov : SentTo iv.resumedAt iv.submitted (storedOffset rc) := by
    have hcov := h.covered
    rwa [hp] at hcov
  obtain ⟨st, hs⟩ := isSome_iff_exists.mp hresu
  rw [hs] at hcov ⊢
  have hoff : storedOffset rc = ch.offset := by
    rw [hrec, hc.offset]
    simp [storedOffset, acceptedOffset, hch.session_eq]
  rw [hoff] at hcov
  exact hcov.snoc rfl (Nat.lt_add_of_pos_right hc.nonempty)

lemma Planned.within_after (h : iv.Planned i rc) (hd : ∀ c ∈ rc, UploadPhase.Durable i c)
    (hh : iv.phase.Holds i rc) (event : UploadEvent) : SentWithin i iv.resumedAt (iv.submittedAfter event) := by
  unfold submittedAfter
  split
  · next he ss ch answer hphase =>
      have hsent := h.sent_chunk hphase hh
      rw [hphase] at hh
      obtain ⟨hhl, -, hc⟩ := hh
      have hle := hc.le
      rw [hhl.durable.2] at hle
      exact ⟨_, hle, hsent⟩
  · exact h.within hd hh

lemma started_mono (hl : RecordLater ContentUploadRecord.Later rc r')
    (h : ∃ c ∈ rc, c.state ≠ .intentPersisted) : ∃ c ∈ r', c.state ≠ .intentPersisted := by
  obtain ⟨c, hc, hs⟩ := h
  obtain ⟨next, hn, hle⟩ := hl c hc
  refine ⟨next, hn, ?_⟩
  have hrem := hle.remaining_le
  rw [← remaining_lt_iff] at hs ⊢
  rw [hle.intent_eq]
  omega

/-- The offset an invocation resumed at only changes when it meets its first record to upload. -/
lemma resumedAtAfter_eq (h : next.AtUpload → iv.resumedAt.isSome = true) :
    iv.resumedAtAfter next = iv.resumedAt := by
  unfold resumedAtAfter
  cases hresu : iv.resumedAt with
  | some st => rfl
  | none =>
    rw [hresu] at h
    cases next with
    | reading he ss => exact absurd (h trivial) (by simp)
    | transitioning he t a =>
      cases t with
      | beginRemoteCommit => exact absurd (h trivial) (by simp)
      | _ => rfl
    | _ => rfl

variable (held : ContentUploadRecord)

lemma resumedAtAfter_reading (session : ContentUploadSession) :
    iv.resumedAtAfter (.reading held session) = some (iv.resumedAt.getD held.acceptedOffset) := by
  unfold resumedAtAfter
  cases iv.resumedAt <;> rfl

lemma resumedAtAfter_beginRemoteCommit (about : UploadObservation) :
    iv.resumedAtAfter (.transitioning held .beginRemoteCommit about)
      = some (iv.resumedAt.getD held.acceptedOffset) := by
  unfold resumedAtAfter
  cases iv.resumedAt <;> rfl

lemma submittedAfter_eq (h : ∀ he ss ch, iv.phase ≠ .uploadingChunk he ss ch)
    (event : UploadEvent) : iv.submittedAfter event = iv.submitted := by
  unfold submittedAfter
  split
  · next he ss ch _ hphase => exact absurd hphase (h he ss ch)
  · rfl

lemma submittedAfter_uploadChunk (h : iv.phase = .uploadingChunk he ss ch)
    (a : Except CloudBackendError ContentUploadChunkAck) :
    iv.submittedAfter (.uploadChunk a) = iv.submitted ++ [ch] := by
  simp only [submittedAfter, h]

lemma SentTo.resume (h : SentTo ra sb sp) : SentTo (some (ra.getD sp)) sb sp := by
  cases ra with
  | none =>
    obtain rfl : sb = [] := h
    exact Eq.refl sp
  | some st => exact h

lemma planned_after {sn : List ContentUploadChunk} (hr : next.AtUpload → iv.resumedAt.isSome = true)
    (hsn : iv.submittedAfter e = sn) (hc : ∀ he ∈ next.heldRecord, rc = some he)
    (hst : iv.resumedAt.isSome = true → ∃ c ∈ rc, c.state ≠ .intentPersisted)
    (hcv : Covered i rc next iv.resumedAt sn) : (iv.after e next).Planned i rc := by
  have hkept : (iv.after e next).resumedAt = iv.resumedAt :=
    resumedAtAfter_eq hr
  refine ⟨hc, fun hat => ?_, fun hs => ?_, ?_⟩
  · rw [hkept]
    exact hr hat
  · rw [hkept] at hs
    exact hst hs
  · rw [hkept, show (iv.after e next).submitted = sn from hsn]
    exact hcv

lemma planned_dispatch {l : ContentUploadRecord} (h : iv.Planned i (some l))
    (hp : iv.phase = .loading) (hd : UploadPhase.Durable i l) (event : UploadEvent) :
    (iv.after event (dispatch l)).Planned i (some l) := by
  have hsub : iv.submittedAfter event = iv.submitted :=
    submittedAfter_eq (by simp [hp]) event
  have hcov : SentTo iv.resumedAt iv.submitted l.acceptedOffset := by
    have hcov := h.covered
    rwa [hp] at hcov
  have hwithin : SentWithin i iv.resumedAt iv.submitted := by
    have hle : storedOffset (some l) ≤ i.snapshot.size :=
      storedOffset_le (by simpa using hd)
    exact ⟨_, hle, hcov⟩
  have hcurr : ∀ he ∈ some l, some l = some he := fun _ hm => hm
  have hcoh := hd.1
  unfold dispatch
  cases hstate : l.state with
  | intentPersisted => exact planned_after elim hsub hcurr h.started hcov
  | uploading =>
    rw [ContentUploadRecord.Coherent, hstate] at hcoh
    obtain ⟨⟨ss, hs, hle⟩, -⟩ := hcoh
    simp only [hs, ContentUploadSession.validateFor, if_neg (Nat.not_lt.mpr hle)]
    have hstart : ∃ c ∈ some l, c.state ≠ .intentPersisted :=
      ⟨l, rfl, by simp [hstate]⟩
    split_ifs with hlt
    · refine ⟨hcurr, fun _ => ?_, fun _ => hstart, ?_⟩
      · show (iv.resumedAtAfter _).isSome = true
        rw [resumedAtAfter_reading, isSome_some]
      · show SentTo (iv.resumedAtAfter _) (iv.submittedAfter event) _
        rw [resumedAtAfter_reading, hsub]
        exact hcov.resume
    · refine ⟨hcurr, fun _ => ?_, fun _ => hstart, ?_⟩
      · show (iv.resumedAtAfter _).isSome = true
        rw [resumedAtAfter_beginRemoteCommit, isSome_some]
      · show SentTo (iv.resumedAtAfter _) (iv.submittedAfter event) _
        rw [resumedAtAfter_beginRemoteCommit, hsub]
        exact hcov.resume
  | remoteCommitting =>
    rw [ContentUploadRecord.Coherent, hstate] at hcoh
    obtain ⟨⟨ss, hs, -⟩, -⟩ := hcoh
    simp only [hs]
    exact planned_after elim hsub hcurr h.started hcov
  | remoteOutcomeUnknown | remoteOutcomeKnown | metadataReconciled =>
    exact planned_after elim hsub hcurr h.started hcov
  | completed =>
    rw [ContentUploadRecord.Coherent, hstate] at hcoh
    obtain ⟨-, o, ho, -⟩ := hcoh
    simp only [ho]
    exact planned_after elim hsub (by simp [heldRecord]) h.started hwithin

lemma covered_transitioned {st : StoreWriteStatus} (hc : he.Coherent)
    (hwr : r' = some he ∨ r' = some (he.apply t).2) (hw : SentWithin i ra sb)
    (hcv : SentTo ra sb (t.target he)) : Covered i r' (.observing he st a) ra sb := by
  rcases hwr with hk | hn
  · exact .inl ⟨hk, hw⟩
  rcases acceptedOffset_apply hc t with hs | ht
  · exact .inl ⟨hn.trans (congrArg some hs), hw⟩
  · refine .inr ?_
    rwa [hn, storedOffset, elim_some, ht]

/-- **One step of the only invocation keeps the plan.** -/
theorem planned_step {active : ActiveGenerations} (h : iv.Planned i rc)
    (hd : ∀ current ∈ rc, UploadPhase.Durable i current) (hh : iv.phase.Holds i rc)
    (hst : iv.phase.step iv.chunkSize iv.generation active rc e = some (next, r')) :
    (iv.after e next).Planned i r' := by
  obtain ⟨hw, hm⟩ := step_cases hst
  have hspec := step_spec iv.chunkSize_pos hd hh hst
  have hstart := fun hs => started_mono hspec.advances.later (h.started hs)
  have hwithin := h.within hd hh
  have hafter := h.within_after hd hh e
  have hcov := h.covered
  have hcurr := h.current
  have hresu := h.resumed
  generalize hphase : iv.phase = phase at hw hm hcov hcurr hresu hh
  have hsent : (∀ he ss ch, phase ≠ .uploadingChunk he ss ch) →
      iv.submittedAfter e = iv.submitted := fun hne =>
    submittedAfter_eq (fun he ss ch => hphase ▸ hne he ss ch) e
  cases hm with
  | ended =>
    exact planned_after elim rfl (by simp [heldRecord]) hstart hafter
  | accepted sb =>
    refine planned_after elim (hsent (by simp)) (by simp [heldRecord]) hstart ?_
    rcases hw with rfl | ⟨rfl, -⟩
    · exact hcov
    · refine SentTo.of_none hcov ?_ _
      rw [← not_isSome_iff_eq_none]
      exact fun hs => absurd (h.started hs) (by simp)
  | @dispatched loaded _ hr =>
    obtain rfl : r' = rc := hw
    subst hr
    exact planned_dispatch h hphase (hd loaded rfl) e
  | @started he ss _ hss =>
    obtain rfl : r' = rc := hw
    refine planned_after elim (hsent (by simp)) hcurr hstart ?_
    refine SentTo.of_none hcov ?_ _
    rw [← not_isSome_iff_eq_none]
    intro hs
    obtain ⟨current, hsr, hstt⟩ := h.started hs
    obtain rfl : he = current :=
      some.inj ((hcurr he rfl).symm.trans hsr)
    exact hstt hh.2
  | @read he ss bytes _ hl =>
    obtain rfl : r' = rc := hw
    exact planned_after (fun _ => hresu trivial) (hsent (by simp)) hcurr hstart hcov
  | conflicted he ss ch =>
    obtain rfl : r' = rc := hw
    exact planned_after (fun _ => hresu trivial) (submittedAfter_uploadChunk hphase _) hcurr
      hstart (h.sent_chunk hphase (hphase ▸ hh))
  | acknowledged he ss ch =>
    obtain rfl : r' = rc := hw
    exact planned_after elim (submittedAfter_uploadChunk hphase _) hcurr hstart
      (h.sent_chunk hphase (hphase ▸ hh))
  | reconciledChunk he ss ch =>
    obtain rfl : r' = rc := hw
    exact planned_after elim (hsent (by simp)) hcurr hstart hcov
  | commitAnswered he ss outcome | reconcileAnswered he outcome =>
    obtain rfl : r' = rc := hw
    obtain rfl : r' = some he := hcurr he rfl
    exact planned_after elim (hsent (by simp)) hcurr hstart hcov
  | transitioned he t a status =>
    refine planned_after elim (hsent (by simp)) (by simp [heldRecord]) hstart ?_
    obtain rfl : rc = some he := hcurr he rfl
    refine covered_transitioned hh.1.durable.1 ?_ hwithin hcov
    rcases hw with hk | ⟨current, hr, hn⟩
    · exact .inl hk
    · obtain rfl : he = current := some.inj hr
      exact .inr hn
  | @observed he current status a _ hr hmv =>
    obtain rfl : r' = rc := hw
    refine planned_after elim (hsent (by simp)) (by simp [heldRecord]) hstart ?_
    refine hcov.resolve_left fun hsm => hmv ?_
    exact some.inj (hr.symm.trans hsm.1)

end UploadInvocation

/-! ## Every run -/

/-- A chunk that goes on from the session of a record is one the checked constructor accepts, and
one that is valid for the intent and the session. -/
lemma UploadPhase.Continues.valid {held : ContentUploadRecord} {session : ContentUploadSession}
    {chunk : ContentUploadChunk} (h : Continues held session chunk) :
    new chunk.sessionId chunk.localGeneration chunk.offset chunk.bytes chunk.totalSize = .ok chunk
      ∧ chunk.validateFor held.intent session = .ok () ∧ chunk.endExclusive ≤ u64Max := by
  have hsize := held.intent.snapshot.size_le
  have hle : chunk.offset + chunk.bytes.length ≤ held.intent.snapshot.size := h.byteLen ▸ h.le
  have hnonempty : chunk.bytes.length ≠ 0 := by
    have hpos := h.nonempty
    rw [h.byteLen] at hpos
    omega
  refine ⟨?_, ?_, Nat.le_trans h.le hsize⟩
  · have htotal : ¬ chunk.offset + chunk.bytes.length > chunk.totalSize := by
      rw [h.totalSize]
      omega
    rw [new, if_neg hnonempty, if_neg (by omega), if_neg htotal, ← h.byteLen]
    rfl
  · rw [validateFor, if_neg (not_not.mpr h.sessionId),
      if_neg (not_not.mpr h.localGeneration), if_neg (not_not.mpr h.totalSize), if_neg (not_not.mpr h.offset)]

namespace UploadSystem

variable {intent : ContentUploadIntent}

structure PlanSafe (intent : ContentUploadIntent) (s : UploadSystem Unit) : Prop where
  safe : s.RunnersSafe intent
  planned : (s.runners ()).Planned intent s.record

variable {s : UploadSystem Unit}

lemma planSafe_of_initial (h : s.Initial intent) : s.PlanSafe intent := by
  obtain ⟨hphase, hresu, hsub⟩ := h.runners ()
  refine ⟨safe_of_initial h, ?_, ?_, by simp [hresu], ?_⟩
  · rcases hphase with ⟨submitted, hphase, -⟩ | hphase <;> simp [hphase, heldRecord]
  · rcases hphase with ⟨submitted, hphase, -⟩ | hphase <;> simp [hphase, UploadPhase.AtUpload]
  · rw [hresu, hsub]
    rcases hphase with ⟨submitted, hphase, -⟩ | hphase
    · rw [hphase]
      rfl
    · rw [hphase]
      rfl

lemma planSafe_run {s' : UploadSystem Unit} {l : List (UploadAction Unit)}
    (h : s.PlanSafe intent) (hr : Run Step s l s') : s'.PlanSafe intent := by
  refine hr.invariant (I := PlanSafe intent) (fun s a s' hs hst => ?_) h
  refine ⟨(safe_step hs.safe hst).safe, ?_⟩
  cases a with
  | setActive sc g =>
    obtain rfl := some.inj hst
    exact hs.planned
  | runner i event =>
    obtain ⟨p, record, hn, rfl⟩ := next_runner hst
    simpa using UploadInvocation.planned_step hs.planned hs.safe.durable (hs.safe.holds ()) hn

/-- **The chunk plan of an upload invocation**, in every run of one invocation, whatever its chunk
size, the source, the backend and the faults of the store.

* What it has sent are non-empty chunks that follow each other without a gap from the offset it
  resumed at, within the snapshot.
* When it asks for the remote commit they reach the end: they cover exactly what lies between.
* A chunk is sent only while the durable record is uploading, from the accepted offset on; it is one
  that the checked constructor accepts and that is valid for intent and session, and its end is
  an offset.
* A commit is sent only while the durable record is `RemoteCommitting`.
* The invocation takes a bounded number of steps, and one that has not finished can take the next. -/
theorem chunkPlan {s₀ s : UploadSystem Unit} {labels : List (UploadAction Unit)}
    (hinit : s₀.Initial intent) (hrun : Run Step s₀ labels s) :
    ((s.runners ()).resumedAt = none → (s.runners ()).submitted = [])
      ∧ (∀ start, (s.runners ()).resumedAt = some start → ∃ stop ≤ intent.snapshot.size,
          ContentUploadChunk.Plan (s.runners ()).submitted start stop)
      ∧ (∀ held about, (s.runners ()).phase = .transitioning held .beginRemoteCommit about →
          ∃ start, (s.runners ()).resumedAt = some start
            ∧ ContentUploadChunk.Plan (s.runners ()).submitted start intent.snapshot.size
            ∧ ((s.runners ()).submitted.Pairwise fun chunk later =>
                chunk.endExclusive ≤ later.offset)
            ∧ ∀ position, (∃ chunk ∈ (s.runners ()).submitted,
                    chunk.offset ≤ position ∧ position < chunk.endExclusive)
                  ↔ start ≤ position ∧ position < intent.snapshot.size)
      ∧ (∀ event s', Step s (.runner () event) s' →
          ((∃ answer, event = .uploadChunk answer) ∨ ∃ answer, event = .reconcileUploadChunk answer) →
          ∃ held session chunk, ((s.runners ()).phase = .uploadingChunk held session chunk
              ∨ (s.runners ()).phase = .reconcilingChunk held session chunk)
            ∧ s.record = some held ∧ held.state = .uploading ∧ held.session = some session
            ∧ new chunk.sessionId chunk.localGeneration chunk.offset chunk.bytes chunk.totalSize = .ok chunk
            ∧ chunk.validateFor intent session = .ok ()
            ∧ chunk.endExclusive ≤ u64Max)
      ∧ (∀ answer s', Step s (.runner () (.commitUpload answer)) s' →
          ∃ held session, (s.runners ()).phase = .committing held session
            ∧ s.record = some held ∧ held.state = .remoteCommitting ∧ held.session = some session)
      ∧ labels.countP (actionOf ()) ≤ 6 * (intent.snapshot.size + 7) + 2
      ∧ ((∀ result, (s.runners ()).phase ≠ .finished result) → ∃ event s', Step s (.runner () event) s') := by
  obtain ⟨hsf, hpl⟩ := planSafe_run (planSafe_of_initial hinit) hrun
  have hholds := hsf.holds ()
  have hwithin := hpl.within hsf.durable hholds
  have hchunk : ∀ held session chunk, UploadPhase.Held intent s.record held →
      UploadPhase.AtChunk held session ∧ UploadPhase.Continues held session chunk →
      held.state = .uploading ∧ held.session = some session
        ∧ new chunk.sessionId chunk.localGeneration chunk.offset chunk.bytes chunk.totalSize = .ok chunk
        ∧ chunk.validateFor intent session = .ok () ∧ chunk.endExclusive ≤ u64Max := by
    rintro held session chunk hh ⟨hat, hc⟩
    have hvalid := hc.valid
    rw [hh.durable.2] at hvalid
    exact ⟨hat.state_eq, hat.session_eq, hvalid⟩
  refine ⟨?_, ?_, ?_, ?_, ?_, count_actionOf_le hinit hrun (), exists_step⟩
  · intro hnn
    obtain ⟨stop, -, hsn⟩ := hwithin
    rwa [hnn] at hsn
  · intro start hs
    obtain ⟨stop, hle, hsn⟩ := hwithin
    rw [hs] at hsn
    exact ⟨stop, hle, hsn⟩
  · intro held about hp
    have hresu := hpl.resumed (by rw [hp]; trivial)
    have hcov := hpl.covered
    rw [hp] at hcov hholds
    obtain ⟨start, hs⟩ := isSome_iff_exists.mp hresu
    obtain ⟨hh, hf⟩ := hholds
    have htgt : UploadTransition.beginRemoteCommit.target held = intent.snapshot.size := by
      cases about with
      | plain =>
        obtain ⟨-, session, hss, hfl⟩ := hf
        rw [hh.durable.2] at hfl
        simp only [UploadTransition.target, acceptedOffset, hss, hfl]
      | _ => exact hf.elim
    have hplan : ContentUploadChunk.Plan (s.runners ()).submitted start intent.snapshot.size := by
      have hcov : UploadInvocation.SentTo (s.runners ()).resumedAt (s.runners ()).submitted
          (UploadTransition.beginRemoteCommit.target held) := hcov
      rwa [hs, htgt] at hcov
    exact ⟨start, hs, hplan, hplan.pairwise, fun position => hplan.mem_iff⟩
  · rintro event s' hst (⟨answer, rfl⟩ | ⟨answer, rfl⟩)
    · obtain ⟨phase, record, hn, -⟩ := next_runner hst
      have hcurr := hpl.current
      cases hp : (s.runners ()).phase with
      | uploadingChunk held session chunk =>
        rw [hp] at hholds hcurr
        exact ⟨held, session, chunk, .inl rfl, hcurr held rfl, hchunk held session chunk hholds.1 hholds.2⟩
      | _ => simp [hp, step] at hn
    · obtain ⟨phase, record, hn, -⟩ := next_runner hst
      have hcurr := hpl.current
      cases hp : (s.runners ()).phase with
      | reconcilingChunk held session chunk =>
        rw [hp] at hholds hcurr
        exact ⟨held, session, chunk, .inr rfl, hcurr held rfl, hchunk held session chunk hholds.1 hholds.2⟩
      | _ => simp [hp, step] at hn
  · intro answer s' hst
    obtain ⟨phase, record, hn, -⟩ := next_runner hst
    have hcurr := hpl.current
    cases hp : (s.runners ()).phase with
    | committing held session =>
      rw [hp] at hholds hcurr
      exact ⟨held, session, rfl, hcurr held rfl, hholds.2⟩
    | _ => simp [hp, step] at hn

/-! ## A resumed upload -/

def fourBytes : ContentUploadIntent := sampleUpload 4 four_le_u64Max

/-- One invocation submits it, in chunks of two bytes. -/
def oneRunner : UploadSystem Unit where
  active := fun _ => some firstGeneration
  record := none
  committed := false
  runners := fun _ =>
    ⟨2, Nat.two_pos, firstGeneration, .submitting fourBytes, none, []⟩

/-- The backend has the first byte already, and the first of the two chunks meets a conflict. -/
def oneRunnerRun : List (UploadAction Unit) :=
  let session (offset : ℕ) : ContentUploadSession := ⟨sampleSessionId, offset⟩
  let ack (offset : ℕ) : ContentUploadChunkAck := ⟨sampleSessionId, offset⟩
  ([.store .none .applied, .store .none .applied, .startUpload (.ok (session 1)),
      .store .none .applied, .store .none .applied, .store .none .applied,
      .readSnapshot (.ok [20, 30]), .uploadChunk (.error (.new .conflict)),
      .reconcileUploadChunk (.ok (ack 3)),
      .store .none .applied, .store .none .applied, .store .none .applied,
      .readSnapshot (.ok [40]), .uploadChunk (.ok (ack 4)),
      .store .none .applied, .store .none .applied, .store .none .applied] : List UploadEvent).map
    (.runner ())

/-- The run exists, and its chunks cover the last three bytes when it asks for the commit. -/
theorem chunkPlan_oneRunner : ∃ s, execute next oneRunner oneRunnerRun = some s
    ∧ ∃ start, (s.runners ()).resumedAt = some start
      ∧ ContentUploadChunk.Plan (s.runners ()).submitted start fourBytes.snapshot.size
      ∧ (s.runners ()).submitted.map bytes = [[20, 30], [40]] := by
  have hinit : oneRunner.Initial fourBytes :=
    ⟨fun record hr => by simp [oneRunner] at hr, fun i => ⟨.inl ⟨fourBytes, rfl, fun _ => rfl⟩, rfl, rfl⟩⟩
  have hrun : ((execute next oneRunner oneRunnerRun).map fun s =>
        ((s.runners ()).phase, (s.runners ()).submitted.map bytes))
      = some (.transitioning ⟨fourBytes, .uploading, some ⟨sampleSessionId, 4⟩, none⟩
          .beginRemoteCommit .plain, [[20, 30], [40]]) := by decide
  obtain ⟨s, hs, he⟩ := map_eq_some_iff.mp hrun
  obtain ⟨hp, hb⟩ := Prod.mk.inj he
  obtain ⟨-, -, hc, -⟩ := chunkPlan hinit (run_of_execute hs)
  obtain ⟨start, hst, hpl, -⟩ := hc _ _ hp
  exact ⟨s, hs, start, hst, hpl, hb⟩

end UploadSystem

end AsterForge.Core
