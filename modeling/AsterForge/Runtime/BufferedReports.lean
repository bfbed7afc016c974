import AsterForge.Runtime.BufferedCustody

/-!
# What a buffered batch writer reports and is asked for

The failure that blocks a lane was put on the records at the front of that lane, and batches are asked for up
to a watermark: what had been admitted at some time.  Both stay true as the log grows.

* **`later_of_apply`**, **`Reported.apply`**, **`Asked.apply`** — what is done to the shared state keeps that.
-/

namespace AsterForge.Runtime

open Library AsterForge.Runtime.Core List Option

variable {T E : Type} {s : WriterSettings} {c d : Core T E}

/-- The log has grown, and a worker that has ended has not come back. -/
structure Later (c d : Core T E) : Prop where
  admitted : ∀ direct, (c.log.lane direct).admitted <+: (d.log.lane direct).admitted
  acked : ∀ direct, (c.log.lane direct).acked <+: (d.log.lane direct).acked
  reports : c.log.reports <+: d.log.reports
  invoked : c.log.invoked <+: d.log.invoked
  ended : ∀ error, c.worker = .ended error → d.worker = .ended error

/-- The failure of a lane was reported for the records at its front. -/
structure Reported (c : Core T E) : Prop where
  batch : ∀ failure, c.state.failure = some failure → 0 < c.state.failureRecords ∧
    c.state.failureRecords ≤ c.state.queue.length ∧
    (c.state.queue.take c.state.failureRecords, failure) ∈ c.log.reports
  direct : ∀ pending failure, c.state.direct = some pending → pending.failure = some failure →
    ([pending.item], failure) ∈ c.log.reports

/-- Batches are asked for up to what had been admitted when someone asked. -/
structure Asked (c : Core T E) : Prop where
  reached : c.state.flushThrough = 0 ∨ ∃ scope ∈ c.log.requests, scope.length = c.state.flushThrough
  scopes : ∀ scope ∈ c.log.requests, scope <+: (c.log.lane false).admitted

lemma endWrite_keeps (work : WriteWork T) (r : Except (WriteFailure E) Unit) (log : WriterLog T E) :
    (log.endWrite work r).reports = log.reports ∧ (log.endWrite work r).invoked = log.invoked ∧
      (log.endWrite work r).requests = log.requests := by
  rw [WriterLog.endWrite]
  split
  · exact ⟨rfl, rfl, rfl⟩
  · exact ⟨rfl, rfl, rfl⟩

lemma later_refl (c : Core T E) : Later c c :=
  ⟨fun _ => prefix_rfl, fun _ => prefix_rfl, prefix_rfl, prefix_rfl, fun _ h => h⟩

lemma later_of_eq (hl : ∀ dr, d.log.lane dr = c.log.lane dr)
    (hr : c.log.reports <+: d.log.reports) (hi : c.log.invoked <+: d.log.invoked)
    (he : ∀ e, c.worker = .ended e → d.worker = .ended e) : Later c d := by
  refine ⟨?_, ?_, hr, hi, he⟩
  · intro dr
    exact hl dr ▸ prefix_rfl
  · intro dr
    exact hl dr ▸ prefix_rfl

variable {w : WriteWork T}

lemma later_endWrite {r : Except (WriteFailure E) Unit} (hl : ∀ dr, d.log.lane dr =
      if dr = w.direct then (c.log.lane dr).attempt ⟨w.entries, r⟩ else c.log.lane dr)
    (hrp : c.log.reports <+: d.log.reports) (hi : d.log.invoked = c.log.invoked)
    (hr : c.worker.isEnded = false) : Later c d := by
  refine ⟨?_, ?_, hrp, hi ▸ prefix_rfl, ?_⟩
  · intro dr
    rw [hl]
    split
    · exact prefix_rfl
    · exact prefix_rfl
  · intro dr
    rw [hl]
    split
    · rw [CustodyLog.acked_attempt]
      exact prefix_append _ _
    · exact prefix_rfl
  · intro e he
    rw [he] at hr
    cases hr

lemma later_of_workerStep (h : Core.WorkerStep s c d) : Later c d := by
  have hrunn := h.present.2
  have he : ∀ e, c.worker = .ended e → d.worker = .ended e := by
    intro e he
    rw [he] at hrunn
    cases hrunn
  cases h with
  | between hf hto hne | selected hf hsel =>
    exact later_of_eq (fun _ => rfl) prefix_rfl prefix_rfl he
  | invoked hf =>
    refine later_of_eq ?_ prefix_rfl (prefix_append _ _) he
    intro dr
    cases dr <;> rfl
  | skipped hf | answered hf =>
    exact later_of_eq (fun _ => rfl) prefix_rfl prefix_rfl he
  | @completed w r hf =>
    refine later_endWrite (fun dr => (lane_report _ _ dr).trans (lane_endWrite w r c.log dr))
      ?_ (endWrite_keeps w r c.log).2.1 hrunn
    show c.log.reports <+: (c.log.endWrite w r).reports ++ _
    rw [(endWrite_keeps w r c.log).1]
    exact prefix_append _ _
  | failed hf | finished hf =>
    exact later_of_eq (fun dr => lane_report _ _ dr) (prefix_append _ _) prefix_rfl he
  | @died w e hf =>
    obtain ⟨hr, hi, _⟩ := endWrite_keeps w (.error (.interrupted .cancelled)) c.log
    exact later_endWrite (lane_endWrite w _ c.log) (hr ▸ prefix_rfl) hi hrunn

variable {op : CoreOp T E}

/-- **The log only grows.** -/
theorem later_of_apply (hf : Flow c) (ha : c.apply s op = some d) : Later c d := by
  cases coreStep_of_apply ha with
  | start hc =>
    refine later_of_eq (fun _ => rfl) prefix_rfl prefix_rfl ?_
    intro e he
    rw [hf.created hc] at he
    cases he
  | queued hr hrm =>
    refine ⟨?_, ?_, prefix_rfl, prefix_rfl, fun _ h => h⟩
    · intro dr
      cases dr with
      | false => exact prefix_append _ _
      | true => exact prefix_rfl
    · intro dr
      cases dr <;> exact prefix_rfl
  | direct hr hn =>
    refine ⟨?_, ?_, prefix_rfl, prefix_rfl, fun _ h => h⟩
    · intro dr
      cases dr with
      | false => exact prefix_rfl
      | true => exact prefix_append _ _
    · intro dr
      cases dr <;> exact prefix_rfl
  | refused | drains hlive => exact later_of_eq (fun _ => rfl) prefix_rfl prefix_rfl fun _ h => h
  | drained hstop | cancel =>
    exact later_of_eq (fun _ => rfl) prefix_rfl prefix_rfl fun _ h => h
  | retryFailed =>
    rw [retryFailed]
    split
    · refine later_of_eq ?_ prefix_rfl prefix_rfl fun _ h => h
      intro dr
      cases dr <;> rfl
    · exact later_of_eq (fun _ => rfl) prefix_rfl prefix_rfl fun _ h => h
  | request =>
    refine later_of_eq ?_ prefix_rfl prefix_rfl fun _ h => h
    intro dr
    cases dr <;> rfl
  | failWorker | finish =>
    exact later_of_eq (fun dr => lane_report _ _ dr) (prefix_append _ _) prefix_rfl fun _ h => h
  | stopped | elapse => exact later_of_eq (fun _ => rfl) prefix_rfl prefix_rfl fun _ h => h
  | worker hm => exact later_of_workerStep (workerStep_of_move hm)

/-! ## Failures -/

section

variable {st : BufferState (Ticket T) E} {f : WriteFailure E}

lemma retryFailed_failure (h : st.retryFailed.failure = some f) :
    st.failure = some f ∧ st.retryFailed.failureRecords = st.failureRecords ∧
      ∃ m, st.retryFailed.queue = st.queue ++ m := by
  rw [BufferState.retryFailed] at h ⊢
  split at h
  · next hstop =>
      rw [if_pos hstop]
      exact ⟨h, rfl, [], (append_nil _).symm⟩
  · next hrunn =>
      rw [if_neg hrunn]
      simp only [BufferState.retryBatch] at h ⊢
      split at h
      · cases h
      · next hkept =>
          rw [if_neg hkept]
          exact ⟨h, rfl, [], (append_nil _).symm⟩

lemma retryFailed_direct {p : Direct (Ticket T) E} (h : st.retryFailed.direct = some p) (hf : p.failure = some f) :
    ∃ old, st.direct = some old ∧ old.item = p.item ∧ old.failure = some f := by
  rw [BufferState.retryFailed] at h
  split at h
  · exact ⟨p, h, rfl, hf⟩
  · obtain ⟨old, hl, hr⟩ := map_eq_some_iff.mp h
    subst hr
    refine ⟨old, hl, (retry_item old).symm, ?_⟩
    rw [Direct.retry] at hf
    split at hf
    · cases hf
    · exact hf

end

lemma Reported.congr (h : Reported c) (hrp : c.log.reports <+: d.log.reports)
    (hb : ∀ failure, d.state.failure = some failure →
      (c.state.failure = some failure ∧ d.state.failureRecords = c.state.failureRecords ∧
        ∃ m, d.state.queue = c.state.queue ++ m) ∨
      (0 < d.state.failureRecords ∧ d.state.failureRecords ≤ d.state.queue.length ∧
        (d.state.queue.take d.state.failureRecords, failure) ∈ d.log.reports))
    (hd : ∀ p failure, d.state.direct = some p → p.failure = some failure →
      (∃ old, c.state.direct = some old ∧ old.item = p.item ∧ old.failure = some failure) ∨
      ([p.item], failure) ∈ d.log.reports) : Reported d := by
  constructor
  · intro failure hf
    rcases hb failure hf with ⟨hl, hr, m, hm⟩ | hn
    · obtain ⟨hps, hle, hmm⟩ := h.batch failure hl
      rw [hr, hm, take_append_of_le_length hle, length_append]
      exact ⟨hps, Nat.le_add_right_of_le hle, hrp.subset hmm⟩
    · exact hn
  · intro p failure hp hf
    rcases hd p failure hp hf with ⟨old, hl, hi, hfl⟩ | hn
    · rw [← hi]
      exact hrp.subset (h.direct old failure hl hfl)
    · exact hn

lemma Reported.same (h : Reported c) (hrp : c.log.reports <+: d.log.reports)
    (hf : d.state.failure = c.state.failure) (hr : d.state.failureRecords = c.state.failureRecords)
    (hq : d.state.queue = c.state.queue) (hdr : d.state.direct = c.state.direct) : Reported d := by
  refine h.congr hrp ?_ ?_
  · intro failure hd
    exact .inl ⟨hf ▸ hd, hr, [], by rw [hq, append_nil]⟩
  · intro p failure hp hfl
    exact .inl ⟨p, hdr ▸ hp, rfl, hfl⟩

lemma Reported.failWorker (h : Reported c) (cs : WriteFailureCause E) : Reported (c.failWorker cs) := by
  refine h.congr (prefix_append _ _) ?_ ?_
  · intro failure hf
    by_cases hfailed : (!c.state.queue.isEmpty && c.state.failure.isNone) = true
    · right
      have hne : c.state.queue ≠ [] := by
        intro hn
        rw [hn] at hfailed
        cases hfailed
      simp only [Core.failWorker, BufferState.failWorker, hfailed, if_true] at hf ⊢
      cases hf
      refine ⟨length_pos_iff.mpr hne, Nat.le_refl _, ?_⟩
      rw [take_length]
      refine mem_append_right _ (mem_append_left _ ?_)
      rw [if_pos hfailed]
      exact mem_singleton_self _
    · left
      simp only [Core.failWorker, BufferState.failWorker, if_neg hfailed] at hf ⊢
      exact ⟨hf, trivial, [], (append_nil _).symm⟩
  · intro p failure hp hf
    obtain ⟨old, hl, hq⟩ := map_eq_some_iff.mp
      (show c.state.direct.map (Direct.quarantine cs) = some p from hp)
    subst hq
    cases hbef : old.failure with
    | some b =>
      refine .inl ⟨old, hl, rfl, ?_⟩
      rw [Direct.quarantine, hbef] at hf
      rw [hbef]
      exact hf
    | none =>
      right
      rw [Direct.quarantine, hbef] at hf
      cases hf
      refine mem_append_right _ (mem_append_right _ ?_)
      simp [Direct.quarantine, hl, hbef]

lemma Reported.finish (h : Reported c) : Reported c.finish := by
  refine h.congr (prefix_append _ _) ?_ ?_
  · intro failure hf
    exact .inl ⟨hf, rfl, [], (append_nil _).symm⟩
  · intro p failure hp hf
    obtain ⟨old, hl, ha⟩ := map_eq_some_iff.mp (show c.state.direct.map Direct.abandon = some p from hp)
    subst ha
    cases hbef : old.failure with
    | some b =>
      rw [Direct.abandon, hbef] at hf
      exact .inl ⟨old, hl, (abandon_item old).symm, hf⟩
    | none =>
      right
      simp only [Direct.abandon, hbef] at hf
      cases hf
      refine mem_append_right _ ?_
      simp [BufferState.finishReports, hl, hbef]

lemma Reported.complete (h : Reported c) (hfl : Flow c)
    (hw : c.worker.work = some w) (r : Except (WriteFailure E) Unit) : Reported (c.complete w r) := by
  have hreps : c.log.reports <+: (c.complete w r).log.reports := by
    show c.log.reports <+: (c.log.endWrite w r).reports ++ _
    rw [(endWrite_keeps w r c.log).1]
    exact prefix_append _ _
  obtain ⟨hne, hfr⟩ := hfl.front w hw
  have hfree := hfl.unblocked w hw
  obtain ⟨dr, e⟩ := w
  cases dr with
  | false =>
    cases r with
    | error failure =>
      refine h.congr hreps ?_ ?_
      · intro o ho
        right
        cases ho
        refine ⟨length_pos_iff.mpr hne, hfr.length_le, ?_⟩
        have htake : c.state.queue.take e.length = e := (prefix_iff_eq_take.mp hfr).symm
        show (c.state.queue.take e.length, failure) ∈ _
        rw [htake]
        exact mem_append_right _ (mem_singleton_self _)
      · intro p o hp hf
        exact .inl ⟨p, hp, rfl, hf⟩
    | ok =>
      refine h.congr hreps ?_ ?_
      · intro o ho
        rw [show (c.complete ⟨false, e⟩ (.ok ())).state.failure = none from hfree] at ho
        cases ho
      · intro p o hp hf
        exact .inl ⟨p, hp, rfl, hf⟩
  | true =>
    obtain ⟨p, hd, he⟩ := entries_of_direct hne hfr
    subst he
    cases r with
    | error failure =>
      refine h.congr hreps ?_ ?_
      · intro o ho
        exact .inl ⟨ho, rfl, [], (append_nil _).symm⟩
      · intro a o ha hf
        right
        have hafter' : some { p with reply := false, failure := some failure } = some a := by
          rw [← ha]
          simp [complete, BufferState.complete, hd]
        cases hafter'
        cases hf
        exact mem_append_right _ (mem_singleton_self _)
    | ok =>
      refine h.congr hreps ?_ ?_
      · intro o ho
        simp only [complete, BufferState.complete, hd] at ho ⊢
        exact .inl ⟨ho, trivial, [], (append_nil _).symm⟩
      · intro a o ha _
        simp [complete, BufferState.complete, hd] at ha

lemma Reported.workerStep (h : Reported c) (hfl : Flow c) (hs : Core.WorkerStep s c d) : Reported d := by
  cases hs with
  | between hf hto hne | selected hf hsel => exact h.same prefix_rfl rfl rfl rfl rfl
  | invoked hf | skipped hf => exact h.same prefix_rfl rfl rfl rfl rfl
  | answered hf => exact h.same prefix_rfl rfl rfl rfl rfl
  | @completed w r hf =>
    exact (h.complete hfl (by rw [hf]; rfl) r).same prefix_rfl rfl rfl rfl rfl
  | failed hf => exact (h.failWorker .panicked).same prefix_rfl rfl rfl rfl rfl
  | finished hf => exact h.finish.same prefix_rfl rfl rfl rfl rfl
  | @died w e hf =>
    exact h.same ((endWrite_keeps w _ c.log).1 ▸ prefix_rfl) rfl rfl rfl rfl

/-- **Whatever is done, a failure was reported for the records it is in the way of.** -/
theorem Reported.apply (h : Reported c) (hfl : Flow c) (ha : c.apply s op = some d) : Reported d := by
  cases coreStep_of_apply ha with
  | start hcreat | drains hlive => exact h.same prefix_rfl rfl rfl rfl rfl
  | queued hr hrm =>
    refine h.congr prefix_rfl ?_ ?_
    · intro failure hf
      exact .inl ⟨hf, rfl, _, rfl⟩
    · intro p failure hp hf
      exact .inl ⟨p, hp, rfl, hf⟩
  | direct hr hn =>
    refine h.congr prefix_rfl ?_ ?_
    · intro failure hf
      exact .inl ⟨hf, rfl, [], (append_nil _).symm⟩
    · intro p failure hp hf
      cases hp
      cases hf
  | refused => exact h
  | drained hs => exact h
  | retryFailed =>
    have hreps : c.retryFailed.log.reports = c.log.reports := by
      rw [retryFailed]
      split
      · rfl
      · rfl
    refine h.congr (hreps ▸ prefix_rfl) ?_ ?_
    · intro failure hf
      exact .inl (retryFailed_failure hf)
    · intro p failure hp hf
      exact .inl (retryFailed_direct hp hf)
  | request | cancel => exact h.same prefix_rfl rfl rfl rfl rfl
  | @failWorker cs => exact h.failWorker cs
  | finish => exact h.finish
  | stopped | elapse => exact h.same prefix_rfl rfl rfl rfl rfl
  | worker hm => exact h.workerStep hfl (workerStep_of_move hm)

/-! ## Watermarks -/

lemma Books.batchPersisted (h : Books s c) : c.state.batchPersisted = (c.log.lane false).acked.length := by
  rw [BufferState.batchPersisted, h.persisted, h.directPersisted]
  omega

lemma Books.batchWatermark (h : Books s c) : c.state.batchWatermark = (c.log.lane false).admitted.length := by
  rw [BufferState.batchWatermark, h.batchPersisted]
  exact (h.balances false).length

lemma Asked.congr (h : Asked c) (ht : d.state.flushThrough = c.state.flushThrough)
    (hr : d.log.requests = c.log.requests) (hl : Later c d) : Asked d := by
  constructor
  · rw [ht, hr]
    exact h.reached
  · intro s hs
    rw [hr] at hs
    exact (h.scopes s hs).trans (hl.admitted false)

lemma Asked.add (h : Asked c) {s : List (Ticket T)} (hs : s <+: (c.log.lane false).admitted)
    (ht : d.state.flushThrough = max c.state.flushThrough s.length)
    (hr : d.log.requests = c.log.requests ++ [s]) (hl : Later c d) : Asked d := by
  constructor
  · rw [ht, hr]
    rcases Nat.le_total c.state.flushThrough s.length with hle | hle
    · exact .inr ⟨s, by simp, (Nat.max_eq_right hle).symm⟩
    · rw [Nat.max_eq_left hle]
      rcases h.reached with hz | ⟨o, ho, hln⟩
      · exact .inl hz
      · exact .inr ⟨o, mem_append_left _ ho, hln⟩
  · intro o ho
    rw [hr] at ho
    rcases mem_append.mp ho with hd | hn
    · exact (h.scopes o hd).trans (hl.admitted false)
    · rw [mem_singleton] at hn
      exact hn ▸ hs.trans (hl.admitted false)

lemma flushThrough_complete {state : BufferState (Ticket T) E} (dr : Bool) (cn : ℕ)
    (r : Except (WriteFailure E) Unit) : (state.complete dr cn r).flushThrough = state.flushThrough := by
  cases dr with
  | false => cases r <;> rfl
  | true =>
    cases r with
    | error failure => rfl
    | ok =>
      rw [BufferState.complete]
      split
      · rfl
      · rfl

lemma Asked.workerStep (h : Asked c) (hs : Core.WorkerStep s c d) : Asked d := by
  have hlater := later_of_workerStep hs
  cases hs with
  | between hf hto hne | selected hf hsel => exact h.congr rfl rfl hlater
  | invoked hf | skipped hf => exact h.congr rfl rfl hlater
  | answered hf | failed hf => exact h.congr rfl rfl hlater
  | @completed w r hf =>
    exact h.congr (flushThrough_complete _ _ _) (endWrite_keeps w r c.log).2.2 hlater
  | finished hf => exact h.congr rfl rfl hlater
  | @died w e hf =>
    exact h.congr rfl (endWrite_keeps w _ c.log).2.2 hlater

/-- **Whatever is done, batches are asked for up to what had been admitted.** -/
theorem Asked.apply (h : Asked c) (hb : Books s c) (hf : Flow c)
    (hal : op.Allowed c) (ha : c.apply s op = some d) : Asked d := by
  have hlater := later_of_apply hf ha
  cases coreStep_of_apply ha with
  | start hcreat | queued hrunn hroom => exact h.congr rfl rfl hlater
  | direct hrunn hnone | drains hlive => exact h.congr rfl rfl hlater
  | refused => exact h
  | drained hs => exact h
  | retryFailed =>
    by_cases hlifts : c.state.lifecycle ≠ .stopped ∧ c.state.failure.any WriteFailure.isRetryable = true
    · refine h.add prefix_rfl ?_ ?_ hlater
      · rw [← hb.batchWatermark]
        simp [retryFailed, BufferState.retryFailed, BufferState.retryBatch, hlifts]
      · simp [retryFailed, hlifts, WriterLog.lane]
    · refine h.congr ?_ ?_ hlater
      · by_cases hs : c.state.lifecycle = .stopped
        · simp [retryFailed, BufferState.retryFailed, hs]
        · have hkept : c.state.failure.any WriteFailure.isRetryable = false := by
            simpa [hs] using hlifts
          simp [retryFailed, BufferState.retryFailed, BufferState.retryBatch, hs, hkept]
      · rw [retryFailed, if_neg hlifts]
  | request =>
    obtain ⟨hsc, hl⟩ := hal
    exact h.add hsc (by rw [hl]; rfl) rfl hlater
  | cancel | failWorker => exact h.congr rfl rfl hlater
  | finish | stopped => exact h.congr rfl rfl hlater
  | worker hm => exact h.workerStep (workerStep_of_move hm)
  | elapse => exact h.congr rfl rfl hlater

end AsterForge.Runtime
