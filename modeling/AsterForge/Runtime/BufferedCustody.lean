import AsterForge.Runtime.BufferedWorker

/-!
# What a buffered batch writer has in custody

Whatever is done to the shared state, in any order, each lane is a keeper of records whose log balances, and
a write that has begun is at the front of a lane that nothing blocks.  A write that ended with an unknown
commit, or was rejected for good, blocks its lane; only `retry_failed` lifts failures, and not these.

* **`Books.apply`**, **`Flow.apply`** — everything that may be done to the shared state keeps both.
* **`nothing_admitted`** — after draining has begun nothing is admitted.
-/

namespace AsterForge.Runtime

open Library CustodyLog BufferState Direct List Option

variable {T E : Type} {s : WriterSettings} {c d : Core T E}

/-- The log explains the state: what each lane holds, the counters, the numbers of the records and the bound
of the queue. -/
structure Books (settings : WriterSettings) (c : Core T E) : Prop where
  balances : ∀ direct, (c.log.lane direct).Balances (c.state.held direct)
  persisted : c.state.persisted = (c.log.lane false).acked.length + (c.log.lane true).acked.length
  directPersisted : c.state.directPersisted = (c.log.lane true).acked.length
  numbered : (c.log.accepted.map Ticket.number).Nodup
  below : ∀ ticket ∈ c.log.accepted, ticket.number < c.log.accepted.length
  capacity : c.state.queue.length ≤ settings.queueCapacity

/-- A write ended so that its records must not be written again. -/
def Barred (attempt : Attempt (Ticket T) (WriteFailure E)) : Prop :=
  ∃ failure, attempt.result = .error failure ∧ failure.isRetryable = false

/-- A write that has begun is at the front of a lane without a failure; a lane with a write that bars its
records is blocked, unless there is no worker any more. -/
structure Flow (c : Core T E) : Prop where
  created : c.state.lifecycle = .created → c.worker = .absent
  unblocked : ∀ work, c.worker.work = some work → c.state.laneFailure work.direct = none
  front : ∀ work, c.worker.work = some work → work.entries ≠ [] ∧ work.entries <+: c.state.held work.direct
  blocked : ∀ direct, ∀ attempt ∈ (c.log.lane direct).attempts, Barred attempt →
    c.worker.isEnded = true ∨
      ∃ failure, c.state.laneFailure direct = some failure ∧ failure.isRetryable = false
  last : ∀ direct earlier attempt later, (c.log.lane direct).attempts = earlier ++ attempt :: later →
    Barred attempt → later = []

/-- Only a caller that has joined the worker declares it failed, and a flush asks for records that were
admitted. -/
def CoreOp.Allowed (c : Core T E) : CoreOp T E → Prop
  | .failWorker _ | .finish => c.worker.isEnded = true
  | .request target scope => scope <+: (c.log.lane false).admitted ∧ scope.length = target
  | _ => True

/-! ## The start -/

lemma books_new (settings : WriterSettings) : Books settings (Core.new : Core T E) where
  balances direct := by
    cases direct
    · exact balances_empty
    · exact balances_empty
  persisted := rfl
  directPersisted := rfl
  numbered := nodup_nil
  below ticket h := absurd h not_mem_nil
  capacity := Nat.zero_le _

lemma flow_new : Flow (Core.new : Core T E) where
  created _ := rfl
  unblocked work h := by cases h
  front work h := by cases h
  blocked direct attempt h := by cases direct <;> exact absurd h not_mem_nil
  last direct earlier attempt later h := by cases direct <;> simp [Core.new, WriterLog.empty, WriterLog.lane, empty] at h

/-! ## Lanes -/

@[simp] lemma lane_report (r : List (List (Ticket T) × WriteFailure E)) (log : WriterLog T E)
    (direct : Bool) : (log.report r).lane direct = log.lane direct := by
  cases direct <;> rfl

lemma lane_accept (direct : Bool) (t : Ticket T) (log : WriterLog T E) (o : Bool) :
    (log.accept direct t).lane o = if o = direct then (log.lane o).accept t else log.lane o := by
  cases direct <;> cases o <;> rfl

variable (work : WriteWork T) (result : Except (WriteFailure E) Unit) (log : WriterLog T E)

lemma lane_endWrite (o : Bool) : (log.endWrite work result).lane o =
    if o = work.direct then (log.lane o).attempt ⟨work.entries, result⟩ else log.lane o := by
  obtain ⟨direct, entries⟩ := work
  cases direct <;> cases o <;> rfl

lemma accepted_eq : log.accepted = (log.lane false).admitted ++ (log.lane true).admitted := rfl

lemma accepted_accept (direct : Bool) (t : Ticket T) (log : WriterLog T E) :
    (log.accept direct t).accepted.Perm (t :: log.accepted) := by
  cases direct with
  | false =>
    show ((log.batch.admitted ++ [t]) ++ log.overflow.admitted).Perm _
    rw [append_assoc]
    exact perm_middle
  | true =>
    show (log.batch.admitted ++ (log.overflow.admitted ++ [t])).Perm _
    rw [← append_assoc]
    exact perm_append_singleton _ _

lemma Books.congr (h : Books s c) (hl : ∀ direct, d.log.lane direct = c.log.lane direct)
    (hh : ∀ direct, d.state.held direct = c.state.held direct) (hp : d.state.persisted = c.state.persisted)
    (hd : d.state.directPersisted = c.state.directPersisted) : Books s d := by
  have hacc : d.log.accepted = c.log.accepted := by
    rw [accepted_eq, accepted_eq, hl, hl]
  constructor
  · intro direct
    rw [hl, hh]
    exact h.balances direct
  · rw [hp, hl, hl, h.persisted]
  · rw [hd, hl, h.directPersisted]
  · rw [hacc]
    exact h.numbered
  · rw [hacc]
    exact h.below
  · rw [show d.state.queue = c.state.queue from hh false]
    exact h.capacity

lemma Books.accept (h : Books s c) (direct : Bool) (i : T)
    (hl : d.log = c.log.accept direct ⟨c.log.accepted.length, i⟩) (hh : ∀ o, d.state.held o =
      if o = direct then c.state.held o ++ [⟨c.log.accepted.length, i⟩] else c.state.held o)
    (hp : d.state.persisted = c.state.persisted)
    (hd : d.state.directPersisted = c.state.directPersisted)
    (hc : d.state.queue.length ≤ s.queueCapacity) : Books s d := by
  have hacked : ∀ o, (d.log.lane o).acked = (c.log.lane o).acked := by
    intro o
    rw [hl, lane_accept]
    split
    · rfl
    · rfl
  have hperm : d.log.accepted.Perm (⟨c.log.accepted.length, i⟩ :: c.log.accepted) := by
    rw [hl]
    exact accepted_accept direct _ c.log
  constructor
  · intro o
    rw [hh, hl, lane_accept]
    split
    · exact (h.balances o).accept _
    · exact h.balances o
  · rw [hp, hacked, hacked, h.persisted]
  · rw [hd, hacked, h.directPersisted]
  · refine (hperm.map Ticket.number).nodup_iff.mpr ?_
    rw [map_cons, nodup_cons]
    refine ⟨?_, h.numbered⟩
    intro hm
    obtain ⟨t, ht, hn⟩ := mem_map.mp hm
    exact Nat.lt_irrefl _ (hn ▸ h.below t ht)
  · intro t ht
    rw [hperm.length_eq]
    rcases mem_cons.mp (hperm.mem_iff.mp ht) with rfl | ho
    · exact Nat.lt_succ_self _
    · exact Nat.lt_succ_of_lt (h.below t ho)
  · exact hc

/-! ## The result of a write -/

section

variable {st : BufferState (Ticket T) E} {dr : Bool} {e : List (Ticket T)}

lemma entries_of_direct (hne : e ≠ []) (hf : e <+: st.held true) : ∃ p, st.direct = some p ∧ e = [p.item] := by
  cases hdir : st.direct with
  | none =>
    rw [held, hdir] at hf
    exact absurd (prefix_nil.mp hf) hne
  | some p =>
    rw [held, hdir] at hf
    refine ⟨p, rfl, ?_⟩
    rcases prefix_cons_iff.mp hf with hn | ⟨r, hr, hp⟩
    · exact absurd hn hne
    · rw [hr, prefix_nil.mp hp]

lemma held_complete (hne : e ≠ []) (hf : e <+: st.held dr) (result : Except (WriteFailure E) Unit) (o : Bool) :
    (st.complete dr e.length result).held o = if o = dr then left (st.held o) ⟨e, result⟩ else st.held o := by
  cases dr with
  | false =>
    cases result with
    | error f => cases o <;> rfl
    | ok => cases o <;> rfl
  | true =>
    obtain ⟨p, hd, he⟩ := entries_of_direct hne hf
    cases result with
    | error f =>
      cases o with
      | false => rfl
      | true => simp [complete, held, left, hd]
    | ok =>
      cases o with
      | false => simp [complete, held, hd]
      | true => simp [complete, held, left, hd, he]

lemma persisted_complete (hne : e ≠ []) (hf : e <+: st.held dr) (result : Except (WriteFailure E) Unit) :
    (st.complete dr e.length result).persisted =
      st.persisted + (⟨e, result⟩ : Attempt (Ticket T) (WriteFailure E)).handed.length := by
  cases dr with
  | false =>
    cases result with
    | error f => rfl
    | ok => rfl
  | true =>
    obtain ⟨p, hd, he⟩ := entries_of_direct hne hf
    cases result with
    | error f => rfl
    | ok => simp [complete, hd, he]

lemma directPersisted_complete (hne : e ≠ []) (hf : e <+: st.held dr) (result : Except (WriteFailure E) Unit) :
    (st.complete dr e.length result).directPersisted = st.directPersisted +
      if dr then (⟨e, result⟩ : Attempt (Ticket T) (WriteFailure E)).handed.length else 0 := by
  cases dr with
  | false =>
    cases result with
    | error f => rfl
    | ok => rfl
  | true =>
    obtain ⟨p, hd, he⟩ := entries_of_direct hne hf
    cases result with
    | error f => rfl
    | ok => simp [complete, hd, he]

lemma laneFailure_complete_error (hne : e ≠ []) (hf : e <+: st.held dr) (f : WriteFailure E) (o : Bool) :
    (st.complete dr e.length (.error f)).laneFailure o = if o = dr then some f else st.laneFailure o := by
  cases dr with
  | false => cases o <;> rfl
  | true =>
    obtain ⟨p, hd, he⟩ := entries_of_direct hne hf
    cases o with
    | false => rfl
    | true => simp [complete, laneFailure, hd]

lemma laneFailure_complete_ok (cn : ℕ) (o : Bool) (hne : o ≠ dr) :
    (st.complete dr cn (.ok ())).laneFailure o = st.laneFailure o := by
  cases dr with
  | false =>
    cases o with
    | false => exact absurd rfl hne
    | true => rfl
  | true =>
    cases o with
    | false =>
      rw [complete]
      split
      · rfl
      · rfl
    | true => exact absurd rfl hne

lemma lifecycle_complete (cn : ℕ) (result : Except (WriteFailure E) Unit) :
    (st.complete dr cn result).lifecycle = st.lifecycle := by
  cases dr with
  | false => cases result <;> rfl
  | true =>
    cases result with
    | error f => rfl
    | ok =>
      rw [complete]
      split
      · rfl
      · rfl

end

variable {w : WriteWork T} {r : Except (WriteFailure E) Unit}

/-- **A write that has ended** is entered in its lane. -/
lemma Books.attempt (h : Books s c) (hf : w.entries <+: c.state.held w.direct) (hl : ∀ direct, d.log.lane direct =
      if direct = w.direct then (c.log.lane direct).attempt ⟨w.entries, r⟩ else c.log.lane direct)
    (hh : ∀ direct, d.state.held direct = if direct = w.direct then left (c.state.held direct) ⟨w.entries, r⟩
      else c.state.held direct)
    (hp : d.state.persisted = c.state.persisted +
      (⟨w.entries, r⟩ : Attempt (Ticket T) (WriteFailure E)).handed.length)
    (hd : d.state.directPersisted = c.state.directPersisted +
      if w.direct then (⟨w.entries, r⟩ : Attempt (Ticket T) (WriteFailure E)).handed.length else 0) :
    Books s d := by
  have hadm : ∀ direct, (d.log.lane direct).admitted = (c.log.lane direct).admitted := by
    intro direct
    rw [hl]
    split
    · rfl
    · rfl
  have hacked : ∀ direct, (d.log.lane direct).acked = (c.log.lane direct).acked ++
      if direct = w.direct then
        (⟨w.entries, r⟩ : Attempt (Ticket T) (WriteFailure E)).handed else [] := by
    intro direct
    rw [hl]
    split
    · rw [acked_attempt]
    · rw [append_nil]
  have hacc : d.log.accepted = c.log.accepted := by
    rw [accepted_eq, accepted_eq, hadm, hadm]
  constructor
  · intro direct
    rw [hl, hh]
    split
    · next heq =>
        subst heq
        exact (h.balances _).attempt hf
    · exact h.balances direct
  · rw [hp, hacked, hacked, h.persisted]
    cases w.direct <;> simp <;> omega
  · rw [hd, hacked, h.directPersisted]
    cases w.direct <;> simp
  · rw [hacc]
    exact h.numbered
  · rw [hacc]
    exact h.below
  · have hqueue : d.state.queue.length ≤ c.state.queue.length := by
      rw [show d.state.queue = _ from hh false]
      split
      · show (c.state.queue.drop _).length ≤ c.state.queue.length
        rw [length_drop]
        omega
      · exact Nat.le_refl _
    exact Nat.le_trans hqueue h.capacity

/-! ## What callers do -/

section

variable {stt : BufferState (Ticket T) E}

lemma held_map_direct (change : Direct (Ticket T) E → Direct (Ticket T) E) (hi : ∀ d, (change d).item = d.item) :
    ((stt.direct.map change).map item).toList = stt.held true := by
  cases hdir : stt.direct with
  | none => simp [held, hdir]
  | some p => simp [held, hdir, hi]

variable (direct : Direct (Ticket T) E)

@[simp] lemma retry_item : direct.retry.item = direct.item := by
  rw [retry]
  split
  · rfl
  · rfl

@[simp] lemma abandon_item : direct.abandon.item = direct.item := by
  rw [abandon]
  split
  · rfl
  · rfl

variable (state : BufferState (Ticket T) E)

lemma retryFailed_keeps : (∀ direct, state.retryFailed.held direct = state.held direct) ∧
    state.retryFailed.persisted = state.persisted ∧
    state.retryFailed.directPersisted = state.directPersisted ∧
    state.retryFailed.lifecycle = state.lifecycle := by
  rw [retryFailed]
  split
  · exact ⟨fun _ => rfl, rfl, rfl, rfl⟩
  · have hbatch : state.retryBatch.queue = state.queue ∧ state.retryBatch.persisted = state.persisted ∧
        state.retryBatch.directPersisted = state.directPersisted ∧
        state.retryBatch.lifecycle = state.lifecycle := by
      rw [retryBatch]
      split
      · exact ⟨rfl, rfl, rfl, rfl⟩
      · exact ⟨rfl, rfl, rfl, rfl⟩
    obtain ⟨hq, hp, hd, hl⟩ := hbatch
    refine ⟨?_, hp, hd, hl⟩
    intro direct
    cases direct with
    | false => exact hq
    | true => exact held_map_direct retry retry_item

lemma laneFailure_retryFailed (direct : Bool) :
    state.retryFailed.laneFailure direct = state.laneFailure direct ∨
      (∃ failure, state.laneFailure direct = some failure ∧ failure.isRetryable = true) ∧
        state.retryFailed.laneFailure direct = none := by
  rw [retryFailed]
  split
  · exact .inl rfl
  · cases direct with
    | false =>
      show state.retryBatch.failure = state.failure ∨ _ ∧ state.retryBatch.failure = none
      rw [retryBatch]
      cases hfail : state.failure with
      | none => simp [hfail]
      | some failure =>
        cases hretry : failure.isRetryable with
        | false => simp [hfail, hretry]
        | true => simp [laneFailure, hfail, hretry]
    | true =>
      show (state.direct.map retry).bind failure = state.direct.bind failure ∨
        _ ∧ (state.direct.map retry).bind failure = none
      cases hdir : state.direct with
      | none => exact .inl rfl
      | some pending =>
        cases hfail : pending.failure with
        | none => simp [retry, hfail]
        | some failure =>
          cases hretry : failure.isRetryable with
          | false => simp [retry, hfail, hretry]
          | true => simp [laneFailure, retry, hdir, hfail, hretry]

lemma held_finish (direct : Bool) : state.finish.held direct = state.held direct := by
  cases direct with
  | false => rfl
  | true => exact held_map_direct abandon abandon_item

lemma held_failWorker (cs : WriteFailureCause E) (state : BufferState (Ticket T) E) (direct : Bool) :
    (state.failWorker cs).held direct = state.held direct := by
  cases direct with
  | false => rfl
  | true => exact held_map_direct (quarantine cs) fun _ => rfl

/-- What `fail_worker` finds blocked stays blocked by the same failure. -/
lemma laneFailure_failWorker {cs : WriteFailureCause E} {direct : Bool} {f : WriteFailure E}
    (h : stt.laneFailure direct = some f) : (stt.failWorker cs).laneFailure direct = some f := by
  cases direct with
  | false =>
    have hf : stt.failure = some f := h
    simp [failWorker, laneFailure, hf]
  | true =>
    obtain ⟨p, hd, hf⟩ := bind_eq_some_iff.mp h
    simp [failWorker, laneFailure, quarantine, hd, hf]

/-! ## What the worker takes -/

lemma nextBatchSize_pos (hp : 0 < s.batchSize) : 0 < stt.nextBatchSize s.batchSize := by
  rw [nextBatchSize]
  split
  · exact hp
  · omega

lemma selectWork_spec {now : ℕ} {pb : Bool} {entries : List (Ticket T)} {direct : Bool}
    (h : stt.selectWork s now pb = some (entries, direct)) :
    stt.laneFailure direct = none ∧ entries ≠ [] ∧ entries <+: stt.held direct := by
  have hbatch : stt.nextBatch s now = some (entries, direct) →
      stt.laneFailure direct = none ∧ entries ≠ [] ∧ entries <+: stt.held direct := by
    intro h
    rw [nextBatch] at h
    split at h
    · next hready =>
        cases h
        rw [batchReady] at hready
        simp only [Bool.and_eq_true, Bool.not_eq_true', isNone_iff_eq_none] at hready
        refine ⟨hready.1.2, ?_, take_prefix _ _⟩
        intro hn
        rcases take_eq_nil_iff.mp hn with hz | he
        · exact absurd hz (Nat.ne_of_gt (nextBatchSize_pos s.batchSize_pos))
        · rw [he] at hready
          simp at hready
    · cases h
  rw [selectWork] at h
  cases hdir : stt.direct with
  | none =>
    rw [hdir] at h
    exact hbatch h
  | some p =>
    rw [hdir] at h
    simp only at h
    split at h
    · next hfree =>
        cases h
        simp only [Bool.and_eq_true, isNone_iff_eq_none] at hfree
        refine ⟨?_, by simp, ?_⟩
        · simp [laneFailure, hdir, hfree.1]
        · simp [held, hdir]
    · exact hbatch h

end

/-! ## Books -/

lemma Books.workerStep (h : Books s c) (hfl : Flow c) (hs : Core.WorkerStep s c d) : Books s d := by
  cases hs with
  | between hf hto hne | selected hf hsel => exact h.congr (fun _ => rfl) (fun _ => rfl) rfl rfl
  | invoked hf =>
    refine h.congr (fun direct => ?_) (fun _ => rfl) rfl rfl
    cases direct <;> rfl
  | skipped hf | answered hf => exact h.congr (fun _ => rfl) (fun _ => rfl) rfl rfl
  | @completed w r hf =>
    obtain ⟨hne, hfr⟩ := hfl.front w (by rw [hf]; rfl)
    refine h.attempt hfr ?_ (held_complete hne hfr r) (persisted_complete hne hfr r)
      (directPersisted_complete hne hfr r)
    intro direct
    exact (lane_report _ _ direct).trans (lane_endWrite w r c.log direct)
  | failed hf =>
    exact h.congr (fun direct => lane_report _ _ direct) (held_failWorker .panicked c.state) rfl rfl
  | finished hf => exact h.congr (fun direct => lane_report _ _ direct) (held_finish c.state) rfl rfl
  | @died w e hf =>
    obtain ⟨_, hfr⟩ := hfl.front w (by rw [hf]; rfl)
    -- an attempt without a success takes nothing out of custody
    refine h.attempt hfr (lane_endWrite w (.error (.interrupted .cancelled)) c.log) ?_ rfl ?_
    · intro direct
      split
      · rfl
      · rfl
    · cases w.direct <;> rfl

variable {op : CoreOp T E}

/-- **Everything that may be done keeps the books.** -/
theorem Books.apply (h : Books s c) (hf : Flow c) (ha : c.apply s op = some d) : Books s d := by
  cases Core.coreStep_of_apply ha with
  | start hcreat | drains hlive => exact h.congr (fun _ => rfl) (fun _ => rfl) rfl rfl
  | @queued i hrn hr =>
    refine h.accept false i rfl ?_ rfl rfl ?_
    · intro o
      cases o <;> rfl
    · simp only [length_append, length_singleton]
      exact hr
  | @direct i hrn hn =>
    refine h.accept true i rfl ?_ rfl rfl h.capacity
    intro o
    cases o with
    | false => rfl
    | true => simp [held, hn]
  | refused => exact h
  | drained hs => exact h
  | retryFailed =>
    obtain ⟨hh, hp, hd, _⟩ := retryFailed_keeps c.state
    refine h.congr ?_ hh hp hd
    intro direct
    rw [Core.retryFailed]
    split
    · cases direct <;> rfl
    · rfl
  | request =>
    refine h.congr (fun direct => ?_) (fun direct => ?_) rfl rfl
    · cases direct <;> rfl
    · cases direct <;> rfl
  | cancel | elapse => exact h.congr (fun _ => rfl) (fun _ => rfl) rfl rfl
  | @failWorker cs => exact h.congr (fun direct => lane_report _ _ direct) (held_failWorker cs c.state) rfl rfl
  | finish => exact h.congr (fun direct => lane_report _ _ direct) (held_finish c.state) rfl rfl
  | stopped =>
    refine h.congr (fun _ => rfl) (fun direct => ?_) rfl rfl
    cases direct <;> rfl
  | worker hm => exact h.workerStep hf (Core.workerStep_of_move hm)

/-! ## Flow -/

lemma attempts_report (r : List (List (Ticket T) × WriteFailure E)) (log : WriterLog T E) (direct : Bool) :
    ((log.report r).lane direct).attempts = (log.lane direct).attempts := by
  rw [lane_report]

/-- What leaves the attempts and what is held, lifts no failure for good, and begins no write, keeps the flow. -/
lemma Flow.congr (h : Flow c) (hc : d.state.lifecycle = .created → d.worker = .absent)
    (ha : ∀ direct, (d.log.lane direct).attempts = (c.log.lane direct).attempts)
    (hh : ∀ direct, ∃ m, d.state.held direct = c.state.held direct ++ m)
    (hu : ∀ w, d.worker.work = some w → c.state.laneFailure w.direct = none →
      d.state.laneFailure w.direct = none)
    (hbl : ∀ direct f, c.state.laneFailure direct = some f → f.isRetryable = false →
      d.state.laneFailure direct = some f)
    (hw : ∀ w, d.worker.work = some w → c.worker.work = some w)
    (he : c.worker.isEnded = true → d.worker.isEnded = true) : Flow d := by
  constructor
  · exact hc
  · intro w hd
    exact hu w hd (h.unblocked w (hw w hd))
  · intro w hd
    obtain ⟨hne, hfr⟩ := h.front w (hw w hd)
    obtain ⟨m, hm⟩ := hh w.direct
    exact ⟨hne, hm ▸ hfr.trans (prefix_append _ _)⟩
  · intro direct a hat hb
    rw [ha] at hat
    rcases h.blocked direct a hat hb with hg | ⟨f, hfl, hf⟩
    · exact .inl (he hg)
    · exact .inr ⟨f, hbl direct f hfl hf, hf⟩
  · intro direct e a l hs hb
    rw [ha] at hs
    exact h.last direct e a l hs hb

variable {wr : WorkerPhase T E}

lemma WorkerPhase.isEnded_of_work (h : wr.work = some w) : wr.isEnded = false := by
  cases wr with
  | ended e => cases h
  | absent => rfl
  | checking => rfl
  | selecting => rfl
  | waiting => rfl
  | polling w => rfl
  | writing w => rfl
  | completing w r => rfl
  | failing => rfl
  | finishing => rfl

lemma Flow.not_barred (h : Flow c) (hw : c.worker.work = some w) :
    ∀ a ∈ (c.log.lane w.direct).attempts, ¬ Barred a := by
  intro a ha hb
  rcases h.blocked w.direct a ha hb with he | ⟨f, hf, _⟩
  · rw [WorkerPhase.isEnded_of_work hw] at he
    cases he
  · rw [h.unblocked w hw] at hf
    cases hf

lemma Flow.last_attempt (h : Flow c) (hw : c.worker.work = some w) (hl : ∀ direct, d.log.lane direct =
      if direct = w.direct then (c.log.lane direct).attempt ⟨w.entries, r⟩ else c.log.lane direct) :
    ∀ direct e a l, (d.log.lane direct).attempts = e ++ a :: l → Barred a → l = [] := by
  intro direct e a l hs hb
  rw [hl] at hs
  split at hs
  · next heq =>
      subst heq
      rcases eq_nil_or_concat l with hn | ⟨b, ls, rfl⟩
      · exact hn
      · rw [concat_eq_append] at hs
        have hsplit' : (c.log.lane w.direct).attempts ++ [⟨w.entries, r⟩] = (e ++ a :: b) ++ [ls] := by
          rw [append_assoc]
          exact hs
        have hmem : a ∈ (c.log.lane w.direct).attempts := by
          rw [(append_inj' hsplit' rfl).1]
          exact mem_append_right _ mem_cons_self
        exact absurd hb (h.not_barred hw a hmem)
  · exact h.last direct e a l hs hb

lemma Flow.goes (h : Flow c) (hp : c.worker ≠ .absent ∧ c.worker.isEnded = false) (hs : d.state = c.state)
    (ha : ∀ direct, (d.log.lane direct).attempts = (c.log.lane direct).attempts)
    (hw : ∀ w, d.worker.work = some w → c.worker.work = some w) : Flow d := by
  refine h.congr ?_ ha ?_ ?_ ?_ hw ?_
  · intro hc
    rw [hs] at hc
    exact absurd (h.created hc) hp.1
  · intro direct
    exact ⟨[], by rw [hs, append_nil]⟩
  · intro w _ hfr
    rw [hs]
    exact hfr
  · intro direct f hf _
    rw [hs]
    exact hf
  · intro he
    rw [hp.2] at he
    cases he

lemma Flow.workerStep (h : Flow c) (hs : Core.WorkerStep s c d) : Flow d := by
  have hpres : c.state.lifecycle ≠ .created := fun hc => hs.present.1 (h.created hc)
  have hrunn : c.worker.isEnded ≠ true := by simp [hs.present.2]
  have hbusy := hs.present
  cases hs with
  | @between wr hf hto hne =>
    refine h.goes hbusy rfl (fun _ => rfl) ?_
    intro w hw
    rw [show (c.goto wr).worker.work = none from hto] at hw
    cases hw
  | @selected entries direct hf hsl =>
    obtain ⟨hfre, hne, hfr⟩ := selectWork_spec hsl
    constructor
    · intro hc
      exact absurd hc hpres
    · intro w hw
      cases hw
      exact hfre
    · intro w hw
      cases hw
      exact ⟨hne, hfr⟩
    · intro o a ha hb
      rcases h.blocked o a ha hb with hg | hbl
      · exact absurd hg hrunn
      · exact .inr hbl
    · exact h.last
  | @invoked w hf =>
    refine h.goes hbusy rfl ?_ ?_
    · intro direct
      cases direct <;> rfl
    · intro o hw
      rw [hf]
      exact hw
  | @skipped w hf | @answered w r hf =>
    refine h.goes hbusy rfl (fun _ => rfl) ?_
    intro o hw
    rw [hf]
    exact hw
  | @completed w r hf =>
    have hw : c.worker.work = some w := by rw [hf]; rfl
    obtain ⟨hne, hfr⟩ := h.front w hw
    have hlane : ∀ direct, ((c.complete w r).goto .checking).log.lane direct =
        if direct = w.direct then (c.log.lane direct).attempt ⟨w.entries, r⟩
        else c.log.lane direct := by
      intro direct
      exact (lane_report _ _ direct).trans (lane_endWrite w r c.log direct)
    constructor
    · intro hc
      rw [show ((c.complete w r).goto .checking).state.lifecycle = c.state.lifecycle from
        lifecycle_complete _ _] at hc
      exact absurd hc hpres
    · intro o ho
      cases ho
    · intro o ho
      cases ho
    · intro direct a ha hb
      right
      rw [hlane] at ha
      split at ha
      · next heq =>
          subst heq
          rcases mem_append.mp ha with hl | hn
          · exact absurd hb (h.not_barred hw a hl)
          · -- the write itself bars its records: its failure is in the way from now on
            rw [mem_singleton] at hn
            subst hn
            obtain ⟨f, hr, hfn⟩ := hb
            refine ⟨f, ?_, hfn⟩
            rw [show r = .error f from hr]
            show (c.state.complete _ _ _).laneFailure _ = _
            rw [laneFailure_complete_error hne hfr, if_pos rfl]
      · next ho =>
          rcases h.blocked direct a ha hb with hg | ⟨f, hfl, hfn⟩
          · exact absurd hg hrunn
          · refine ⟨f, ?_, hfn⟩
            show (c.state.complete _ _ _).laneFailure _ = _
            cases r with
            | error o => rw [laneFailure_complete_error hne hfr, if_neg ho, hfl]
            | ok => rw [laneFailure_complete_ok _ _ ho, hfl]
    · exact h.last_attempt hw hlane
  | failed hf =>
    refine h.congr ?_ (fun direct => attempts_report _ _ direct)
      (fun direct => ⟨[], by rw [append_nil]; exact held_failWorker .panicked c.state direct⟩) ?_ ?_ ?_ ?_
    · intro hc
      exact absurd hc hpres
    · intro w hw
      cases hw
    · intro direct f hfl _
      exact laneFailure_failWorker hfl
    · intro w hw
      cases hw
    · intro hg
      exact absurd hg hrunn
  | finished hf =>
    constructor
    · intro hc
      cases hc
    · intro w hw
      cases hw
    · intro w hw
      cases hw
    · intro direct a ha hb
      exact .inl rfl
    · intro direct e a l hsp hb
      exact h.last direct e a l ((attempts_report _ _ direct).symm.trans hsp) hb
  | @died w er hf =>
    have hw : c.worker.work = some w := by rw [hf]; rfl
    constructor
    · intro hc
      exact absurd hc hpres
    · intro o ho
      cases ho
    · intro o ho
      cases ho
    · intro direct a ha hb
      exact .inl rfl
    · exact h.last_attempt hw (lane_endWrite w _ c.log)

lemma WorkerPhase.work_of_isEnded (h : wr.isEnded = true) : wr.work = none := by
  cases hwork : wr.work with
  | none => rfl
  | some w =>
    rw [WorkerPhase.isEnded_of_work hwork] at h
    cases h

lemma Flow.called (h : Flow c) (hw : d.worker = c.worker)
    (hc : d.state.lifecycle = .created → c.state.lifecycle = .created)
    (ha : ∀ direct, (d.log.lane direct).attempts = (c.log.lane direct).attempts)
    (hh : ∀ direct, d.state.held direct = c.state.held direct)
    (hu : ∀ direct, c.state.laneFailure direct = none → d.state.laneFailure direct = none)
    (hb : ∀ direct f, c.state.laneFailure direct = some f → f.isRetryable = false →
      d.state.laneFailure direct = some f) : Flow d := by
  refine h.congr ?_ ha ?_ (fun w _ => hu w.direct) hb ?_ ?_
  · intro hd
    rw [hw]
    exact h.created (hc hd)
  · intro direct
    exact ⟨[], by rw [hh, append_nil]⟩
  · intro w hwr
    rw [← hw]
    exact hwr
  · intro he
    rw [hw]
    exact he

lemma Flow.joined (h : Flow c) (he : c.worker.isEnded = true) (hwr : d.worker = c.worker)
    (ha : ∀ direct, (d.log.lane direct).attempts = (c.log.lane direct).attempts)
    (hc : d.state.lifecycle = .created → c.state.lifecycle = .created) : Flow d := by
  have hnone : d.worker.work = none := by
    rw [hwr]
    exact WorkerPhase.work_of_isEnded he
  constructor
  · intro hd
    rw [hwr]
    exact h.created (hc hd)
  · intro w hw
    rw [hnone] at hw
    cases hw
  · intro w hw
    rw [hnone] at hw
    cases hw
  · intro direct a hat hb
    exact .inl (hwr ▸ he)
  · intro direct e a l hs hb
    rw [ha] at hs
    exact h.last direct e a l hs hb

/-- **Everything that may be done keeps the flow.** -/
theorem Flow.apply (h : Flow c) (ha : op.Allowed c) (hap : c.apply s op = some d) : Flow d := by
  cases Core.coreStep_of_apply hap with
  | start hc =>
    have habs : c.worker = .absent := h.created hc
    constructor
    · intro hd
      cases hd
    · intro w hw
      cases hw
    · intro w hw
      cases hw
    · intro direct a hat hb
      rcases h.blocked direct a hat hb with hg | hbl
      · rw [habs] at hg
        cases hg
      · refine .inr ?_
        cases direct <;> exact hbl
    · exact h.last
  | queued hrn hrm =>
    refine h.congr h.created ?_ ?_ ?_ ?_ (fun _ => id) id
    · intro direct
      cases direct <;> rfl
    · intro direct
      cases direct with
      | false => exact ⟨_, rfl⟩
      | true => exact ⟨[], (append_nil _).symm⟩
    · intro w _ hfr
      cases hlane : w.direct <;> rw [hlane] at hfr <;> exact hfr
    · intro direct f hfl _
      cases direct <;> exact hfl
  | direct hrn hn =>
    refine h.congr h.created ?_ ?_ ?_ ?_ (fun _ => id) id
    · intro direct
      cases direct <;> rfl
    · intro direct
      cases direct with
      | false => exact ⟨[], (append_nil _).symm⟩
      | true => exact ⟨_, by simp [held, hn]; rfl⟩
    · intro w _ hfr
      cases hlane : w.direct with
      | false =>
        rw [hlane] at hfr
        exact hfr
      | true => rfl
    · intro direct f hfl _
      cases direct with
      | false => exact hfl
      | true =>
        -- the lane was free, so nothing blocked it
        rw [laneFailure, hn] at hfl
        cases hfl
  | refused => exact h
  | drains hlive | stopped =>
    refine h.called rfl ?_ (fun _ => rfl) ?_ ?_ ?_
    · intro hd
      cases hd
    · intro direct
      cases direct <;> rfl
    · intro direct
      cases direct <;> exact id
    · intro direct f hfl _
      cases direct <;> exact hfl
  | drained hst => exact h
  | retryFailed =>
    obtain ⟨hh, _, _, hl⟩ := retryFailed_keeps c.state
    refine h.called rfl ?_ ?_ hh ?_ ?_
    · intro hd
      exact hl ▸ hd
    · intro direct
      rw [Core.retryFailed]
      split
      · cases direct <;> rfl
      · rfl
    · intro direct hfr
      rcases laneFailure_retryFailed c.state direct with hs | ⟨_, hn⟩
      · exact hs.trans hfr
      · exact hn
    · intro direct f hfl hfn
      rcases laneFailure_retryFailed c.state direct with hs | ⟨⟨o, ho, hr⟩, _⟩
      · exact hs.trans hfl
      · rw [hfl, some.injEq] at ho
        rw [ho, hr] at hfn
        cases hfn
  | request =>
    refine h.called rfl id ?_ ?_ ?_ ?_
    · intro direct
      cases direct <;> rfl
    · intro direct
      cases direct <;> rfl
    · intro direct
      cases direct <;> exact id
    · intro direct f hfl _
      cases direct <;> exact hfl
  | cancel | elapse =>
    exact h.called rfl id (fun _ => rfl) (fun _ => rfl) (fun _ => id) (fun _ _ hf _ => hf)
  | failWorker => exact h.joined ha rfl (fun direct => attempts_report _ _ direct) id
  | finish =>
    refine h.joined ha rfl (fun direct => attempts_report _ _ direct) ?_
    intro hd
    cases hd
  | worker hm => exact h.workerStep (Core.workerStep_of_move hm)

/-! ## Draining -/

/-- The admission is closed in the end where it was at the start, and nothing was admitted in between. -/
def StaysClosed (c d : Core T E) : Prop :=
  d.state.lifecycle.isClosed = true ∧ d.log.accepted = c.log.accepted

lemma accepted_endWrite : (log.endWrite work result).accepted = log.accepted := by
  rw [WriterLog.endWrite]
  split
  · rfl
  · rfl

lemma staysClosed_workerStep (hc : c.state.lifecycle.isClosed = true)
    (hs : Core.WorkerStep s c d) : StaysClosed c d := by
  cases hs with
  | between hf hto hne => exact ⟨hc, rfl⟩
  | selected hf hsl => exact ⟨hc, rfl⟩
  | invoked hf => exact ⟨hc, rfl⟩
  | skipped hf => exact ⟨hc, rfl⟩
  | answered hf => exact ⟨hc, rfl⟩
  | @completed w r hf =>
    refine ⟨?_, accepted_endWrite w r c.log⟩
    rw [show ((c.complete w r).goto .checking).state.lifecycle = c.state.lifecycle from
      lifecycle_complete _ _]
    exact hc
  | failed hf => exact ⟨hc, rfl⟩
  | finished hf => exact ⟨rfl, rfl⟩
  | @died w e hf => exact ⟨hc, accepted_endWrite w _ c.log⟩

/-- **Once the writer drains nothing is admitted.** -/
theorem nothing_admitted (hc : c.state.lifecycle.isClosed = true)
    (ha : c.apply s op = some d) : StaysClosed c d := by
  cases Core.coreStep_of_apply ha with
  | start hcr =>
    rw [hcr] at hc
    cases hc
  | queued hrunn hroom | direct hrunn hnone =>
    rw [hrunn] at hc
    cases hc
  | refused => exact ⟨hc, rfl⟩
  | drains hlv => exact ⟨rfl, rfl⟩
  | drained hs => exact ⟨hc, rfl⟩
  | retryFailed =>
    obtain ⟨_, _, _, hl⟩ := retryFailed_keeps c.state
    constructor
    · rw [show c.retryFailed.state.lifecycle = c.state.lifecycle from hl]
      exact hc
    · rw [Core.retryFailed]
      split
      · rfl
      · rfl
  | request => exact ⟨hc, rfl⟩
  | cancel => exact ⟨hc, rfl⟩
  | failWorker => exact ⟨hc, rfl⟩
  | finish => exact ⟨rfl, rfl⟩
  | stopped => exact ⟨rfl, rfl⟩
  | worker hm => exact staysClosed_workerStep hc (Core.workerStep_of_move hm)
  | elapse => exact ⟨hc, rfl⟩

end AsterForge.Runtime
