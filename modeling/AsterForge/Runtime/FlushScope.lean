import AsterForge.Runtime.BufferedTrace

/-!
# What a flush and the exit of the worker promise

A flush waits for what was admitted before its first poll, in both lanes; batches that it forces stop at its
watermark; and a write error that it returns is that of a record it waits for.  When the worker exits, a
record that still waits in the direct lane is reported as not attempted.

The last is wrong for a record whose first write has failed and that `retry_failed` has resumed: it waits
without a failure, as if it had just been admitted, and if the worker exits before it is written again it is
reported as not attempted although the sink was called with it.

* `Misreported` — a record in the direct lane is reported as not attempted, and the sink was called with it.
* `ExitsHonestly` — the condition: at the exit of the worker, whoever admitted the record that waits has not
  been answered yet.
* **`flush_scope`** — in every run, the promises hold if and only if all steps meet the condition.
-/

namespace AsterForge.Runtime

open Library BufferState BatchWriter List Option

variable {ι T E : Type} {st : WriterSettings} {c d : Core T E}

/-- A record of the direct lane is reported as not attempted and retryable, and the sink was called with it. -/
def Misreported (c : Core T E) : Prop :=
  ∃ entries ticket, (entries, WriteFailure.notAttempted) ∈ c.log.reports ∧ ticket ∈ entries ∧
    ticket ∈ (c.log.lane true).admitted ∧ ticket ∈ c.log.invoked

/-- Whoever admitted a record that waits in the direct lane has not been answered. -/
def BufferState.Unanswered (state : BufferState (Ticket T) E) : Prop :=
  ∀ pending, state.direct = some pending → pending.failure = none → pending.reply = true

/-- No exit of the worker finds a record in the direct lane that was answered before, and no write of the
direct lane is answered as if it had not been attempted. -/
def ExitsHonestly (w : BatchWriter ι T E) : WriterEvent ι T E → Prop
  | .worker .next =>
    (w.core.worker = .finishing → w.core.state.Unanswered) ∧
      ∀ work, w.core.worker = .completing work (.error .notAttempted) → work.direct = false
  | .call i => ∀ call result, w.calls i = some call → call.phase = .finishing result → w.core.state.Unanswered
  | _ => True

/-- The promises: what a flush that succeeds has seen; what a forced batch contains; what a flush that fails of
a write has met; what is reported as not attempted. -/
structure FlushScope (settings : WriterSettings) (w : BatchWriter ι T E) : Prop where
  ok : ∀ i call, w.calls i = some call → call.phase.result = some (.ok ()) →
    (∀ ticket ∈ call.batchScope, ticket ∈ (w.core.log.lane false).acked) ∧
      ∀ ticket ∈ call.directScope, ticket ∈ (w.core.log.lane true).acked
  forced : ∀ entries, w.core.worker = .selecting →
    w.core.state.selectWork settings w.core.now w.core.preferBatch = some (entries, false) →
    w.core.state.dueOnItsOwn settings w.core.now = false →
      ∃ scope ∈ w.core.log.requests, ∀ ticket ∈ entries, ticket ∈ scope
  failed : ∀ i call failure, w.calls i = some call → call.phase.result = some (.error (.write failure)) →
    ∃ entries ticket, (entries, failure) ∈ w.core.log.reports ∧ ticket ∈ entries ∧
      (ticket ∈ call.batchScope ∨ ticket ∈ call.directScope)
  honest : ¬ Misreported w.core

/-! ## Forced batches -/

lemma WriterInv.forced {w : BatchWriter ι T E} (h : WriterInv st w) {e : List (Ticket T)}
    (hs : w.core.state.selectWork st w.core.now w.core.preferBatch = some (e, false))
    (hd : w.core.state.dueOnItsOwn st w.core.now = false) : ∃ s ∈ w.core.log.requests, ∀ t ∈ e, t ∈ s := by
  have hbatch : w.core.state.nextBatch st w.core.now = some (e, false) := by
    rw [selectWork] at hs
    split at hs
    · split at hs
      · cases hs
      · exact hs
    · exact hs
  rw [nextBatch] at hbatch
  split at hbatch
  · next hready =>
      rw [some.injEq, Prod.mk.injEq] at hbatch
      rw [batchReady, hd, Bool.or_false, Bool.and_eq_true, decide_eq_true_eq] at hready
      have hlt := hready.2
      rw [h.books.batchPersisted] at hlt
      rcases h.asked.reached with hz | ⟨s, hsc, hl⟩
      · rw [hz] at hlt
        exact absurd hlt (Nat.not_lt_zero _)
      · refine ⟨s, hsc, ?_⟩
        rw [← hl] at hlt
        rw [← hbatch.1]
        refine (h.books.balances false).take_subset (h.asked.scopes s hsc) ?_ hlt
        rw [nextBatchSize, h.books.batchPersisted, ← hl, if_neg (by omega)]
        exact Nat.min_le_right _ _
  · cases hbatch

/-! ## Stops -/

/-- The call is a `stop` that has closed the admission. -/
def Call.hasDrained (call : Call T E) : Bool :=
  match call.phase with
  | .draining => false
  | .capturing | .looking | .waiting | .flushed _ => call.stops
  | .locking _ | .joining _ | .failing _ _ | .finishing _ | .stopping _ | .stopped _ => true

/-- Everyone who has admitted a record to the direct lane was answered. -/
def BufferState.Answered (state : BufferState (Ticket T) E) : Prop :=
  ∀ pending, state.direct = some pending → pending.reply = false

/-- The admission is closed by the calls that drain, and those that declare the worker failed have answered
everyone. -/
structure Drained (w : BatchWriter ι T E) : Prop where
  closed : ∀ i call, w.calls i = some call → call.hasDrained = true → w.core.state.lifecycle.isClosed = true
  replied : ∀ i call result, w.calls i = some call → call.phase = .finishing result → w.core.state.Answered

lemma answered_map {s : BufferState (Ticket T) E} (h : s.Answered)
    {change : Direct (Ticket T) E → Direct (Ticket T) E}
    (hc : ∀ old : Direct (Ticket T) E, old.reply = false → (change old).reply = false)
    {p : Direct (Ticket T) E} (hp : s.direct.map change = some p) : p.reply = false := by
  obtain ⟨old, hl, rfl⟩ := map_eq_some_iff.mp hp
  exact hc old (h old hl)

lemma answered_workerStep (h : c.state.Answered) (hs : Core.WorkerStep st c d) : d.state.Answered := by
  cases hs with
  | between hf hto hne => exact h
  | selected hf hsl => exact h
  | invoked hf => exact h
  | skipped hf => exact h
  | answered hf => exact h
  | @completed wr r hf =>
    intro p hp
    have hp : (c.state.complete wr.direct wr.entries.length r).direct = some p := hp
    cases hdir : wr.direct with
    | false =>
      rw [hdir] at hp
      cases r with
      | error f => exact h p hp
      | ok => exact h p hp
    | true =>
      rw [hdir] at hp
      cases r with
      | error f => exact answered_map h (fun _ _ => rfl) hp
      | ok =>
        rw [complete] at hp
        split at hp
        · exact h p hp
        · cases hp
  | failed hf =>
    intro p hp
    exact answered_map h (fun _ _ => rfl) hp
  | finished hf =>
    intro p hp
    refine answered_map h ?_ hp
    intro old hr
    rw [Direct.abandon]
    split
    · rfl
    · exact hr
  | died hf => exact h

lemma answered_apply (h : c.state.Answered) (hc : c.state.lifecycle.isClosed = true) {op : CoreOp T E}
    (ha : c.apply st op = some d) : d.state.Answered := by
  cases Core.coreStep_of_apply ha with
  | start hcr =>
    rw [hcr] at hc
    cases hc
  | queued hrunn hroom | direct hrunn hnone =>
    rw [hrunn] at hc
    cases hc
  | refused => exact h
  | drains hl => exact h
  | drained hs => exact h
  | retryFailed =>
    intro p hp
    have hp : c.state.retryFailed.direct = some p := hp
    rw [retryFailed] at hp
    split at hp
    · exact h p hp
    · refine answered_map h ?_ hp
      intro old hr
      rw [Direct.retry]
      split
      · exact hr
      · exact hr
  | request => exact h
  | cancel => exact h
  | failWorker =>
    intro p hp
    exact answered_map h (fun _ _ => rfl) hp
  | finish =>
    intro p hp
    refine answered_map h ?_ hp
    intro old hr
    rw [Direct.abandon]
    split
    · rfl
    · exact hr
  | stopped => exact h
  | worker hm => exact answered_workerStep h (Core.workerStep_of_move hm)
  | elapse => exact h

section

variable [DecidableEq ι] {w v : BatchWriter ι T E} {i : ι} {cl : Call T E} {m : CallMove ι T E}

lemma hasDrained_next (hn : cl.next w i = some m) (hd : m.call.hasDrained = true) :
    cl.hasDrained = true ∨ m.op = some .beginDrain := by
  cases callStep_of_next hn with
  | drains hp => exact .inr rfl
  | notStarted hp | returns hp hlook =>
    exact .inl (by simpa [Call.hasDrained, Call.goes, hp] using hd)
  | captures hp ht => exact .inl (by simpa [Call.hasDrained, hp] using hd)
  | waits hp | wakes hp => exact .inl (by simpa [Call.hasDrained, Call.goes, hp] using hd)
  | cancels hp hs => exact .inl (by simpa [Call.hasDrained, hp] using hs)
  | locks hp | joins hp => exact .inl (by rw [Call.hasDrained, hp])
  | finds hp hwork | fails hp => exact .inl (by rw [Call.hasDrained, hp])
  | finishes hp | ends hp => exact .inl (by rw [Call.hasDrained, hp])

lemma finishing_next {r : Except (BufferFlushError E) Unit} (hn : cl.next w i = some m)
    (hf : m.call.phase = .finishing r) : cl.hasDrained = true ∧ ∃ cs, m.op = some (.failWorker cs) := by
  cases callStep_of_next hn with
  | fails hp => exact ⟨by rw [Call.hasDrained, hp], _, rfl⟩
  | drains hp => cases hf
  | notStarted hp => cases hf
  | captures hp ht => cases hf
  | returns hp hl => cases hf
  | waits hp => cases hf
  | wakes hp => cases hf
  | cancels hp hs => cases hf
  | locks hp => cases hf
  | joins hp => cases hf
  | finds hp hw => cases hf
  | finishes hp => cases hf
  | ends hp => cases hf

lemma op_of_next {op : CoreOp T E} (hn : cl.next w i = some m) (hop : m.op = some op) :
    (∀ mv, op ≠ .worker mv) ∧ (op = .finish → ∃ rs, cl.phase = .finishing rs) := by
  cases callStep_of_next hn with
  | finishes hp =>
    cases hop
    exact ⟨fun _ h => (by cases h), fun _ => ⟨_, hp⟩⟩
  | @waits r hp =>
    cases r with
    | true =>
      cases hop
      exact ⟨fun _ h => (by cases h), fun h => (by cases h)⟩
    | false => cases hop
  | drains hp | cancels hp hstops =>
    cases hop
    exact ⟨fun _ h => (by cases h), fun h => (by cases h)⟩
  | fails hp | ends hp =>
    cases hop
    exact ⟨fun _ h => (by cases h), fun h => (by cases h)⟩
  | notStarted hp => cases hop
  | captures hp ht => cases hop
  | returns hp hl => cases hop
  | wakes hp => cases hop
  | locks hp => cases hop
  | joins hp => cases hop
  | finds hp hw => cases hop

end

lemma CoreStep.closed (h : CoreStep st c d) (hc : c.state.lifecycle.isClosed = true) :
    d.state.lifecycle.isClosed = true := by
  rcases h with rfl | ⟨op, _, ha⟩
  · exact hc
  · exact (nothing_admitted hc ha).1

lemma CoreStep.answered (h : CoreStep st c d) (hc : c.state.lifecycle.isClosed = true)
    (ha : c.state.Answered) : d.state.Answered := by
  rcases h with rfl | ⟨op, _, hap⟩
  · exact ha
  · exact answered_apply ha hc hap

section

variable [DecidableEq ι] {w v : BatchWriter ι T E}

omit [DecidableEq ι] in
lemma drained_new : Drained (new : BatchWriter ι T E) where
  closed i call h := by cases h
  replied i call result h := by cases h

lemma hasDrained_of_finishing {call : Call T E} {r : Except (BufferFlushError E) Unit}
    (h : call.phase = .finishing r) : call.hasDrained = true := by
  rw [Call.hasDrained, h]

omit [DecidableEq ι] in
lemma Drained.congr (h : Drained w) (hcr : CoreStep st w.core v.core)
    (hcl : ∀ i call, v.calls i = some call → w.calls i = some call ∨
      ((call.hasDrained = true → v.core.state.lifecycle.isClosed = true) ∧
        ∀ r, call.phase = .finishing r → v.core.state.Answered)) : Drained v := by
  constructor
  · intro i call hc hd
    rcases hcl i call hc with hl | hn
    · exact hcr.closed (h.closed i call hl hd)
    · exact hn.1 hd
  · intro i call r hc hp
    rcases hcl i call hc with hl | hn
    · exact hcr.answered (h.closed i call hl (hasDrained_of_finishing hp)) (h.replied i call r hl hp)
    · exact hn.2 r hp

lemma Drained.step (h : Drained w) (hi : WriterInv st w) {e : WriterEvent ι T E}
    (hs : w.Step st e v) : Drained v := by
  have hcore := hi.coreStep hs
  refine h.congr hcore ?_
  intro i call hc
  refine ((step_cases hs).2 i call hc).imp_right ?_
  intro ho
  cases ho with
  | flush deadline | stop deadline =>
    exact ⟨fun hd => (by cases hd), fun r hp => (by cases hp)⟩
  | @next old m hl hn hop =>
    constructor
    · intro hd
      rcases hasDrained_next hn hd with hb | hdr
      · exact hcore.closed (h.closed i old hl hb)
      · exact beginDrain_closes (hop _ hdr)
    · intro r hfn p hpn
      obtain ⟨_, cs, hf⟩ := finishing_next hn hfn
      have happly := hop _ hf
      rw [Core.apply, some.injEq] at happly
      rw [← happly] at hpn
      obtain ⟨b, _, rfl⟩ := map_eq_some_iff.mp
        (show w.core.state.direct.map (Direct.quarantine cs) = some p from hpn)
      rfl
  | @timeout old hl hp =>
    refine ⟨?_, fun r hp => (by cases hp)⟩
    intro hd
    refine hcore.closed (h.closed i old hl ?_)
    simpa [Call.hasDrained, hp] using hd

end

/-! ## What is reported as not attempted -/

/-- A record of the direct lane that was reported as not attempted was not, and there is no worker that would. -/
def Told (c : Core T E) : Prop :=
  ∀ entries ticket, (entries, WriteFailure.notAttempted) ∈ c.log.reports → ticket ∈ entries →
    ticket ∈ (c.log.lane true).admitted → c.worker.isEnded = true ∧ ticket ∉ c.log.invoked

/-- What may be done if reports are to be true. -/
def CoreOp.Honest (c : Core T E) : CoreOp T E → Prop
  | .worker .next => (c.worker = .finishing → c.state.Unanswered) ∧
      ∀ work, c.worker = .completing work (.error .notAttempted) → work.direct = false
  | .finish => c.state.Unanswered ∧ c.state.Answered
  | _ => True

lemma notAttempted_not_failReports (cs : WriteFailureCause E) (s : BufferState (Ticket T) E)
    (e : List (Ticket T)) : (e, WriteFailure.notAttempted) ∉ s.failReports cs := by
  intro hm
  cases (mem_failReports hm).1

lemma Told.congr (h : Told c) (hr : ∀ e t, (e, WriteFailure.notAttempted) ∈ d.log.reports →
      t ∈ e → t ∈ (d.log.lane true).admitted →
      (e, WriteFailure.notAttempted) ∈ c.log.reports ∧ t ∈ (c.log.lane true).admitted)
    (he : c.worker.isEnded = true → d.worker.isEnded = true ∧ d.log.invoked = c.log.invoked) : Told d := by
  intro e t hrp ht hl
  obtain ⟨ho, hm⟩ := hr e t hrp ht hl
  obtain ⟨hg, hn⟩ := h e t ho ht hm
  obtain ⟨hd, hi⟩ := he hg
  exact ⟨hd, hi ▸ hn⟩

lemma busy_of_move {mv : WorkerMove E} (h : c.workerMove st mv = some d) :
    mv = .next ∨ (c.worker ≠ .finishing ∧ ∀ wr r, c.worker ≠ .completing wr r) := by
  cases mv with
  | next => exact .inl rfl
  | wake | returns r =>
    rw [Core.workerMove] at h
    split at h
    · next hwork => simp [hwork]
    · cases h
  | interrupted =>
    rw [Core.workerMove] at h
    split at h
    · next hwork => simp [hwork]
    · cases h
  | panics =>
    rw [Core.workerMove] at h
    split at h
    · next hwork => simp [hwork]
    · next hwork => simp [hwork]
    · cases h
  | dies e =>
    rw [Core.workerMove] at h
    split at h
    · next hwork => simp [hwork]
    · next hwork => simp [hwork]
    · next hwork => simp [hwork]
    · cases h

lemma Told.workerStep (h : Told c) (hb : Books st c) (hfl : Flow c) (htr : Traced c)
    (hh : CoreOp.Honest c (.worker .next : CoreOp T E)) (hs : Core.WorkerStep st c d) : Told d := by
  have hrunn := hs.present.2
  have hnoth : ∀ e t, (e, WriteFailure.notAttempted) ∈ c.log.reports → t ∈ e →
      t ∉ (c.log.lane true).admitted := by
    intro e t hr ht hl
    have hgone := (h e t hr ht hl).1
    rw [hrunn] at hgone
    cases hgone
  intro e t hr ht hl
  cases hs with
  | between _ _ _ | selected _ _ | invoked _ | skipped _ | answered _ =>
    exact absurd hl (hnoth e t hr ht)
  | @completed wr r hf =>
    have hr : (e, WriteFailure.notAttempted) ∈ (c.log.endWrite wr r).reports ++ Core.resultReports wr r := hr
    have hmem : t ∈ (c.log.lane true).admitted := by
      rw [show ((c.complete wr r).goto .checking).log.lane true = (c.log.endWrite wr r).lane true
        from lane_report _ _ true, lane_endWrite] at hl
      split at hl
      · exact hl
      · exact hl
    rw [(endWrite_keeps wr r c.log).1] at hr
    rcases mem_append.mp hr with hd | hn
    · exact absurd hmem (hnoth e t hd ht)
    · cases r with
      | ok => cases hn
      | error f =>
        obtain ⟨rfl, hfa⟩ := Prod.mk.inj (mem_singleton.mp hn)
        have hbatch := hh.2 wr (hfa ▸ hf)
        have hqueued := work_subset hb hfl (show c.worker.work = some wr by rw [hf]; rfl) t ht
        rw [hbatch] at hqueued
        exact absurd hmem (not_mem_other hb hqueued)
  | failed hf =>
    rcases mem_append.mp hr with hd | hn
    · exact absurd ((lane_report _ _ true) ▸ hl) (hnoth e t hd ht)
    · exact absurd hn (notAttempted_not_failReports _ _ _)
  | finished hf =>
    refine ⟨rfl, ?_⟩
    rcases mem_append.mp hr with hd | hn
    · exact absurd ((lane_report _ _ true) ▸ hl) (hnoth e t hd ht)
    · obtain ⟨p, hp, hnn, heq⟩ := mem_finishReports hn
      obtain ⟨rfl, _⟩ := Prod.mk.inj heq
      rw [mem_singleton.mp ht]
      exact htr.not_invoked (by rw [hf]; rfl) hrunn hp (hh.1 hf p hp hnn)
  | @died wr er hf =>
    rw [(endWrite_keeps wr _ c.log).1] at hr
    rw [lane_endWrite] at hl
    split at hl
    · exact absurd hl (hnoth e t hr ht)
    · exact absurd hl (hnoth e t hr ht)

/-- **Whatever is done honestly, what is reported as not attempted was not.** -/
theorem Told.apply (h : Told c) (hb : Books st c) (hf : Flow c) (ht : Traced c)
    {op : CoreOp T E} (hh : op.Honest c) (ha : c.apply st op = some d) : Told d := by
  cases Core.coreStep_of_apply ha with
  | start hc =>
    refine h.congr (fun _ _ hr _ hl => ⟨hr, hl⟩) ?_
    intro hg
    rw [hf.created hc] at hg
    cases hg
  | queued hrn hrm => exact h.congr (fun _ _ hr _ hl => ⟨hr, hl⟩) fun hg => ⟨hg, rfl⟩
  | direct hrn hnn =>
    refine h.congr ?_ fun hg => ⟨hg, rfl⟩
    intro e t hr htc hl
    refine ⟨hr, ?_⟩
    rcases mem_append.mp hl with hd | hn
    · exact hd
    · -- its number is new
      have hknown := ht.knownReports _ hr t htc
      rw [mem_singleton.mp hn] at hknown
      exact absurd (hb.below _ hknown) (Nat.lt_irrefl _)
  | refused => exact h
  | drains hlv => exact h
  | drained hs => exact h
  | retryFailed =>
    refine h.congr ?_ ?_
    · rw [Core.retryFailed]
      split
      · exact fun _ _ hr _ hl => ⟨hr, hl⟩
      · exact fun _ _ hr _ hl => ⟨hr, hl⟩
    · intro hg
      refine ⟨hg, ?_⟩
      rw [Core.retryFailed]
      split
      · rfl
      · rfl
  | request => exact h
  | cancel => exact h
  | failWorker =>
    refine h.congr ?_ fun hg => ⟨hg, rfl⟩
    intro e t hr _ hl
    refine ⟨?_, (lane_report _ _ true) ▸ hl⟩
    rcases mem_append.mp hr with hd | hn
    · exact hd
    · exact absurd hn (notAttempted_not_failReports _ _ _)
  | finish =>
    refine h.congr ?_ fun hg => ⟨hg, rfl⟩
    intro e t hr _ hl
    refine ⟨?_, (lane_report _ _ true) ▸ hl⟩
    rcases mem_append.mp hr with hd | hn
    · exact hd
    · -- everyone was answered, so nobody is told now
      obtain ⟨p, hp, hnn, _⟩ := mem_finishReports hn
      have hwaits := hh.1 p hp hnn
      rw [hh.2 p hp] at hwaits
      cases hwaits
  | stopped => exact h
  | worker hm =>
    refine h.workerStep hb hf ht ?_ (Core.workerStep_of_move hm)
    rcases busy_of_move hm with rfl | ⟨hfn, hcm⟩
    · exact hh
    · exact ⟨fun hw => absurd hw hfn, fun wr hw => absurd hw (hcm wr _)⟩
  | elapse => exact h

/-! ## The condition is exact -/

/-- What every run keeps. -/
structure ScopeInv (settings : WriterSettings) (w : BatchWriter ι T E) : Prop where
  writer : WriterInv settings w
  traced : Traced w.core
  drained : Drained w

lemma scopeInv_new (settings : WriterSettings) : ScopeInv settings (new : BatchWriter ι T E) :=
  ⟨writerInv_new settings, traced_new, drained_new⟩

section

variable [DecidableEq ι] {w v : BatchWriter ι T E} {event : WriterEvent ι T E}

lemma ScopeInv.step (h : ScopeInv st w) (hs : w.Step st event v) : ScopeInv st v := by
  refine ⟨h.writer.step hs, ?_, h.drained.step h.writer hs⟩
  rcases h.writer.coreStep hs with heq | ⟨op, hal, ha⟩
  · rw [heq]
    exact h.traced
  · exact h.traced.apply h.writer.books h.writer.flow hal ha

lemma ScopeInv.told (h : ScopeInv st w) (ht : Told w.core) (hg : ExitsHonestly w event)
    (hs : w.Step st event v) : Told v.core := by
  rcases (step_cases hs).1 with heq | ⟨op, ho, ha⟩
  · rw [heq]
    exact ht
  · refine ht.apply h.writer.books h.writer.flow h.traced ?_ ha
    cases ho with
    | @call i call m op hc hn hop =>
      obtain ⟨hw, hf⟩ := op_of_next hn hop
      cases op with
      | finish =>
        obtain ⟨r, hp⟩ := hf rfl
        exact ⟨hg call r hc hp, h.drained.replied i call r hc hp⟩
      | worker mv => exact absurd rfl (hw mv)
      | start => trivial
      | record it => trivial
      | beginDrain => trivial
      | retryFailed => trivial
      | request t s => trivial
      | cancel => trivial
      | failWorker cs => trivial
      | stopped => trivial
      | elapse dr => trivial
    | worker mv =>
      cases mv with
      | next => exact hg
      | wake => trivial
      | returns r => trivial
      | interrupted => trivial
      | panics => trivial
      | dies e => trivial
    | start => trivial
    | record it => trivial
    | beginDrain => trivial
    | retryFailed => trivial
    | elapse dr => trivial

omit [DecidableEq ι] in
lemma misreported_finish (h : ScopeInv st w) (ha : ¬ w.core.state.Unanswered) {d : Core T E}
    (hl : d.log = w.core.finish.log) : Misreported d := by
  rw [BufferState.Unanswered] at ha
  push Not at ha
  obtain ⟨p, hp, hn, hr⟩ := ha
  refine ⟨[p.item], p.item, ?_, mem_singleton_self _, ?_, ?_⟩
  · rw [hl]
    refine mem_append_right _ ?_
    rw [finishReports, hp]
    simp [hn]
  · rw [hl]
    exact h.writer.books.direct_admitted hp
  · rw [hl]
    exact h.traced.resumed p hp (by simpa using hr) hn

lemma ScopeInv.harm (h : ScopeInv st w) (hg : ¬ ExitsHonestly w event)
    (hs : w.Step st event v) : Misreported v.core := by
  cases event with
  | worker mv =>
    obtain ⟨cr, ha, hv⟩ := map_eq_some_iff.mp (show w.act st (.worker mv) = some v from hs)
    subst hv
    cases mv with
    | next =>
      rw [ExitsHonestly, not_and_or] at hg
      rcases hg with he | has
      · rw [Classical.not_imp] at he
        obtain ⟨hw, han⟩ := he
        rw [Core.apply, Core.workerMove, Core.workerNext, hw, some.injEq] at ha
        exact misreported_finish h han (by rw [← ha]; rfl)
      · push Not at has
        obtain ⟨wr, hw, hd⟩ := has
        rw [Core.apply, Core.workerMove, Core.workerNext, hw, some.injEq] at ha
        have hwork : w.core.worker.work = some wr := by rw [hw]; rfl
        obtain ⟨t, ht⟩ := exists_mem_of_ne_nil _ (h.writer.flow.front wr hwork).1
        have hlane := work_subset h.writer.books h.writer.flow hwork t ht
        rw [ne_eq, Bool.not_eq_false] at hd
        rw [hd] at hlane
        have hcompl : Core.WorkerStep st w.core _ := .completed hw
        have hlater := later_of_workerStep hcompl
        refine ⟨wr.entries, t, ?_, ht, ?_, ?_⟩
        · rw [← ha]
          exact mem_append_right _ (mem_singleton_self _)
        · rw [← ha]
          exact (hlater.admitted true).subset hlane
        · rw [← ha]
          exact hlater.invoked.subset (h.traced.answered wr _ hw rfl t ht)
    | wake => exact absurd trivial hg
    | returns r => exact absurd trivial hg
    | interrupted => exact absurd trivial hg
    | panics => exact absurd trivial hg
    | dies e => exact absurd trivial hg
  | call i =>
    rw [ExitsHonestly] at hg
    push Not at hg
    obtain ⟨call, r, hcl, hp, han⟩ := hg
    obtain ⟨o, ho, hn⟩ := bind_eq_some_iff.mp hs
    rw [hcl] at ho
    cases ho
    obtain ⟨m, hm, hmv⟩ := bind_eq_some_iff.mp hn
    obtain ⟨cr, hc, hv⟩ := map_eq_some_iff.mp hmv
    simp only [Call.next, hp, some.injEq] at hm
    rw [← hm] at hc
    rw [← hv]
    simp only [Core.apply, some.injEq] at hc
    exact misreported_finish h han (by rw [← hc]; rfl)
  | start => exact absurd trivial hg
  | record it => exact absurd trivial hg
  | beginDrain => exact absurd trivial hg
  | retryFailed => exact absurd trivial hg
  | flush i dd => exact absurd trivial hg
  | stop i dd => exact absurd trivial hg
  | timeout i => exact absurd trivial hg
  | drop i => exact absurd trivial hg
  | elapse dr => exact absurd trivial hg

omit [DecidableEq ι] in
lemma misreported_later (h : Misreported c) (hl : Later c d) : Misreported d := by
  obtain ⟨e, t, hr, ht, hln, hi⟩ := h
  exact ⟨e, t, hl.reports.subset hr, ht, (hl.admitted true).subset hln, hl.invoked.subset hi⟩

lemma told_new : Told (Core.new : Core T E) := by
  intro e t hr
  exact absurd hr not_mem_nil

lemma scopeInv_of_run {e : List (WriterEvent ι T E)} (hr : Run (BatchWriter.Step st) new e w) : ScopeInv st w :=
  hr.invariant (fun _ _ _ h hs => h.step hs) (scopeInv_new st)

omit [DecidableEq ι] in
lemma ScopeInv.flushScope (h : ScopeInv st w) (hh : ¬ Misreported w.core) : FlushScope st w where
  ok i call hcall hok := (h.writer.sound i call hcall).ok hok
  forced _ _ hsel hdue := h.writer.forced hsel hdue
  failed i call failure hcall hfail := (h.writer.sound i call hcall).failed failure hfail
  honest := hh

/-- **The promises hold exactly as long as every exit of the worker is honest.**  In every run, the promises
hold in the state it ends in if and only if none of its steps was an exit of the worker that found a record
in the direct lane that had been answered before, or the end of a write of that record that the sink called
not attempted. -/
theorem flush_scope (settings : WriterSettings) {w : BatchWriter ι T E} {events : List (WriterEvent ι T E)}
    (hrun : Run (BatchWriter.Step settings) new events w) :
    FlushScope settings w ↔ Run (Guarded ExitsHonestly (BatchWriter.Step settings)) new events w := by
  have hinv := scopeInv_of_run hrun
  have hkeep : ∀ (s : BatchWriter ι T E) event t, ScopeInv settings s ∧ Told s.core → ExitsHonestly s event →
      BatchWriter.Step settings s event t → ScopeInv settings t ∧ Told t.core :=
    fun s event t hs hg hst => ⟨hs.1.step hst, hs.1.told hs.2 hg hst⟩
  have hharm : ∀ (s : BatchWriter ι T E) event t, ScopeInv settings s ∧ Told s.core → ¬ ExitsHonestly s event →
      BatchWriter.Step settings s event t → ScopeInv settings t ∧ Misreported t.core :=
    fun s event t hs hg hst => ⟨hs.1.step hst, hs.1.harm hg hst⟩
  have hpersist : ∀ (s : BatchWriter ι T E) event t, ScopeInv settings s ∧ Misreported s.core →
      BatchWriter.Step settings s event t → ScopeInv settings t ∧ Misreported t.core :=
    fun s event t hs hst => ⟨hs.1.step hst,
      misreported_later hs.2 ((hs.1.writer.coreStep hst).later hs.1.writer.flow)⟩
  have hgood : ∀ s : BatchWriter ι T E, ScopeInv settings s ∧ Told s.core →
      ¬ (ScopeInv settings s ∧ Misreported s.core) := by
    rintro s ⟨_, htl⟩ ⟨_, e, tc, hr, ht, hl, hi⟩
    exact (htl e tc hr ht hl).2 hi
  have hexact := hrun.harmless_iff_guarded hkeep hharm hpersist hgood ⟨scopeInv_new settings, told_new⟩
  rw [← hexact]
  constructor
  · intro hsc hm
    exact hsc.honest hm.2
  · intro hh
    exact hinv.flushScope fun hm => hh ⟨hinv, hm⟩

end

/-! ## Runs -/

/-- Whether no exit of the worker misreports, where no write fails and no `stop` ends the worker itself. -/
def exitsHonestly (w : BatchWriter ℕ ℕ Unit) : WriterEvent ℕ ℕ Unit → Bool
  | .worker .next =>
    match w.core.worker with
    | .finishing => w.core.state.direct.isNone
    | .completing _ (.error _) => false
    | _ => true
  | .call i =>
    match (w.calls i).map Call.phase with
    | some (.finishing _) => false
    | _ => true
  | _ => true

lemma exitsHonestly_sound (w : BatchWriter ℕ ℕ Unit) (e : WriterEvent ℕ ℕ Unit)
    (h : exitsHonestly w e = true) : ExitsHonestly w e := by
  cases e with
  | worker m =>
    cases m with
    | next =>
      refine ⟨fun hw p hp => ?_, fun wr hw => ?_⟩
      · simp [exitsHonestly, hw, hp] at h
      · simp [exitsHonestly, hw] at h
    | _ => trivial
  | call i =>
    intro c r hc hp
    simp [exitsHonestly, hc, hp] at h
  | _ => trivial

/-- A flush waits for a queued record and for one in the direct lane, which the worker writes one after the
other; then a `stop` waits for the worker to exit. -/
def flushedAndStopped : List (WriterEvent ℕ ℕ Unit) :=
  [.start, .record 1, .record 2, .flush 0 100, .call 0, .call 0, .worker .next, .worker .next, .worker .next,
    .worker (.returns (some (.ok ()))), .worker .next, .worker .next, .worker .next, .worker .next,
    .worker (.returns (some (.ok ()))), .worker .next, .call 0, .call 0, .stop 1 100, .call 1, .call 1, .call 1,
    .call 1, .call 1, .worker .next, .worker .next, .call 1, .call 1]

/-- The flush returns once both records are acknowledged, and the worker exits. -/
theorem flush_scope_flushedAndStopped : ∃ w : BatchWriter ℕ ℕ Unit, FlushScope oneByOne w ∧
    w.calls 0 = some ⟨false, 100, 1, 1, [⟨0, 1⟩], [⟨1, 2⟩], .flushed (.ok ())⟩ ∧
    w.core.worker = .ended none ∧ w.core.log.invoked = [⟨1, 2⟩, ⟨0, 1⟩] := by
  have hobs : (execute (restricted exitsHonestly (next oneByOne)) new flushedAndStopped).map
      (fun w => (w.calls 0, w.core.worker, w.core.log.invoked)) =
      some (some ⟨false, 100, 1, 1, [⟨0, 1⟩], [⟨1, 2⟩], .flushed (.ok ())⟩, .ended none, [⟨1, 2⟩, ⟨0, 1⟩]) := by
    rfl
  obtain ⟨w, hw, hs⟩ := map_eq_some_iff.mp hobs
  simp only [Prod.mk.injEq] at hs
  have hhonest := run_of_execute_restricted exitsHonestly_sound hw
  exact ⟨w, (flush_scope oneByOne (hhonest.mono fun _ _ _ => And.right)).mpr hhonest, hs⟩

/-- The write of an overflow record fails, and is retried while a batch is written.  A stop without a budget
cancels that, and the worker exits before it writes the record again. -/
def resumedAndAbandoned : List (WriterEvent ℕ ℕ Unit) :=
  [.start, .record 1, .record 2, .worker .next, .worker .next, .worker .next,
    .worker (.returns (some (.error ⟨.retryable, .persistence ()⟩))), .worker .next, .worker .next, .worker .next,
    .worker .next, .retryFailed, .stop 0 0, .call 0, .call 0, .call 0, .call 0, .worker .interrupted,
    .worker .next, .worker .next, .worker .next]

/-- The sink was called with the overflow record, which is reported as not attempted. -/
theorem flush_scope_counterexample :
    ¬ ∀ (ι T E : Type) [DecidableEq ι] (settings : WriterSettings) (w : BatchWriter ι T E)
      (events : List (WriterEvent ι T E)),
        Run (BatchWriter.Step settings) new events w → FlushScope settings w := by
  intro h
  have hobs : (execute (next oneByOne) new resumedAndAbandoned).map
      (fun w => (w.core.log.reports, w.core.log.invoked, w.core.log.overflow.admitted)) =
      some ([([⟨1, 2⟩], ⟨.retryable, .persistence ()⟩), ([⟨0, 1⟩], .interrupted .cancelled),
        ([⟨1, 2⟩], .notAttempted)], [⟨1, 2⟩, ⟨0, 1⟩], [⟨1, 2⟩]) := by
    decide +kernel
  obtain ⟨w, hw, hs⟩ := map_eq_some_iff.mp hobs
  simp only [Prod.mk.injEq] at hs
  obtain ⟨hr, hi, ha⟩ := hs
  refine (h _ _ _ oneByOne w _ (run_of_execute hw)).honest ⟨[⟨1, 2⟩], ⟨1, 2⟩, ?_, ?_, ?_, ?_⟩
  · rw [hr]
    simp
  · exact mem_singleton_self _
  · show _ ∈ w.core.log.overflow.admitted
    rw [ha]
    exact mem_singleton_self _
  · rw [hi]
    exact mem_cons_self

end AsterForge.Runtime
