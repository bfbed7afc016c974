import AsterForge.Runtime.BufferedCalls

/-!
# The record in the direct lane

The direct lane holds one record.  Whoever admitted it waits for an answer, which it gets when the first
write has ended, by the exit of the worker at the latest.  A failed record stays; `retry_failed` may lift the
failure, and then it waits again, although it has been answered.

* `Traced.workerStep`, **`Traced.apply`** — whatever is done keeps it.
-/

namespace AsterForge.Runtime

open Library Direct List Option

variable {T E : Type} {s : WriterSettings} {c d : Core T E}

/-- What the log says about the record in the direct lane.  If it is answered and waits, or could be resumed,
the sink was called with it; if it is not answered, the sink was not, unless that call is not over. -/
structure Traced (c : Core T E) : Prop where
  known : ∀ ticket ∈ c.log.invoked, ticket ∈ c.log.accepted
  knownReports : ∀ report ∈ c.log.reports, ∀ ticket ∈ report.1, ticket ∈ c.log.accepted
  waiting : ∀ pending, c.state.direct = some pending → pending.reply = true → pending.failure = none
  resumed : ∀ pending, c.state.direct = some pending → pending.reply = false → pending.failure = none →
    pending.item ∈ c.log.invoked
  retried : ∀ pending failure, c.state.direct = some pending → pending.failure = some failure →
    failure.isRetryable = true → c.state.lifecycle = .stopped ∨ pending.item ∈ c.log.invoked
  fresh : ∀ pending, c.state.direct = some pending → pending.reply = true → pending.item ∈ c.log.invoked →
    (∃ work, c.worker.work = some work ∧ work.direct = true) ∨ ∃ error, c.worker = .ended (some error)
  written : ∀ work, c.worker = .writing work → ∀ ticket ∈ work.entries, ticket ∈ c.log.invoked
  answered : ∀ work failure, c.worker = .completing work (.error failure) → failure.isRetryable = true →
    ∀ ticket ∈ work.entries, ticket ∈ c.log.invoked

lemma traced_new : Traced (Core.new : Core T E) where
  known ticket h := absurd h not_mem_nil
  knownReports report h := absurd h not_mem_nil
  waiting pending h := by cases h
  resumed pending h := by cases h
  retried pending failure h := by cases h
  fresh pending h := by cases h
  written work h := by cases h
  answered work failure h := by cases h

lemma Traced.called (h : Traced c) (hd : d.state.direct = c.state.direct) (hw : d.worker = c.worker)
    (hl : c.state.lifecycle = .stopped → d.state.lifecycle = .stopped)
    (hi : d.log.invoked = c.log.invoked) (hrp : d.log.reports = c.log.reports)
    (ha : ∀ t ∈ c.log.accepted, t ∈ d.log.accepted) : Traced d := by
  constructor
  · rw [hi]
    exact fun t ht => ha t (h.known t ht)
  · rw [hrp]
    exact fun r hre t ht => ha t (h.knownReports r hre t ht)
  · rw [hd]
    exact h.waiting
  · rw [hd, hi]
    exact h.resumed
  · rw [hd, hi]
    exact fun pending f hp hf hr =>
      (h.retried pending f hp hf hr).imp_left hl
  · rw [hd, hi, hw]
    exact h.fresh
  · rw [hw, hi]
    exact h.written
  · rw [hw, hi]
    exact h.answered

variable {p : Direct (Ticket T) E}

lemma Books.direct_admitted (h : Books s c)
    (hp : c.state.direct = some p) : p.item ∈ (c.log.lane true).admitted := by
  rw [← (h.balances true).admitted_eq]
  simp [BufferState.held, hp]

lemma mem_accepted_of_lane {log : WriterLog T E} {dr : Bool} {t : Ticket T}
    (h : t ∈ (log.lane dr).admitted) : t ∈ log.accepted := by
  cases dr with
  | false => exact mem_append_left _ h
  | true => exact mem_append_right _ h

lemma mem_accepted_of_held (h : Books s c) {dr : Bool} {t : Ticket T}
    (hm : t ∈ c.state.held dr) : t ∈ c.log.accepted := by
  refine mem_accepted_of_lane (show t ∈ (c.log.lane dr).admitted from ?_)
  rw [← (h.balances dr).admitted_eq]
  exact mem_append_right _ hm

variable {wr : WriteWork T}

lemma Books.not_queued (h : Books s c) (hp : c.state.direct = some p)
    (hf : wr.entries <+: c.state.held wr.direct) (hm : p.item ∈ wr.entries) : wr.direct = true := by
  cases hdir : wr.direct with
  | true => rfl
  | false =>
    rw [hdir] at hf
    have hqueued : p.item ∈ (c.log.lane false).admitted := by
      rw [← (h.balances false).admitted_eq]
      exact mem_append_right _ (hf.subset hm)
    exact absurd (h.direct_admitted hp) (not_mem_other h hqueued)

/-- Where the worker is between its writes, the sink was not called with a record that is not answered. -/
lemma Traced.not_invoked (h : Traced c) (hw : c.worker.work = none) (hr : c.worker.isEnded = false)
    (hp : c.state.direct = some p) (hrp : p.reply = true) : p.item ∉ c.log.invoked := by
  intro hi
  rcases h.fresh p hp hrp hi with ⟨wr, hs, _⟩ | ⟨e, he⟩
  · rw [hw] at hs
    cases hs
  · rw [he] at hr
    cases hr

lemma Traced.goes (h : Traced c) (hs : d.state = c.state) (hi : d.log.invoked = c.log.invoked)
    (hr : d.log.reports = c.log.reports) (ha : d.log.accepted = c.log.accepted)
    (hf : ∀ p, c.state.direct = some p → p.reply = true → p.item ∈ c.log.invoked →
      (∃ wr, d.worker.work = some wr ∧ wr.direct = true) ∨ ∃ e, d.worker = .ended (some e))
    (hw : ∀ wr, d.worker = .writing wr → ∀ t ∈ wr.entries, t ∈ c.log.invoked)
    (han : ∀ wr f, d.worker = .completing wr (.error f) → f.isRetryable = true →
      ∀ t ∈ wr.entries, t ∈ c.log.invoked) : Traced d := by
  constructor
  · rw [hi, ha]
    exact h.known
  · rw [hr, ha]
    exact h.knownReports
  · rw [hs]
    exact h.waiting
  · rw [hs, hi]
    exact h.resumed
  · rw [hs, hi]
    exact h.retried
  · rw [hs, hi]
    exact hf
  · rw [hi]
    exact hw
  · rw [hi]
    exact han

lemma Traced.failWorker (h : Traced c) (hbk : Books s c) (cs : WriteFailureCause E)
    (hw : c.worker.work = none) : Traced (c.failWorker cs) := by
  have hquarantined : ∀ p, (c.failWorker cs).state.direct = some p →
      ∃ old, c.state.direct = some old ∧ p = old.quarantine cs := by
    intro p hp
    obtain ⟨old, hl, hq⟩ := map_eq_some_iff.mp (show c.state.direct.map (quarantine cs) = some p from hp)
    exact ⟨old, hl, hq.symm⟩
  constructor
  · exact h.known
  · intro r hrp t ht
    rcases mem_append.mp hrp with hl | hn
    · exact h.knownReports r hl t ht
    · obtain ⟨-, direct, hheld⟩ := BufferState.mem_failReports hn
      exact mem_accepted_of_held hbk (hheld t ht)
  · intro p hp hr
    obtain ⟨old, _, rfl⟩ := hquarantined p hp
    cases hr
  · intro p hp _ hf
    obtain ⟨old, _, rfl⟩ := hquarantined p hp
    rw [quarantine] at hf
    cases hl : old.failure <;> rw [hl] at hf <;> cases hf
  · intro p f hp hf hrt
    obtain ⟨old, hl, rfl⟩ := hquarantined p hp
    cases hbef : old.failure with
    | none =>
      rw [quarantine, hbef] at hf
      cases hf
      cases hrt
    | some b =>
      rw [quarantine, hbef] at hf
      exact h.retried old f hl (hbef.trans hf) hrt
  · intro p hp hr
    obtain ⟨old, _, rfl⟩ := hquarantined p hp
    cases hr
  · intro wr hwr
    rw [show c.worker = .writing wr from hwr] at hw
    cases hw
  · intro wr f hc
    rw [show c.worker = .completing wr (.error f) from hc] at hw
    cases hw

lemma finish_replied (h : Traced c)
    (hp : c.finish.state.direct = some p) : p.reply = false ∧ p.failure ≠ none := by
  obtain ⟨old, hl, ha⟩ := map_eq_some_iff.mp (show c.state.direct.map abandon = some p from hp)
  subst ha
  rw [abandon]
  cases hfail : old.failure with
  | none => exact ⟨rfl, by intro h; cases h⟩
  | some f =>
    refine ⟨?_, by rw [hfail]; intro h; cases h⟩
    cases hreply : old.reply with
    | false => rfl
    | true =>
      rw [h.waiting old hl hreply] at hfail
      cases hfail

lemma mem_finishReports {s : BufferState (Ticket T) E} {r : List (Ticket T) × WriteFailure E}
    (h : r ∈ s.finishReports) :
    ∃ p, s.direct = some p ∧ p.failure = none ∧ r = ([p.item], .notAttempted) := by
  rw [BufferState.finishReports] at h
  split at h
  · next p hpend =>
      split at h
      · next hnone =>
          rw [mem_singleton] at h
          exact ⟨p, hpend, isNone_iff_eq_none.mp hnone, h⟩
      · cases h
  · cases h

lemma Traced.finish (h : Traced c) (hb : Books s c) (hw : c.worker.work = none) : Traced c.finish := by
  constructor
  · exact h.known
  · intro r hrp t ht
    rcases mem_append.mp hrp with hl | hn
    · exact h.knownReports r hl t ht
    · obtain ⟨p, hp, _, rfl⟩ := mem_finishReports hn
      rw [mem_singleton] at ht
      subst ht
      show p.item ∈ c.log.accepted
      exact mem_accepted_of_lane (hb.direct_admitted hp)
  · intro p hp hr
    rw [(finish_replied h hp).1] at hr
    cases hr
  · intro p hp _ hf
    exact absurd hf (finish_replied h hp).2
  · intro p f _ _ _
    exact .inl rfl
  · intro p hp hr
    rw [(finish_replied h hp).1] at hr
    cases hr
  · intro wr hwr
    rw [show c.worker = .writing wr from hwr] at hw
    cases hw
  · intro wr f hc
    rw [show c.worker = .completing wr (.error f) from hc] at hw
    cases hw

lemma Traced.goto (h : Traced c) (hwr : c.worker.work = none) (hrn : c.worker.isEnded = false)
    {w : WorkerPhase T E} (hto : w.work = none) : Traced (c.goto w) := by
  refine h.goes rfl rfl rfl rfl ?_ ?_ ?_
  · intro p hp hr hi
    exact absurd hi (h.not_invoked hwr hrn hp hr)
  · intro wr hw
    rw [show w = .writing wr from hw] at hto
    cases hto
  · intro wr f hc
    rw [show w = .completing wr (.error f) from hc] at hto
    cases hto

lemma work_accepted (hb : Books s c) (hf : Flow c)
    (hw : c.worker.work = some wr) : ∀ t ∈ wr.entries, t ∈ c.log.accepted :=
  fun t ht => mem_accepted_of_lane (work_subset hb hf hw t ht)

lemma Traced.complete (h : Traced c) (hb : Books s c) (hfl : Flow c)
    {r : Except (WriteFailure E) Unit} (hfr : c.worker = .completing wr r) :
    Traced ((c.complete wr r).goto .checking) := by
  have hwork : c.worker.work = some wr := by rw [hfr]; rfl
  have hacc : ((c.complete wr r).goto .checking).log.accepted = c.log.accepted :=
    accepted_endWrite wr r c.log
  have hinv : ((c.complete wr r).goto .checking).log.invoked = c.log.invoked :=
    (endWrite_keeps wr r c.log).2.1
  have hlife : ((c.complete wr r).goto .checking).state.lifecycle = c.state.lifecycle :=
    lifecycle_complete _ _
  have hknown : ∀ rp ∈ ((c.complete wr r).goto .checking).log.reports, ∀ t ∈ rp.1, t ∈ c.log.accepted := by
    intro rp hrp t ht
    have hrp : rp ∈ (c.log.endWrite wr r).reports ++ Core.resultReports wr r := hrp
    rw [(endWrite_keeps wr r c.log).1] at hrp
    rcases mem_append.mp hrp with hl | hn
    · exact h.knownReports rp hl t ht
    · cases r with
      | ok => cases hn
      | error f =>
        rw [mem_singleton.mp hn] at ht
        exact work_accepted hb hfl hwork t ht
  -- what is in the direct lane afterwards is as it was, or was answered with a failure just now
  have hd : ∀ p, ((c.complete wr r).goto .checking).state.direct = some p →
      (wr.direct = false ∧ c.state.direct = some p) ∨ (p.reply = false ∧ p.item ∈ wr.entries ∧
          ∃ f, r = .error f ∧ p.failure = some f) := by
    intro p hp
    obtain ⟨hne, hfn⟩ := hfl.front wr hwork
    obtain ⟨dr, en⟩ := wr
    cases dr with
    | false =>
      refine .inl ⟨rfl, ?_⟩
      cases r with
      | error f => exact hp
      | ok => exact hp
    | true =>
      obtain ⟨old, hl, hen⟩ := entries_of_direct hne hfn
      cases r with
      | error f =>
        have hafter : some { old with reply := false, failure := some f } = some p := by
          rw [← hp]
          simp [Core.complete, Core.goto, BufferState.complete, hl]
        cases hafter
        exact .inr ⟨rfl, by rw [hen]; exact mem_singleton_self _, f, rfl, rfl⟩
      | ok => simp [Core.complete, Core.goto, BufferState.complete, hl] at hp
  constructor
  · rw [hinv, hacc]
    exact h.known
  · rw [hacc]
    exact hknown
  · intro p hp hr
    rcases hd p hp with ⟨_, hl⟩ | ⟨ha, _⟩
    · exact h.waiting p hl hr
    · rw [ha] at hr
      cases hr
  · intro p hp hr hf
    rw [hinv]
    rcases hd p hp with ⟨_, hl⟩ | ⟨_, _, f, _, hs⟩
    · exact h.resumed p hl hr hf
    · rw [hf] at hs
      cases hs
  · intro p f hp hf hrt
    rw [hlife, hinv]
    rcases hd p hp with ⟨_, hl⟩ | ⟨_, hm, o, hrs, hs⟩
    · exact h.retried p f hl hf hrt
    · rw [hf] at hs
      cases hs
      exact .inr (h.answered wr f (hrs ▸ hfr) hrt _ hm)
  · intro p hp hr hm
    rw [hinv] at hm
    rcases hd p hp with ⟨hbt, hl⟩ | ⟨ha, _⟩
    · -- a batch was written, so no call with this record was going on
      rcases h.fresh p hl hr hm with ⟨o, ho, hd⟩ | ⟨e, he⟩
      · rw [hwork, some.injEq] at ho
        rw [← ho, hbt] at hd
        cases hd
      · rw [hfr] at he
        cases he
    · rw [ha] at hr
      cases hr
  · intro o hw
    cases hw
  · intro o f hc
    cases hc

lemma Traced.workerStep (h : Traced c) (hb : Books s c) (hfl : Flow c)
    (hs : Core.WorkerStep s c d) : Traced d := by
  have hrunn := hs.present.2
  have hnot_ended : ∀ e, c.worker ≠ .ended e := by
    intro e he
    rw [he] at hrunn
    cases hrunn
  cases hs with
  | between hf hto hne =>
    refine h.goto ?_ hrunn hto
    rcases hf with hf | hf | hf <;> rw [hf] <;> rfl
  | @selected en dr hf hsl =>
    refine h.goes rfl rfl rfl rfl ?_ ?_ ?_
    · intro p hp hr hi
      exact absurd hi (h.not_invoked (by rw [hf]; rfl) hrunn hp hr)
    · intro wr hw
      cases hw
    · intro wr f hc
      cases hc
  | @invoked wr hf =>
    have hwork : c.worker.work = some wr := by rw [hf]; rfl
    constructor
    · intro t ht
      rcases mem_append.mp ht with hl | hn
      · exact h.known t hl
      · exact work_accepted hb hfl hwork t hn
    · exact h.knownReports
    · exact h.waiting
    · intro p hp hr hfa
      exact mem_append_left _ (h.resumed p hp hr hfa)
    · intro p f hp hfa hrt
      exact (h.retried p f hp hfa hrt).imp_right (mem_append_left _)
    · intro p hp hr hm
      rcases mem_append.mp hm with hl | hn
      · rcases h.fresh p hp hr hl with ⟨o, ho, hd⟩ | ⟨e, he⟩
        · rw [hwork, some.injEq] at ho
          exact .inl ⟨wr, rfl, ho ▸ hd⟩
        · exact absurd he (hnot_ended _)
      · exact .inl ⟨wr, rfl, hb.not_queued hp (hfl.front wr hwork).2 hn⟩
    · intro o hw t ht
      cases hw
      exact mem_append_right _ ht
    · intro o f hc
      cases hc
  | @skipped wr hf =>
    refine h.goes rfl rfl rfl rfl ?_ ?_ ?_
    · intro p hp hr hi
      rcases h.fresh p hp hr hi with ⟨o, ho, hd⟩ | ⟨e, he⟩
      · rw [hf] at ho
        exact .inl ⟨o, ho, hd⟩
      · exact absurd he (hnot_ended _)
    · intro o hw
      cases hw
    · intro o f hc hrt
      cases hc
      cases hrt
  | @answered wr r hf =>
    refine h.goes rfl rfl rfl rfl ?_ ?_ ?_
    · intro p hp hr hi
      rcases h.fresh p hp hr hi with ⟨o, ho, hd⟩ | ⟨e, he⟩
      · rw [hf] at ho
        exact .inl ⟨o, ho, hd⟩
      · exact absurd he (hnot_ended _)
    · intro o hw
      cases hw
    · intro o f hc _
      cases hc
      exact h.written wr hf
  | @completed wr r hf => exact h.complete hb hfl hf
  | failed hf =>
    have hfailed := h.failWorker hb .panicked (by rw [hf]; rfl)
    refine hfailed.goto ?_ ?_ rfl
    · show c.worker.work = none
      rw [hf]
      rfl
    · exact hrunn
  | finished hf =>
    have hfin := h.finish hb (by rw [hf]; rfl)
    refine hfin.goto ?_ ?_ rfl
    · show c.worker.work = none
      rw [hf]
      rfl
    · exact hrunn
  | @died wr e hf =>
    obtain ⟨hrp, hi, _⟩ := endWrite_keeps wr (.error (.interrupted .cancelled)) c.log
    refine h.goes rfl hi hrp (accepted_endWrite wr _ c.log) ?_ ?_ ?_
    · intro p _ _ _
      exact .inr ⟨e, rfl⟩
    · intro o hw
      cases hw
    · intro o f hc
      cases hc

/-- **Whatever is done, the record in the direct lane is traced.** -/
theorem Traced.apply (h : Traced c) (hb : Books s c) (hfl : Flow c) {op : CoreOp T E}
    (hal : op.Allowed c) (hap : c.apply s op = some d) : Traced d := by
  cases Core.coreStep_of_apply hap with
  | start hc =>
    have habs := hfl.created hc
    have hidle : c.worker.work = none ∧ c.worker.isEnded = false := by
      rw [habs]
      exact ⟨rfl, rfl⟩
    have hgoto : Traced (c.goto .checking) := h.goto hidle.1 hidle.2 rfl
    refine hgoto.called rfl rfl ?_ rfl rfl fun _ => id
    intro hs
    rw [show (c.goto .checking).state.lifecycle = .created from hc] at hs
    cases hs
  | queued hrn hrm =>
    refine h.called rfl rfl id rfl rfl fun t ht => ?_
    exact (accepted_accept false _ c.log).mem_iff.mpr (mem_cons_of_mem _ ht)
  | @direct i hrn hn =>
    have hlater : ∀ t ∈ c.log.accepted, t ∈ (c.log.accept true ⟨c.log.accepted.length, i⟩).accepted := by
      intro t ht
      exact (accepted_accept true _ c.log).mem_iff.mpr (mem_cons_of_mem _ ht)
    constructor
    · exact fun t ht => hlater t (h.known t ht)
    · exact fun r hre t ht => hlater t (h.knownReports r hre t ht)
    · intro p hp _
      cases hp
      rfl
    · intro p hp hrp
      cases hp
      cases hrp
    · intro p f hp hf
      cases hp
      cases hf
    · intro p hp _ hi
      cases hp
      -- its number is new
      exact absurd (hb.below _ (h.known _ hi)) (Nat.lt_irrefl _)
    · exact h.written
    · exact h.answered
  | refused => exact h
  | drains hlv =>
    refine h.called rfl rfl ?_ rfl rfl fun _ => id
    intro hs
    exact absurd hs hlv
  | drained hs => exact h
  | retryFailed =>
    have hlog : c.retryFailed.log.invoked = c.log.invoked ∧ c.retryFailed.log.reports = c.log.reports ∧
        c.retryFailed.log.accepted = c.log.accepted := by
      rw [Core.retryFailed]
      split
      · exact ⟨rfl, rfl, rfl⟩
      · exact ⟨rfl, rfl, rfl⟩
    obtain ⟨hi, hrs, ha⟩ := hlog
    by_cases hs : c.state.lifecycle = .stopped
    · have hstate : c.retryFailed.state = c.state := by
        rw [Core.retryFailed, BufferState.retryFailed, if_pos hs]
      refine h.called (by rw [hstate]) rfl ?_ hi hrs ?_
      · rw [hstate]
        exact id
      · rw [ha]
        exact fun _ => id
    · have hresu : ∀ p, c.retryFailed.state.direct = some p →
          ∃ old, c.state.direct = some old ∧ p = old.retry := by
        intro p hp
        rw [show c.retryFailed.state.direct = c.state.direct.map retry by
          simp [Core.retryFailed, BufferState.retryFailed, hs]] at hp
        obtain ⟨old, hl, hrt⟩ := map_eq_some_iff.mp hp
        exact ⟨old, hl, hrt.symm⟩
      have hrp : ∀ old : Direct (Ticket T) E, old.retry.reply = old.reply := by
        intro old
        rw [retry]
        split
        · rfl
        · rfl
      constructor
      · rw [hi, ha]
        exact h.known
      · rw [hrs, ha]
        exact h.knownReports
      · intro p hp hw
        obtain ⟨old, hl, rfl⟩ := hresu p hp
        rw [hrp] at hw
        rw [retry]
        split
        · rfl
        · exact h.waiting old hl hw
      · intro p hp hw hf
        obtain ⟨old, hl, rfl⟩ := hresu p hp
        rw [hrp] at hw
        rw [hi, retry_item]
        cases hbef : old.failure with
        | none => exact h.resumed old hl hw hbef
        | some f =>
          cases hr : f.isRetryable with
          | true =>
            rcases h.retried old f hl hbef hr with hg | hi
            · exact absurd hg hs
            · exact hi
          | false =>
            rw [retry, hbef, any_some, hr, if_neg (by decide), hbef] at hf
            cases hf
      · intro p f hp hf hr
        obtain ⟨old, hl, rfl⟩ := hresu p hp
        rw [hi, retry_item]
        refine .inr ?_
        rw [retry] at hf
        split at hf
        · cases hf
        · rcases h.retried old f hl hf hr with hg | hi
          · exact absurd hg hs
          · exact hi
      · intro p hp hw hm
        obtain ⟨old, hl, rfl⟩ := hresu p hp
        rw [hrp] at hw
        rw [hi, retry_item] at hm
        exact h.fresh old hl hw hm
      · rw [hi]
        exact h.written
      · rw [hi]
        exact h.answered
  | request | cancel => exact h.called rfl rfl id rfl rfl fun _ => id
  | @failWorker cs => exact h.failWorker hb cs (WorkerPhase.work_of_isEnded hal)
  | finish => exact h.finish hb (WorkerPhase.work_of_isEnded hal)
  | stopped => exact h.called rfl rfl (fun _ => rfl) rfl rfl fun _ => id
  | worker hmv => exact h.workerStep hb hfl (Core.workerStep_of_move hmv)
  | elapse => exact h.called rfl rfl id rfl rfl fun _ => id

end AsterForge.Runtime
