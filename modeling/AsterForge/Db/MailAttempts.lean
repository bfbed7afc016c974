import AsterForge.Db.MailOutbox

/-!
# The attempts of a mail outbox

A dispatcher counts the attempts of a row from the row as it was listed.

* **`mailOutbox_attempts_iff`** — where every failure is counted.
-/

namespace AsterForge.Db

open Library Mail Function List Table

variable {config : MailOutboxDispatchConfig} {s t : OutboxSystem} {event : OutboxEvent}

/-! ## Failures and counts -/

def failuresOf (log : List MarkRecord) (id : ℤ) : List MarkRecord :=
  log.filter fun record => record.id = id ∧ record.mark.isFailure = true

/-- The count of a row is the number of its failures; no two of them have left the same count, and the row has
failed for good with the last one that is allowed. -/
structure AttemptsCounted (config : MailOutboxDispatchConfig) (s : OutboxSystem) : Prop where
  byOne : ∀ record ∈ s.log, record.mark.isFailure = true → record.countAfter = record.countBefore + 1
  counted : ∀ id model, s.table id = some model → model.attemptCount = (failuresOf s.log id).length
  distinct : ∀ id, ((failuresOf s.log id).map MarkRecord.countAfter).Nodup
  inTime : ∀ id model, s.table id = some model → failuresOf s.log id ≠ [] →
    config.retryPolicy.maxAttempts ≤ (failuresOf s.log id).length → model.status = .failed

/-- A failure is recorded from the count that its row has, which is the one that the dispatcher has listed. -/
def Recounted (s : OutboxSystem) (event : OutboxEvent) : Prop :=
  ∀ session context mark now model, Marks s event session context mark now model → mark.isFailure = true →
    model.attemptCount = context.attemptCount

/-- Dispatchers mark rows as the policy says. -/
def Delivered (config : MailOutboxDispatchConfig) (s : OutboxSystem) : Prop :=
  ∀ session stats context mark later rest,
    s.dispatchers session = some (.marking stats context mark later rest) →
    ∃ result, mark = deliveryMark config context result

/-- What is true of every state that is reached with counts that are up to date. -/
structure AttemptsInv (config : MailOutboxDispatchConfig) (s : OutboxSystem) : Prop
    extends AttemptsCounted config s where
  delivered : Delivered config s
  present : ∀ id, s.table id = none → failuresOf s.log id = []
  bounded : ∀ id, ∀ record ∈ failuresOf s.log id, record.countAfter ≤ (failuresOf s.log id).length

/-! ## What a mark does to a count -/

lemma deliveryMark_failure {c : MailOutboxDispatchContext} {r : Except Text Text}
    (h : (deliveryMark config c r).isFailure = true) (now : ℤ) (m : MailOutboxModel) :
    (m.marked now (deliveryMark config c r)).attemptCount = c.attemptCount + 1 ∧
      (config.retryPolicy.maxAttempts ≤ c.attemptCount + 1 →
        (m.marked now (deliveryMark config c r)).status = .failed) := by
  cases r with
  | ok sb => cases h
  | error e =>
    by_cases hlast : config.retryPolicy.maxAttempts ≤ c.attemptCount + 1
    · have hmark : deliveryMark config c (.error e) = .permanentFailure (c.attemptCount + 1) _ :=
        if_pos (decide_eq_true hlast)
      rw [hmark]
      exact ⟨rfl, fun _ => rfl⟩
    · have hmark : deliveryMark config c (.error e) = .retry (c.attemptCount + 1) _ _ :=
        if_neg (mt of_decide_eq_true hlast)
      rw [hmark]
      exact ⟨rfl, fun h => absurd h hlast⟩

lemma marked_attemptCount {m : DeliveryMark} (h : m.isFailure = false) (now : ℤ)
    (md : MailOutboxModel) : (md.marked now m).attemptCount = md.attemptCount := by
  cases m with
  | sent sb => rfl
  | retry a rds e => cases h
  | permanentFailure a e => cases h

lemma Delivered.step (h : Delivered config s) (hs : OutboxStep config s event t) : Delivered config t := by
  intro ss st c m l rs hp
  have hworked : workedRow (.marking st c m l rs) = some c.id := rfl
  cases hs with
  | enqueued v f => exact h _ _ _ _ _ _ hp
  | began i =>
    obtain ⟨-, ⟨⟩⟩ | ⟨-, hp⟩ := goes_dispatchers hp
    exact h _ _ _ _ _ _ hp
  | died o =>
    obtain ⟨-, ⟨⟩⟩ | ⟨-, hp⟩ := update_eq_iff.mp hp
    exact h _ _ _ _ _ _ hp
  | listed p found | listingFailed p =>
    obtain ⟨-, hn⟩ | ⟨-, hp⟩ := goes_dispatchers hp
    · cases (afterList_idle hn).symm.trans hworked
    · exact h _ _ _ _ _ _ hp
  | claimed p =>
    obtain ⟨-, hn⟩ | ⟨-, hp⟩ := goes_dispatchers hp
    · cases (afterTryClaim_worked hn hworked).2
    · exact h _ _ _ _ _ _ hp
  | delivered p r =>
    obtain ⟨-, ⟨⟩⟩ | ⟨-, hp⟩ := goes_dispatchers hp
    · exact ⟨r, rfl⟩
    · exact h _ _ _ _ _ _ hp
  | marked p =>
    obtain ⟨-, hn⟩ | ⟨-, hp⟩ := goes_dispatchers hp
    · obtain ⟨sb, l', -, ⟨⟩⟩ := afterMark_worked hn hworked
      exact h _ _ _ _ _ _ p
    · exact h _ _ _ _ _ _ hp

/-! ## What a step does to the counts -/

lemma failuresOf_cons (r : MarkRecord) (log : List MarkRecord) (id : ℤ) : failuresOf (r :: log) id =
    if r.id = id ∧ r.mark.isFailure = true then r :: failuresOf log id
    else failuresOf log id := by
  unfold failuresOf
  rw [filter_cons]
  simp

variable {id : ℤ} {model : MailOutboxModel}

lemma failuresOf_cons_of_not {r : MarkRecord}
    (h : ¬ (r.id = id ∧ r.mark.isFailure = true)) (log : List MarkRecord) :
    failuresOf (r :: log) id = failuresOf log id := by
  rw [failuresOf_cons, if_neg h]

/-- The invariant speaks of the counts of the rows, of the failures and of the marks that are to come. -/
lemma AttemptsInv.congr (h : AttemptsInv config s) (hd : Delivered config t)
    (hlg : ∀ r ∈ t.log, r.mark.isFailure = true → r ∈ s.log) (hf : ∀ id, failuresOf t.log id = failuresOf s.log id)
    (hr : ∀ id model, t.table id = some model →
      (∃ m', s.table id = some m' ∧ m'.attemptCount = model.attemptCount ∧
        (m'.status = .failed → model.status = .failed)) ∨
      s.table id = none ∧ model.attemptCount = 0)
    (hn : ∀ id, t.table id = none → s.table id = none) : AttemptsInv config t where
  byOne := by
    intro r hmm hfl
    exact h.byOne r (hlg r hmm hfl) hfl
  counted := by
    intro id model hm
    rw [hf]
    obtain ⟨m', hm', hc, -⟩ | ⟨hfr, hz⟩ := hr id model hm
    · rw [← hc, h.counted id m' hm']
    · rw [hz, h.present id hfr]
      rfl
  distinct := by
    intro id
    rw [hf]
    exact h.distinct id
  inTime := by
    intro id model hm
    rw [hf]
    intro hs hl
    obtain ⟨m', hm', -, hfd⟩ | ⟨hfr, -⟩ := hr id model hm
    · exact hfd (h.inTime id m' hm' hs hl)
    · exact absurd (h.present id hfr) hs
  delivered := hd
  present := by
    intro id ha
    rw [hf]
    exact h.present id (hn id ha)
  bounded := by
    intro id
    rw [hf]
    exact h.bounded id

lemma AttemptsInv.failed (h : AttemptsInv config s) (hd : Delivered config t) {r : MarkRecord}
    {m' : MailOutboxModel} (hr : s.table r.id = some model)
    (hbf : r.countBefore = model.attemptCount) (ha : r.countAfter = model.attemptCount + 1)
    (hf : r.mark.isFailure = true) (hc : m'.attemptCount = r.countAfter)
    (hls : config.retryPolicy.maxAttempts ≤ r.countAfter → m'.status = .failed)
    (ht : t.table = update s.table r.id (some m')) (hl : t.log = r :: s.log) : AttemptsInv config t := by
  have hcounted := h.counted r.id model hr
  have hself : failuresOf t.log r.id = r :: failuresOf s.log r.id := by
    rw [hl, failuresOf_cons, if_pos ⟨rfl, hf⟩]
  have hother : ∀ id, id ≠ r.id → failuresOf t.log id = failuresOf s.log id := by
    intro id hne
    rw [hl]
    exact failuresOf_cons_of_not (fun hb => hne hb.1.symm) s.log
  refine ⟨⟨?_, ?_, ?_, ?_⟩, hd, ?_, ?_⟩
  · intro r' hm hf'
    rw [hl] at hm
    cases hm with
    | head => rw [ha, hbf]
    | tail _ hm => exact h.byOne r' hm hf'
  · intro id m'' hmd
    rw [ht] at hmd
    obtain ⟨rfl, ⟨⟩⟩ | ⟨hne, hmd⟩ := update_eq_iff.mp hmd
    · rw [hself, hc, ha, hcounted, length_cons, Nat.cast_succ]
    · rw [hother id hne]
      exact h.counted id m'' hmd
  · intro id
    by_cases hs : id = r.id
    · subst hs
      rw [hself, map_cons, nodup_cons]
      refine ⟨?_, h.distinct r.id⟩
      intro hm
      obtain ⟨r', hm, hs⟩ := mem_map.mp hm
      have hbound := h.bounded r.id r' hm
      omega
    · rw [hother id hs]
      exact h.distinct id
  · intro id m'' hmd
    rw [ht] at hmd
    obtain ⟨rfl, ⟨⟩⟩ | ⟨hne, hmd⟩ := update_eq_iff.mp hmd
    · rw [hself, length_cons, Nat.cast_succ, ← hcounted, ← ha]
      exact fun _ => hls
    · rw [hother id hne]
      exact h.inTime id m'' hmd
  · intro id hab
    rw [ht] at hab
    obtain ⟨-, ⟨⟩⟩ | ⟨hne, hab⟩ := update_eq_iff.mp hab
    rw [hother id hne]
    exact h.present id hab
  · intro id r' hm
    by_cases hs : id = r.id
    · subst hs
      rw [hself] at hm ⊢
      rw [length_cons]
      cases hm with
      | head => omega
      | tail _ hm =>
        have hbound := h.bounded r.id r' hm
        omega
    · rw [hother id hs] at hm ⊢
      exact h.bounded id r' hm

lemma absent_of_update {tb : MailOutboxTable} {id' : ℤ}
    (h : update tb id (some model) id' = none) : tb id' = none := by
  obtain ⟨-, ⟨⟩⟩ | ⟨-, ha⟩ := update_eq_iff.mp h
  exact ha

/-- **One step** from counts that are up to date keeps the invariant. -/
theorem AttemptsInv.step (h : AttemptsInv config s) (hg : Recounted s event)
    (hs : OutboxStep config s event t) : AttemptsInv config t := by
  have hdeliv := h.delivered.step hs
  cases outboxStep_change hs with
  | nothing _ tb _ _ log =>
    refine h.congr hdeliv ?_ ?_ ?_ ?_
    · exact fun r hmm _ => log ▸ hmm
    · exact fun id => congrArg (failuresOf · id) log
    · exact fun id model hm => .inl ⟨model, tb ▸ hm, rfl, fun hf => hf⟩
    · exact fun id ha => tb ▸ ha
  | enqueued _ f tb _ _ log =>
    refine h.congr hdeliv ?_ ?_ ?_ ?_
    · exact fun r hmm _ => log ▸ hmm
    · exact fun id => congrArg (failuresOf · id) log
    · intro id model hm
      rw [tb] at hm
      obtain ⟨rfl, ⟨⟩⟩ | ⟨-, hm⟩ := update_eq_iff.mp hm
      · exact .inr ⟨f, rfl⟩
      · exact .inl ⟨model, hm, rfl, fun hf => hf⟩
    · exact fun id ha => absent_of_update (tb ▸ ha)
  | claimed cl tb _ _ log =>
    obtain ⟨row, u⟩ := cl.row
    refine h.congr hdeliv ?_ ?_ ?_ ?_
    · exact fun r hmm _ => log ▸ hmm
    · exact fun id => congrArg (failuresOf · id) log
    · intro id model hm
      rw [tb] at hm
      obtain ⟨rfl, ⟨⟩⟩ | ⟨-, hm⟩ := update_eq_iff.mp hm
      · refine .inl ⟨_, row, rfl, fun hf => ?_⟩
        rw [hf] at u
        cases u
      · exact .inl ⟨model, hm, rfl, fun hf => hf⟩
    · exact fun id ha => absent_of_update (tb ▸ ha)
  | @marked ss c mr now model m tb _ _ log =>
    have hmarks := m
    obtain ⟨ft, st, l, rt, -, hmr, -, hr, hp⟩ := hmarks
    cases hfail : mr.isFailure with
    | false =>
      refine h.congr hdeliv ?_ ?_ ?_ ?_
      · intro r hmm hfl'
        rw [log] at hmm
        cases hmm with
        | head => cases hfail.symm.trans hfl'
        | tail _ hmm => exact hmm
      · intro id
        rw [log]
        exact failuresOf_cons_of_not (fun hb => Bool.false_ne_true (hfail.symm.trans hb.2)) s.log
      · intro id md' hm
        rw [tb] at hm
        obtain ⟨rfl, ⟨⟩⟩ | ⟨-, hm⟩ := update_eq_iff.mp hm
        · refine .inl ⟨model, hr, (marked_attemptCount hfail now model).symm, fun hf => ?_⟩
          cases hp.symm.trans hf
        · exact .inl ⟨md', hm, rfl, fun hf => hf⟩
      · exact fun id ha => absent_of_update (tb ▸ ha)
    | true =>
      have hlisted := hg ss c mr now model m hfail
      obtain ⟨rs, rfl⟩ := h.delivered _ _ _ _ _ _ hmr
      obtain ⟨hc, hl⟩ := deliveryMark_failure hfail now model
      rw [← hlisted] at hc hl
      refine h.failed hdeliv hr rfl hc hfail rfl ?_ tb log
      exact fun hal => hl (hc ▸ hal)

lemma AttemptsInv.recounted (h : AttemptsInv config s) (hs : OutboxStep config s event t)
    (hbo : ∀ r ∈ t.log, r.mark.isFailure = true → r.countAfter = r.countBefore + 1) : Recounted s event := by
  intro ss c m now model hm hf
  have hlog := hm.logged hs
  obtain ⟨f, st, l, rt, -, hmr, -⟩ := hm
  obtain ⟨rs, rfl⟩ := h.delivered _ _ _ _ _ _ hmr
  have hcount := (deliveryMark_failure hf now model).1
  have hone : (model.marked now (deliveryMark config c rs)).attemptCount = model.attemptCount + 1 :=
    hbo (s.record ss c _ now model) (hlog ▸ mem_cons_self) hf
  omega

lemma AttemptsInv.attemptCount_le (h : AttemptsInv config s) (hg : Recounted s event)
    (hs : OutboxStep config s event t) (hr : s.table id = some model) :
    ∃ m', t.table id = some m' ∧ model.attemptCount ≤ m'.attemptCount := by
  have hinv := h.step hg hs
  cases hmodel : t.table id with
  | none =>
    have hlost : s.table id = none := by
      cases outboxStep_change hs with
      | nothing _ tb _ _ _ => exact tb ▸ hmodel
      | enqueued _ _ tb _ _ _ => exact absent_of_update (tb ▸ hmodel)
      | claimed _ tb _ _ _ | marked _ tb _ _ _ => exact absent_of_update (tb ▸ hmodel)
    rw [hr] at hlost
    cases hlost
  | some m' =>
    refine ⟨m', rfl, ?_⟩
    have hsublist : (failuresOf s.log id).Sublist (failuresOf t.log id) := (log_sublist hs).filter _
    rw [h.counted id model hr, hinv.counted id m' hmodel]
    exact Int.ofNat_le.mpr hsublist.length_le

/-! ## Every run -/

lemma AttemptsInv.of_initial (h : s.Initial) : AttemptsInv config s := by
  obtain ⟨he, hi, hl⟩ := h
  have hnone : ∀ id, failuresOf s.log id = [] := by
    intro id
    rw [hl]
    rfl
  have habs : ∀ id model, s.table id ≠ some model := by
    intro id model hr
    rw [he id] at hr
    cases hr
  refine ⟨⟨?_, ?_, ?_, ?_⟩, ?_, ?_, ?_⟩
  · exact fun r hmm => absurd (hl ▸ hmm) not_mem_nil
  · exact fun id model hr => absurd hr (habs id model)
  · exact fun id => hnone id ▸ nodup_nil
  · exact fun id model hr => absurd hr (habs id model)
  · intro ss st c m l rs hm
    rw [hi ss] at hm
    cases hm
  · exact fun id _ => hnone id
  · exact fun id r hmm => absurd (hnone id ▸ hmm) not_mem_nil

/-- **The attempts of the outbox.**  Whatever dispatchers do in whatever order, every failure that is recorded is
counted by one, the count of a row is the number of its failures, no two of its failures leave the same count,
and the row has failed for good with the last failure that is allowed, exactly if every failure is recorded
while its row has the count that the dispatcher has listed; and then no step decreases a count. -/
theorem mailOutbox_attempts_iff {events : List OutboxEvent} (hinitial : s.Initial)
    (hrun : Run (OutboxStep config) s events t) :
    (AttemptsCounted config t ↔ Run (Guarded Recounted (OutboxStep config)) s events t) ∧
    (Run (Guarded Recounted (OutboxStep config)) s events t →
      ∀ event u id model, Guarded Recounted (OutboxStep config) t event u → t.table id = some model →
      ∃ model', u.table id = some model' ∧ model.attemptCount ≤ model'.attemptCount) := by
  have hinv : AttemptsInv config s := .of_initial hinitial
  have hkept : Run (Guarded Recounted (OutboxStep config)) s events t → AttemptsInv config t :=
    fun hg => hg.invariant (fun _ _ _ h hs => h.step hs.1 hs.2) hinv
  refine ⟨⟨?_, fun hg => (hkept hg).toAttemptsCounted⟩, ?_⟩
  · intro hc
    let Miscounted (s : OutboxSystem) : Prop :=
      ∃ r ∈ s.log, r.mark.isFailure = true ∧ r.countAfter ≠ r.countBefore + 1
    have hiff : ¬ Miscounted t ↔ Run (Guarded Recounted (OutboxStep config)) s events t := by
      refine hrun.harmless_iff_guarded (I := AttemptsInv config) ?_ ?_ ?_ ?_ hinv
      · exact fun _ _ _ h hgr hs => h.step hgr hs
      · intro s event t h hgr hs
        by_contra hnone
        refine hgr (h.recounted hs ?_)
        intro r hmm hf
        by_contra hm
        exact hnone ⟨r, hmm, hf, hm⟩
      · rintro s event t ⟨r, hmm, hm⟩ hs
        exact ⟨r, (log_sublist hs).subset hmm, hm⟩
      · rintro s h ⟨r, hmm, hf, hm⟩
        exact hm (h.byOne r hmm hf)
    refine hiff.mp ?_
    rintro ⟨r, hmm, hf, hm⟩
    exact hm (hc.byOne r hmm hf)
  · intro hg event u id model hs hr
    exact (hkept hg).attemptCount_le hs.1 hs.2 hr

/-- The first dispatcher delivers a mail in vain and marks it for a retry; then the second one, which has
listed the row before that, does the same. -/
lemma miscounted_run : ∃ s t e, s.Initial ∧ Run (OutboxStep ⟨10, 60, ⟨6, 1024⟩, []⟩) s e t ∧
    t.log = [⟨1, 1, some 1, .retry 1 5 [], 1, 1⟩, ⟨0, 1, some 0, .retry 1 5 [], 0, 1⟩] := by
  let request : MailOutboxCreate := ⟨['t'], ['a'], none, ['p'], 0, 0⟩
  let start : OutboxSystem := ⟨fun _ => none, fun _ => none, fun _ => none, fun _ => [], []⟩
  have hlisted : Listed (update start.table 1 (some request.model)) 0 (-60 * second) 10
      [(1, request.model)] :=
    listed_single (by decide) (by decide)
  have hrun : Run (OutboxStep ⟨10, 60, ⟨6, 1024⟩, []⟩) start
      [.enqueued 1 request, .began 0, .listed 0 0 (.ok [(1, request.model)]), .began 1,
        .listed 1 0 (.ok [(1, request.model)]), .claimed 0 0 .answered, .delivered 0 (.error []),
        .marked 0 0 .answered, .claimed 1 (5 * second) .answered, .delivered 1 (.error []),
        .marked 1 (5 * second) .answered] _ :=
    .cons (.enqueued rfl rfl) <| .cons (.began rfl) <| .cons (.listed rfl hlisted) <| .cons (.began rfl) <|
      .cons (.listed rfl hlisted) <| .cons (.claimed rfl) <| .cons (.delivered rfl _) <|
      .cons (.marked rfl) <| .cons (.claimed rfl) <| .cons (.delivered rfl _) <| .cons (.marked rfl) <| .nil _
  exact ⟨start, _, _, ⟨fun _ => rfl, fun _ => rfl, rfl⟩, hrun, rfl⟩

/-- Two failures of a row that two dispatchers have listed. -/
theorem mailOutbox_attempts_miscounted : ∃ s t events, (AttemptsCounted ⟨10, 60, ⟨6, 1024⟩, []⟩ t ↔
      Run (Guarded Recounted (OutboxStep ⟨10, 60, ⟨6, 1024⟩, []⟩)) s events t) ∧
    (Run (Guarded Recounted (OutboxStep ⟨10, 60, ⟨6, 1024⟩, []⟩)) s events t →
      ∀ event u id model, Guarded Recounted (OutboxStep ⟨10, 60, ⟨6, 1024⟩, []⟩) t event u →
      t.table id = some model → ∃ model', u.table id = some model' ∧
        model.attemptCount ≤ model'.attemptCount) := by
  obtain ⟨s, t, events, hi, hr, -⟩ := miscounted_run
  exact ⟨s, t, events, mailOutbox_attempts_iff hi hr⟩

/-- **Two failures that are counted as one**: both dispatchers count from the row as they have listed it, before
either of them has claimed it. -/
theorem mailOutbox_attempts_counterexample :
    ¬ ∀ (config : MailOutboxDispatchConfig) s t events, s.Initial → Run (OutboxStep config) s events t →
      AttemptsCounted config t := by
  intro hc
  obtain ⟨s, t, events, hi, hr, hl⟩ := miscounted_run
  have hone := (hc _ s t events hi hr).byOne ⟨1, 1, some 1, .retry 1 5 [], 1, 1⟩ (hl ▸ mem_cons_self) rfl
  revert hone
  decide

end AsterForge.Db
