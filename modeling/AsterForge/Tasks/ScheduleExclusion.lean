import AsterForge.Tasks.Schedule

/-!
# One runtime at a time

A claim keeps other runtimes away until it expires, so everything depends on the renewal loop being faster than
the expiry for as long as a runtime works on a firing.  It is not where the loop is stopped too early, together
with the runtime, and where its shortest interval is not shorter than the claim.

* **`scheduled_task_exclusion`** — every run in which claims do not lapse.
-/

namespace AsterForge.Tasks

open Library Db WorkerStage ScheduleSystem Function

variable {ι : Type}

/-! ## Conditions -/

/-- When a firing is claimed, no other runtime works on it under a claim that has expired; when it is
completed, there is a next run that is after it. -/
def Unlapsed (tasks : ι → ScheduledPeriodicTask) (s : ScheduleSystem ι) : ScheduleEvent ι → Prop
  | .claimed i => ∀ j claim expiresAt, j ≠ i → (tasks j).key = (tasks i).key →
      (s.stage j).claim = some claim → UnderClaim s.table claim expiresAt → s.now < expiresAt
  | .completed i interval => ∀ claim finishedAt, s.stage i = .completing claim finishedAt →
      ∃ nextRunAt, nextScheduledRunAt finishedAt interval = some nextRunAt ∧ claim.scheduledAt < nextRunAt
  | _ => True

/-- While a runtime works on a firing without a renewal loop, time does not get to the expiry of the claim; a
renewal does not get to the end of the calendar; there is a next run after a firing that is completed. -/
def RenewedInTime (tasks : ι → ScheduledPeriodicTask) (s : ScheduleSystem ι) : ScheduleEvent ι → Prop
  | .elapsed duration => ∀ i claim expiresAt, (s.stage i).claim = some claim → (s.stage i).renewal = none →
      UnderClaim s.table claim expiresAt → s.now + duration < expiresAt
  | .renewed i => ∃ expiresAt, claimExpiry s.now (tasks i).claimTtl = .ok expiresAt
  | .completed i interval => ∀ claim finishedAt, s.stage i = .completing claim finishedAt →
      ∃ nextRunAt, nextScheduledRunAt finishedAt interval = some nextRunAt ∧ claim.scheduledAt < nextRunAt
  | _ => True

/-! ## The invariant -/

/-- Each runtime that works on a firing does so under the claim in the row of its task, and no other runtime
does. -/
structure ClaimedInv (tasks : ι → ScheduledPeriodicTask) (s : ScheduleSystem ι) : Prop where
  taskId : ∀ i claim, (s.stage i).claim = some claim → claim.taskId = (tasks i).key
  held : ∀ i claim, (s.stage i).claim = some claim → ∃ expiresAt, UnderClaim s.table claim expiresAt
  apart : ∀ i j claim claim', (s.stage i).claim = some claim → (s.stage j).claim = some claim' →
    (tasks i).key = (tasks j).key → i = j
  requested : ∀ i requestedAt, s.stage i = .claiming requestedAt → requestedAt = s.now
  completed : ∀ firing ∈ s.ended, firing.completed = true

variable (ts : ι → ScheduledPeriodicTask) (now : ℤ) (table : ScheduledTaskTable)

lemma ClaimedInv.initial : ClaimedInv ts (.initial ι now table) where
  taskId i claim h := by cases h
  held i claim h := by cases h
  apart i j claim claim' h := by cases h
  requested i requestedAt h := by cases h
  completed firing h := by cases h

/-- Every claim that a runtime works under lasts, and until after the next tick of its renewal loop; the store
accepts a renewal of it. -/
structure LastingInv (tasks : ι → ScheduledPeriodicTask) (s : ScheduleSystem ι) : Prop where
  lasts : ∀ i claim, (s.stage i).claim = some claim → ∃ expiresAt, UnderClaim s.table claim expiresAt ∧
    s.now < expiresAt ∧ ∀ tick, (s.stage i).renewal = some tick → tick < expiresAt
  valid : ∀ i claim, (s.stage i).claim = some claim →
    validateRenewal ⟨claim, s.now, (tasks i).claimTtl⟩ = .ok ()

lemma LastingInv.initial : LastingInv ts (.initial ι now table) where
  lasts i claim h := by cases h
  valid i claim h := by cases h

variable {st : WorkerStage} {claim : ScheduledTaskClaim} {tb : ScheduledTaskTable}

lemma WorkerStage.claim_of_isRunning (h : st.isRunning = true) : ∃ claim, st.claim = some claim := by
  cases st with
  | running claim r => exact ⟨claim, rfl⟩
  | _ => cases h

lemma ClaimedInv.contract {ts : ι → ScheduledPeriodicTask} {s : ScheduleSystem ι}
    (hi : ClaimedInv ts s) : ScheduleContract ts s := by
  refine ⟨?_, hi.completed⟩
  intro i j hne hns hn hr
  by_contra hboth
  obtain ⟨claim, hc⟩ := claim_of_isRunning hr
  obtain ⟨c', hc'⟩ := claim_of_isRunning (Bool.not_eq_false _ ▸ hboth)
  refine hne (hi.apart i j claim c' hc hc' ?_)
  rw [ScheduledPeriodicTask.key, hns, hn, ← ScheduledPeriodicTask.key]

/-! ## What a step does -/

/-- No other runtime works on the firings of a row. -/
def Alone (tasks : ι → ScheduledPeriodicTask) (s : ScheduleSystem ι) (i : ι) : Prop :=
  ∀ j claim, j ≠ i → (s.stage j).claim = some claim → (tasks j).key ≠ (tasks i).key

/-- The claims that other runtimes work under are left alone. -/
def OthersKept (s : ScheduleSystem ι) (table : ScheduledTaskTable) (i : ι) : Prop :=
  ∀ j claim expiresAt, j ≠ i → (s.stage j).claim = some claim → UnderClaim s.table claim expiresAt →
    UnderClaim table claim expiresAt

/-- What becomes of the claim that a runtime works under, with the table that is left. -/
inductive StageMove (tasks : ι → ScheduledPeriodicTask) (s : ScheduleSystem ι) (table : ScheduledTaskTable)
    (i : ι) : ScheduleEvent ι → WorkerStage → Prop
  | unclaimed {event : ScheduleEvent ι} {stage : WorkerStage} (unclaimed : stage.claim = none)
      (requested : ∀ requestedAt, stage = .claiming requestedAt → requestedAt = s.now) :
      StageMove tasks s table i event stage
  | kept {event : ScheduleEvent ι} {stage : WorkerStage} {claim : ScheduledTaskClaim}
      (before : (s.stage i).claim = some claim) (after : stage.claim = some claim)
      (renewal : ∀ tick, stage.renewal = some tick → (s.stage i).renewal = some tick)
      (same : table = s.table) : StageMove tasks s table i event stage
  | granted {claim : ScheduledTaskClaim}
      (granted : ClaimGranted s.table table ((tasks i).claimRequest s.now) claim) (alone : Alone tasks s i) :
      StageMove tasks s table i (.claimed i)
        (.running claim (some (s.now + scheduledClaimRenewInterval (tasks i).claimTtl)))
  | renewed {stage : WorkerStage} {claim : ScheduledTaskClaim} {expiresAt : ℤ}
      (before : (s.stage i).claim = some claim) (after : stage.claim = some claim)
      (expiry : claimExpiry s.now (tasks i).claimTtl = .ok expiresAt) (held : UnderClaim table claim expiresAt)
      (renewal : stage.renewal = some (s.now + scheduledClaimRenewInterval (tasks i).claimTtl)) :
      StageMove tasks s table i (.renewed i) stage
  | refused {stage : WorkerStage} {claim : ScheduledTaskClaim}
      (before : (s.stage i).claim = some claim) (after : stage.claim = some claim) (same : table = s.table)
      (refused : ∀ expiresAt, validateRenewal ⟨claim, s.now, (tasks i).claimTtl⟩ = .ok () →
        claimExpiry s.now (tasks i).claimTtl ≠ .ok expiresAt) :
      StageMove tasks s table i (.renewed i) stage

variable {duplicateKey : Text → DbErr} {tasks : ι → ScheduledPeriodicTask} {s t : ScheduleSystem ι}
  {event : ScheduleEvent ι} {i : ι}

lemma ClaimedInv.frame (hi : ClaimedInv tasks s) (hs : SameElsewhere claim.taskId s.table tb)
    (hti : claim.taskId = (tasks i).key) (ha : Alone tasks s i) : OthersKept s tb i := by
  intro j c' ea hne hc' hh
  refine hs.held ?_ hh
  rw [hi.taskId j c' hc', hti]
  exact ha j c' hne hc'

lemma ClaimedInv.alone (hi : ClaimedInv tasks s) (hc : (s.stage i).claim = some claim) : Alone tasks s i := by
  intro j c' hne hc' hk
  exact hne (hi.apart j i c' claim hc' hc hk)

lemma ClaimedInv.alone_of_granted (hi : ClaimedInv tasks s) (hu : Unlapsed tasks s (.claimed i))
    (hg : ClaimGranted s.table tb ((tasks i).claimRequest s.now) claim) : Alone tasks s i := by
  intro j c' hne hc' hk
  obtain ⟨ea, hh⟩ := hi.held j c' hc'
  have hlasts : s.now < ea := hu j c' ea hne hk hc' hh
  have hsameRow : c'.taskId = claim.taskId := by
    rw [hi.taskId j c' hc', hg.taskId]
    exact hk
  obtain ⟨m, hr, hcr⟩ := hh
  have hfresh : isClaimFresh m s.now = true := UnderClaim.fresh ⟨m, hr, hcr⟩ hr hlasts
  exact Bool.eq_false_iff.mp (hg.stale m (hsameRow ▸ hr)) hfresh

lemma WorkerStage.claim_withRenewal (stage : WorkerStage) (r : Option ℤ) :
    (stage.withRenewal r).claim = stage.claim := by
  cases stage <;> rfl

lemma WorkerStage.renewal_withRenewal {tc : ℤ} (r : Option ℤ)
    (h : st.renewal = some tc) : (st.withRenewal r).renewal = r := by
  cases st with
  | running claim r => rfl
  | stopping claim fa r => rfl
  | _ => cases h

lemma WorkerStage.claim_of_renewal {tc : ℤ} (h : st.renewal = some tc) : ∃ claim, st.claim = some claim := by
  cases st with
  | running claim r => exact ⟨claim, rfl⟩
  | stopping claim fa r => exact ⟨claim, rfl⟩
  | _ => cases h

lemma WorkerStage.afterEnsure_claim (a : Option ScheduledAnswer) :
    (afterEnsure now a).claim = none ∧ ∀ ra, afterEnsure now a = .claiming ra → ra = now := by
  unfold afterEnsure
  split
  case h_1 =>
    refine ⟨rfl, ?_⟩
    rintro ra ⟨⟩
    rfl
  case h_2 =>
    refine ⟨rfl, ?_⟩
    intro ra h
    cases h

lemma WorkerStage.afterClaim_of_none {nt : ℤ} {a : Option ScheduledAnswer}
    (hn : ∀ claim, a ≠ some (.claimed (.ok (some claim)))) : afterClaim nt a = .idle := by
  unfold afterClaim
  split
  case h_1 claim => exact absurd rfl (hn claim)
  case h_2 => rfl

/-- What a move leaves: the claim that the runtime works under is in the row of its task, and no other runtime
works under one of that row. -/
lemma StageMove.claimed (hi : ClaimedInv tasks s) (hm : StageMove tasks s tb i event st)
    (hc : st.claim = some claim) :
    claim.taskId = (tasks i).key ∧ (∃ ea, UnderClaim tb claim ea) ∧ Alone tasks s i := by
  cases hm with
  | unclaimed u rq =>
    rw [u] at hc
    cases hc
  | kept b a r same | refused b a same refused =>
    cases a.symm.trans hc
    rw [same]
    exact ⟨hi.taskId i claim b, hi.held i claim b, hi.alone b⟩
  | granted g al =>
    cases hc
    obtain ⟨ea, -, hh⟩ := g.held
    exact ⟨g.taskId, ⟨ea, hh⟩, al⟩
  | renewed b a e h r =>
    cases a.symm.trans hc
    exact ⟨hi.taskId i claim b, ⟨_, h⟩, hi.alone b⟩

lemma WorkerStage.ne_claiming {ra : ℤ} (h : st.claim = some claim) : st ≠ .claiming ra := by
  rintro rfl
  cases h

lemma StageMove.requested {table : ScheduledTaskTable} {i : ι} {stage : WorkerStage} {ra : ℤ}
    (hm : StageMove tasks s table i event stage) (hs : stage = .claiming ra) : ra = s.now := by
  cases hm with
  | unclaimed u r => exact r ra hs
  | kept b a renewal sm | renewed b a expiry held renewal =>
    exact absurd hs (ne_claiming a)
  | granted g al => cases hs
  | refused b a sm rf => exact absurd hs (ne_claiming a)

/-! ## Claims that last -/

lemma scheduledClaimRenewInterval_lt {ct : ℕ} (hf : renewIntervalFloor < ct) :
    scheduledClaimRenewInterval ct < ct :=
  max_lt (Nat.div_lt_self (Nat.zero_lt_of_lt hf) (by decide)) hf

lemma LastingInv.unlapsed (hl : LastingInv tasks s) (ht : RenewedInTime tasks s event) :
    Unlapsed tasks s event := by
  cases event with
  | claimed i =>
    intro j claim ea hne hk hc hh
    obtain ⟨ea', hh', hls, -⟩ := hl.lasts j claim hc
    rw [hh.unique hh']
    exact hls
  | completed i it => exact ht
  | _ => trivial

lemma LastingInv.elapsed (hl : LastingInv tasks s) {d : ℕ} (htm : RenewedInTime tasks s (.elapsed d))
    (hw : ∀ i, (s.stage i).Waits (s.shutdown i) (s.now + d))
    (hc : (s.stage i).claim = some claim) : ∃ ea, UnderClaim s.table claim ea ∧
      s.now + d < ea ∧ ∀ tc, (s.stage i).renewal = some tc → tc < ea := by
  obtain ⟨ea, hh, -, ht⟩ := hl.lasts i claim hc
  refine ⟨ea, hh, ?_, ht⟩
  cases hrenewal : (s.stage i).renewal with
  | none => exact htm i claim ea hc hrenewal hh
  | some tc =>
    have hbef : s.now + d ≤ tc := by
      have hwait := hw i
      cases hstage : s.stage i with
      | running c' r =>
        rw [hstage] at hrenewal hwait
        cases hrenewal
        exact hwait.2
      | stopping c' fa r =>
        rw [hstage] at hwait
        cases hwait
      | _ =>
        rw [hstage] at hrenewal
        cases hrenewal
    exact hbef.trans_lt (ht tc hrenewal)

lemma LastingInv.move (hl : LastingInv tasks s) (htm : RenewedInTime tasks s event)
    (hf : ∀ i, renewIntervalFloor < (tasks i).claimTtl) (hm : StageMove tasks s tb i event st)
    (hc : st.claim = some claim) :
    (∃ ea, UnderClaim tb claim ea ∧ s.now < ea ∧ ∀ tc, st.renewal = some tc → tc < ea) ∧
    validateRenewal ⟨claim, s.now, (tasks i).claimTtl⟩ = .ok () := by
  have hinterval : scheduledClaimRenewInterval (tasks i).claimTtl < (tasks i).claimTtl :=
    scheduledClaimRenewInterval_lt (hf i)
  cases hm with
  | unclaimed u rq =>
    rw [u] at hc
    cases hc
  | kept b a r sm =>
    cases a.symm.trans hc
    rw [sm]
    obtain ⟨ea, hh, hls, htc⟩ := hl.lasts i claim b
    exact ⟨⟨ea, hh, hls, fun tc ht => htc tc (r tc ht)⟩, hl.valid i claim b⟩
  | granted g al =>
    cases hc
    obtain ⟨ea, he, hh⟩ := g.held
    have hexp : ea = s.now + (tasks i).claimTtl := claimExpiry_eq_ok he
    refine ⟨⟨ea, hh, by omega, ?_⟩, validateRenewal_of_granted g s.now⟩
    rintro tc ⟨⟩
    omega
  | @renewed _ _ ea b a e h r =>
    cases a.symm.trans hc
    have hexp : ea = s.now + (tasks i).claimTtl := claimExpiry_eq_ok e
    refine ⟨⟨ea, h, by omega, ?_⟩, hl.valid i claim b⟩
    intro tc ht
    cases r.symm.trans ht
    omega
  | refused b a sm rf =>
    cases a.symm.trans hc
    obtain ⟨ea, he⟩ := htm
    exact absurd he (rf ea (hl.valid i claim b))

/-! ## Steps -/

variable [DecidableEq ι]

/-- What a step does to the clock, to a shutdown token, or to the work of one runtime. -/
inductive ScheduleMove (tasks : ι → ScheduledPeriodicTask) (s : ScheduleSystem ι) :
    ScheduleEvent ι → ScheduleSystem ι → Prop
  | elapsed (duration : ℕ) (waits : ∀ i, (s.stage i).Waits (s.shutdown i) (s.now + duration)) :
      ScheduleMove tasks s (.elapsed duration) { s with now := s.now + duration }
  | cancelled (i : ι) : ScheduleMove tasks s (.cancelled i) { s with shutdown := update s.shutdown i true }
  | moved {event : ScheduleEvent ι} {i : ι} {stage : WorkerStage} {table : ScheduledTaskTable}
      {ended : List (EndedFiring ι)} (move : StageMove tasks s table i event stage)
      (others : OthersKept s table i) (completed : ∀ firing ∈ ended, firing.completed = true) :
      ScheduleMove tasks s event ({ s with table := table, ended := ended }.moved i stage)

lemma ClaimedInv.move_alone (hi : ClaimedInv tasks s)
    (hm : StageMove tasks s s.table i event st) : ScheduleMove tasks s event (s.moved i st) :=
  .moved hm (fun _ _ _ _ _ hh => hh) hi.completed

/-- **A step**, as long as claims have not lapsed when they are taken over. -/
theorem ScheduleStep.move (hi : ClaimedInv tasks s) (hs : ScheduleStep duplicateKey tasks s event t)
    (hu : Unlapsed tasks s event) : ScheduleMove tasks s event t := by
  cases hs with
  | elapsed d w => exact .elapsed d w
  | cancelled i => exact .cancelled i
  | @began i il g =>
    have hkeeps := ensureScheduledTask_keeps duplicateKey s.table ((tasks i).catalogEntry s.now)
    obtain ⟨hun, hr⟩ := WorkerStage.afterEnsure_claim s.now
      (ensureScheduledTask duplicateKey s.table ((tasks i).catalogEntry s.now)).2
    exact .moved (.unclaimed hun hr) (fun j claim ea _ _ hh => hkeeps claim ea hh) hi.completed
  | @claimed i ra cl =>
    cases hi.requested i ra cl
    unfold ScheduleSystem.claimed
    dsimp only
    obtain ⟨claim, ha, hg⟩ | ⟨huc, hnn⟩ :=
      claimScheduledTask_cases duplicateKey s.table ((tasks i).claimRequest s.now)
    · have halone := hi.alone_of_granted hu hg
      rw [ha]
      exact .moved (.granted hg halone) (hi.frame hg.elsewhere hg.taskId halone) hi.completed
    · rw [WorkerStage.afterClaim_of_none hnn, huc]
      exact hi.move_alone (.unclaimed rfl nofun)
  | @renewed i claim f due =>
    obtain ⟨ea, hh⟩ := hi.held i claim f
    have hafter : ∀ r, ((s.stage i).withRenewal r).claim = some claim := fun r =>
      ((s.stage i).claim_withRenewal r).trans f
    unfold ScheduleSystem.renewed
    dsimp only
    obtain ⟨ea', -, hex, ha, hh', he⟩ | ⟨e, ha, hrf⟩ :=
      renewScheduledTaskClaim_cases duplicateKey ⟨claim, s.now, (tasks i).claimTtl⟩ hh
    · rw [ha]
      exact .moved (.renewed f (hafter _) hex hh' (WorkerStage.renewal_withRenewal _ due))
        (hi.frame he (hi.taskId i claim f) (hi.alone f)) hi.completed
    · rw [ha]
      exact hi.move_alone (.refused f (hafter _) rfl hrf)
  | @renewalStopped i tc rn st =>
    obtain ⟨claim, hc⟩ := WorkerStage.claim_of_renewal rn
    refine hi.move_alone (.kept hc (((s.stage i).claim_withRenewal none).trans hc) ?_ rfl)
    intro tc' ht'
    rw [WorkerStage.renewal_withRenewal none rn] at ht'
    cases ht'
  | @finished i claim r rg =>
    refine hi.move_alone (.kept (congrArg WorkerStage.claim rg) rfl ?_ rfl)
    intro tc ht
    rw [rg]
    exact ht
  | @joined i claim fa st =>
    exact hi.move_alone (.kept (congrArg WorkerStage.claim st) rfl nofun rfl)
  | @recorded i claim fa rc =>
    exact hi.move_alone (.kept (congrArg WorkerStage.claim rc) rfl nofun rfl)
  | @completed i claim fa c it =>
    have hc : (s.stage i).claim = some claim := congrArg WorkerStage.claim c
    obtain ⟨ea, hh⟩ := hi.held i claim hc
    obtain ⟨nra, hn, hm⟩ := hu claim fa c
    obtain ⟨ha, he⟩ :=
      completeScheduledTask_held duplicateKey ⟨claim, fa, nra⟩ hh hm
    unfold ScheduleSystem.completed
    rw [hn]
    dsimp only
    rw [ha]
    refine .moved (.unclaimed rfl nofun)
      (hi.frame he (hi.taskId i claim hc) (hi.alone hc)) ?_
    rintro f (_ | ⟨_, hf⟩)
    · rfl
    · exact hi.completed f hf
  | @quit i il a => exact hi.move_alone (.unclaimed rfl nofun)

/-! ## Runtimes apart -/

lemma ScheduleSystem.moved_self (s : ScheduleSystem ι) (i : ι) (stage : WorkerStage) :
    (s.moved i stage).stage i = stage := update_self ..

lemma ScheduleSystem.moved_of_ne (s : ScheduleSystem ι) {j : ι} (hne : j ≠ i) (stage : WorkerStage) :
    (s.moved i stage).stage j = s.stage j := update_of_ne hne ..

/-- **One step** keeps runtimes apart. -/
theorem ClaimedInv.step (hi : ClaimedInv tasks s) (hm : ScheduleMove tasks s event t) : ClaimedInv tasks t := by
  cases hm with
  | elapsed d w =>
    refine ⟨hi.taskId, hi.held, hi.apart, ?_, hi.completed⟩
    intro i ra hcl
    have hwaits := w i
    rw [show s.stage i = .claiming ra from hcl] at hwaits
    cases hwaits
  | cancelled i => exact { hi with }
  | @moved _ i st tb e m o c =>
    refine ⟨?_, ?_, ?_, ?_, c⟩
    · intro j claim hc
      by_cases hne : j = i
      · subst hne
        rw [moved_self] at hc
        exact (m.claimed hi hc).1
      · rw [moved_of_ne _ hne] at hc
        exact hi.taskId j claim hc
    · intro j claim hc
      by_cases hne : j = i
      · subst hne
        rw [moved_self] at hc
        exact (m.claimed hi hc).2.1
      · rw [moved_of_ne _ hne] at hc
        obtain ⟨ea, hh⟩ := hi.held j claim hc
        exact ⟨ea, o j claim ea hne hc hh⟩
    · intro j k claim cl' hc hc' hky
      by_cases hj : j = i
      · by_cases hk : k = i
        · rw [hj, hk]
        · rw [hj, moved_self] at hc
          rw [moved_of_ne _ hk] at hc'
          exact absurd (hj ▸ hky.symm) ((m.claimed hi hc).2.2 k cl' hk hc')
      · rw [moved_of_ne _ hj] at hc
        by_cases hk : k = i
        · rw [hk, moved_self] at hc'
          exact absurd (hk ▸ hky) ((m.claimed hi hc').2.2 j claim hj hc)
        · rw [moved_of_ne _ hk] at hc'
          exact hi.apart j k claim cl' hc hc' hky
    · intro j ra hcl
      by_cases hne : j = i
      · subst hne
        rw [moved_self] at hcl
        exact m.requested hcl
      · rw [moved_of_ne _ hne] at hcl
        exact hi.requested j ra hcl

/-- **One step** that is timely keeps claims from expiring. -/
theorem LastingInv.step (hl : LastingInv tasks s) (ht : RenewedInTime tasks s event)
    (hf : ∀ i, renewIntervalFloor < (tasks i).claimTtl) (hm : ScheduleMove tasks s event t) :
    LastingInv tasks t := by
  cases hm with
  | elapsed d w =>
    exact ⟨fun i claim hc => hl.elapsed ht w hc, hl.valid⟩
  | cancelled i => exact ⟨hl.lasts, hl.valid⟩
  | @moved _ i st tb e m o c =>
    refine ⟨?_, ?_⟩
    · intro j claim hc
      by_cases hne : j = i
      · subst hne
        rw [moved_self] at hc ⊢
        exact (hl.move ht hf m hc).1
      · rw [moved_of_ne _ hne] at hc ⊢
        obtain ⟨ea, hh, hls, htc⟩ := hl.lasts j claim hc
        exact ⟨ea, o j claim ea hne hc hh, hls, htc⟩
    · intro j claim hc
      by_cases hne : j = i
      · subst hne
        rw [moved_self] at hc
        exact (hl.move ht hf m hc).2
      · rw [moved_of_ne _ hne] at hc
        exact hl.valid j claim hc

/-! ## Every run -/

variable (duplicateKey tasks)

/-- **One runtime at a time.**  As long as no claim has lapsed when its firing is claimed by another runtime,
and a firing that is completed has a next run, no two runtimes run the body of one task at the same time, and
every firing whose body and recorder have finished is completed by the runtime that ran it.  Claims do not
lapse where their TTL is above the floor of the renewal interval, and time does not reach the expiry of a claim
after its renewal loop was stopped: by a shutdown that comes while the body is running, or for the recorder. -/
theorem scheduled_task_exclusion (now : ℤ) (table : ScheduledTaskTable) : (∀ events s,
      Run (Guarded (Unlapsed tasks) (ScheduleStep duplicateKey tasks)) (.initial ι now table) events s →
        ScheduleContract tasks s) ∧
    ((∀ i, renewIntervalFloor < (tasks i).claimTtl) → ∀ events s,
      Run (Guarded (RenewedInTime tasks) (ScheduleStep duplicateKey tasks)) (.initial ι now table) events s →
        ScheduleContract tasks s) := by
  constructor
  · intro events s hr
    have hi : ClaimedInv tasks s := hr.invariant
      (fun s event t hi hs => hi.step (hs.2.move hi hs.1)) (.initial tasks now table)
    exact hi.contract
  · intro hf events s hr
    have hi : ClaimedInv tasks s ∧ LastingInv tasks s := by
      refine hr.invariant (I := fun s => ClaimedInv tasks s ∧ LastingInv tasks s)
        (fun s event t hb hs => ?_) ⟨.initial tasks now table, .initial tasks now table⟩
      have hmove := hs.2.move hb.1 (hb.2.unlapsed hs.1)
      exact ⟨hb.1.step hmove, hb.2.step hs.1 hf hmove⟩
    exact hi.1.contract

/-! ## Where claims lapse -/

def twoRuntimes (claimTtl : ℕ) : Bool → ScheduledPeriodicTask
  | false => ⟨"files".toList, "sweep".toList, "Sweep".toList, "a".toList, claimTtl⟩
  | true => ⟨"files".toList, "sweep".toList, "Sweep".toList, "b".toList, claimTtl⟩

/-- **A runtime that is shut down** while the body of the task is running: its claim of 30 s is no longer
renewed, and after 30 s another runtime runs the body as well. -/
theorem scheduled_task_exclusion_counterexample :
    ¬ ∀ tasks : Bool → ScheduledPeriodicTask, (∀ i j, i ≠ j → (tasks i).ownerId ≠ (tasks j).ownerId) →
      (∀ i, validateClaimTtl (tasks i).claimTtl = .ok ()) → ∀ events s,
        Run (ScheduleStep (fun _ => ⟨[], none⟩) tasks) (.initial Bool 0 fun _ => none) events s →
          ScheduleContract tasks s := by
  intro hp
  have hrun : Run (ScheduleStep (fun _ => ⟨[], none⟩) (twoRuntimes (30 * second)))
      (.initial Bool 0 fun _ => none)
      [.began false, .claimed false, .cancelled false, .renewalStopped false, .elapsed (30 * second),
        .began true, .claimed true] _ :=
    .cons (.began rfl rfl) <| .cons (.claimed rfl) <| .cons (.cancelled false) <|
      .cons (.renewalStopped rfl rfl) <| .cons (.elapsed _ (by intro i; cases i <;> trivial)) <|
      .cons (.began rfl rfl) <| .cons (.claimed rfl) <| .nil _
  have hcontract := hp (twoRuntimes (30 * second)) (by decide) (by decide) _ _ hrun
  have hidle := hcontract.exclusive false true (by decide) rfl rfl rfl
  cases hidle

end AsterForge.Tasks
