import AsterForge.Library.Runs
import AsterForge.Tasks.Lease

/-!
# The guard of a worker and the lease in the row

The expiry that a claim or a heartbeat writes is computed before the store is called; the guard of the worker
counts from the moment at which the worker starts, or at which the heartbeat is answered.  Between the two lies
a call that may take any time.

* `LeasedWorker`, `LeaseStep` — the worker of one processing token, its calls of the store, and its guard.
* **`leaseGuard_conservative`** — what a guard is good for, and exactly when.
-/

namespace AsterForge.Tasks

open Library TaskLeaseGuard

/-! ## A worker and its calls -/

/-- A claim or a heartbeat on its way: the expiry that was computed for it, and whether it is written. -/
structure LeaseCall where
  expiresAt : ℤ
  written : Bool

/-- The worker of one processing token: the clock, the expiry that the row has for this token, the call on its
way, the guard once the worker has started, whether heartbeats go on, and whether a shutdown is requested. -/
structure LeasedWorker where
  clock : ℤ
  expiry : Option ℤ
  call : Option LeaseCall
  guard : Option TaskLeaseGuard
  beating : Bool
  shutdown : Bool

/-- Before the claim. -/
def LeasedWorker.Initial (s : LeasedWorker) : Prop :=
  s.expiry = none ∧ s.call = none ∧ s.guard = none

inductive LeaseEvent
  | passed (duration : ℕ)
  | claimRequested
  | claimRefreshed
  | written
  | claimReturned
  | started
  | heartbeatRequested
  | heartbeatReturned (result : Except Unit TaskHeartbeatOutcome)
  | heartbeatStopped
  | ensured (result : Except TaskCoreError Unit)
  | marked (termination : TaskLeaseTermination)
  | shutdownRequested

variable (lease : TaskLease) (processingStaleSecs : ℤ) (renewalTimeout : ℕ)

/-- What a worker, its heartbeats and the store can do, in any order and with any delay. -/
inductive LeaseStep : LeasedWorker → LeaseEvent → LeasedWorker → Prop
  | passed {s : LeasedWorker} (duration : ℕ) :
      LeaseStep s (.passed duration) { s with clock := s.clock + duration }
  | claimRequested {s : LeasedWorker} (fresh : s.Initial) :
      LeaseStep s .claimRequested
        { s with call := some ⟨taskLeaseExpiresAt s.clock processingStaleSecs, false⟩ }
  | claimRefreshed {s : LeasedWorker} {expiresAt : ℤ} (claiming : s.guard = none)
      (waiting : s.call = some ⟨expiresAt, false⟩) :
      LeaseStep s .claimRefreshed
        { s with call := some ⟨taskLeaseExpiresAt s.clock processingStaleSecs, false⟩ }
  | written {s : LeasedWorker} {expiresAt : ℤ} (waiting : s.call = some ⟨expiresAt, false⟩) :
      LeaseStep s .written { s with expiry := some expiresAt, call := some ⟨expiresAt, true⟩ }
  | claimReturned {s : LeasedWorker} {expiresAt : ℤ} (claiming : s.guard = none)
      (done : s.call = some ⟨expiresAt, true⟩) : LeaseStep s .claimReturned { s with call := none }
  | started {s : LeasedWorker} {expiresAt : ℤ} (claimed : s.expiry = some expiresAt)
      (returned : s.call = none) (fresh : s.guard = none) :
      LeaseStep s .started { s with guard := some (.new lease renewalTimeout s.clock), beating := true }
  | heartbeatRequested {s : LeasedWorker} {guard : TaskLeaseGuard} (processing : s.guard = some guard)
      (beating : s.beating = true) (idle : s.call = none) :
      LeaseStep s .heartbeatRequested
        { s with call := some ⟨taskLeaseExpiresAt s.clock processingStaleSecs, false⟩ }
  | heartbeatReturned {s : LeasedWorker} {guard : TaskLeaseGuard} {call : LeaseCall}
      (processing : s.guard = some guard) (beating : s.beating = true) (waiting : s.call = some call)
      (result : Except Unit TaskHeartbeatOutcome) (honest : result = .ok .renewed → call.written = true) :
      LeaseStep s (.heartbeatReturned result)
        { s with call := none
                 guard := some (evaluateHeartbeatResult guard s.shutdown s.clock result).1
                 beating := (evaluateHeartbeatResult guard s.shutdown s.clock result).2.isOk }
  | heartbeatStopped {s : LeasedWorker} : LeaseStep s .heartbeatStopped { s with beating := false }
  | ensured {s : LeasedWorker} {guard : TaskLeaseGuard} (processing : s.guard = some guard) :
      LeaseStep s (.ensured (guard.ensureActive s.shutdown s.clock).2)
        { s with guard := some (guard.ensureActive s.shutdown s.clock).1 }
  | marked {s : LeasedWorker} {guard : TaskLeaseGuard} (processing : s.guard = some guard)
      (termination : TaskLeaseTermination) :
      LeaseStep s (.marked termination) { s with guard := some (guard.terminate termination).1 }
  | shutdownRequested {s : LeasedWorker} : LeaseStep s .shutdownRequested { s with shutdown := true }

def Conservative (s : LeasedWorker) : Prop :=
  ∀ guard guard', s.guard = some guard → guard.ensureActive s.shutdown s.clock = (guard', .ok ()) →
    ∃ expiresAt, s.expiry = some expiresAt ∧ s.clock < expiresAt

/-- The guard starts to count at an instant from which the row is leased for the timeout of the guard. -/
def Timely (s : LeasedWorker) : LeaseEvent → Prop
  | .started | .heartbeatReturned (.ok .renewed) =>
    ∀ expiresAt, s.expiry = some expiresAt → s.clock + renewalTimeout ≤ expiresAt
  | _ => True

/-! ## The invariant -/

variable {lease processingStaleSecs renewalTimeout} {s t : LeasedWorker} {event : LeaseEvent}

/-- What is true while the guard starts to count in time: leases are written in the order in which they were
computed, and the guard of a worker does not outlast the lease in the row. -/
structure LeasedInv (processingStaleSecs : ℤ) (renewalTimeout : ℕ) (s : LeasedWorker) : Prop where
  expiry : ∀ expiresAt, s.expiry = some expiresAt → expiresAt ≤ taskLeaseExpiresAt s.clock processingStaleSecs
  call : ∀ call, s.call = some call → call.expiresAt ≤ taskLeaseExpiresAt s.clock processingStaleSecs ∧
    ∀ expiresAt, s.expiry = some expiresAt → expiresAt ≤ call.expiresAt
  guard : ∀ guard, s.guard = some guard → guard.renewalTimeout = renewalTimeout ∧
    ∃ expiresAt, s.expiry = some expiresAt ∧
      (guard.termination = none → guard.lastRenewedAt + renewalTimeout ≤ expiresAt)

lemma LeasedInv.guard_of_kept {g g' : TaskLeaseGuard}
    (hinv : LeasedInv processingStaleSecs renewalTimeout s) (hg : s.guard = some g) (hk : g.KeptOrEnded g') :
    g'.renewalTimeout = renewalTimeout ∧ ∃ ea, s.expiry = some ea ∧
      (g'.termination = none → g'.lastRenewedAt + renewalTimeout ≤ ea) := by
  obtain ⟨ht, ea, hex, hl⟩ := hinv.guard g hg
  obtain rfl | ⟨he, hs⟩ := hk
  · exact ⟨ht, ea, hex, hl⟩
  · exact ⟨hs.trans ht, ea, hex, fun ha => absurd ha he⟩

/-- **One step** that is timely keeps the invariant. -/
theorem LeasedInv.step (hinv : LeasedInv processingStaleSecs renewalTimeout s)
    (hstep : LeaseStep lease processingStaleSecs renewalTimeout s event t)
    (ht : Timely renewalTimeout s event) : LeasedInv processingStaleSecs renewalTimeout t := by
  have hreq : ∀ c, some (⟨taskLeaseExpiresAt s.clock processingStaleSecs, false⟩ : LeaseCall) =
      some c → c.expiresAt ≤ taskLeaseExpiresAt s.clock processingStaleSecs ∧
        ∀ ea, s.expiry = some ea → ea ≤ c.expiresAt := by
    rintro c ⟨⟩
    exact ⟨le_rfl, hinv.expiry⟩
  cases hstep with
  | passed d =>
    have hlater : taskLeaseExpiresAt s.clock processingStaleSecs ≤
        taskLeaseExpiresAt (s.clock + d) processingStaleSecs :=
      taskLeaseExpiresAt_mono processingStaleSecs (by omega)
    refine ⟨fun ea he => (hinv.expiry ea he).trans hlater, ?_, hinv.guard⟩
    intro c hcl
    obtain ⟨hc, ho⟩ := hinv.call c hcl
    exact ⟨hc.trans hlater, ho⟩
  | claimRequested f | claimRefreshed cm w => exact ⟨hinv.expiry, hreq, hinv.guard⟩
  | written w =>
    obtain ⟨hc, ho⟩ := hinv.call _ w
    refine ⟨?_, ?_, ?_⟩
    · rintro ea ⟨⟩
      exact hc
    · rintro c ⟨⟩
      refine ⟨hc, ?_⟩
      rintro ea ⟨⟩
      exact le_rfl
    · intro g hg
      obtain ⟨htm, ea, he, hl⟩ := hinv.guard g hg
      exact ⟨htm, _, rfl, fun ha => (hl ha).trans (ho ea he)⟩
  | claimReturned cm dn => exact ⟨hinv.expiry, nofun, hinv.guard⟩
  | started cl rt f =>
    refine ⟨hinv.expiry, hinv.call, ?_⟩
    rintro g ⟨⟩
    exact ⟨rfl, _, cl, fun _ => ht _ cl⟩
  | heartbeatRequested p b i => exact ⟨hinv.expiry, hreq, hinv.guard⟩
  | @heartbeatReturned g c p b w r hon =>
    refine ⟨hinv.expiry, nofun, ?_⟩
    rintro g' ⟨⟩
    obtain ⟨rfl, -, hr⟩ | hk := g.evaluateHeartbeatResult_cases s.shutdown s.clock r
    · obtain ⟨htm, ea, he, -⟩ := hinv.guard g p
      rw [hr]
      exact ⟨htm, ea, he, fun _ => ht ea he⟩
    · exact hinv.guard_of_kept p hk
  | heartbeatStopped | shutdownRequested => exact { hinv with }
  | ensured p =>
    refine ⟨hinv.expiry, hinv.call, ?_⟩
    rintro g' ⟨⟩
    exact hinv.guard_of_kept p (ensureActive_keptOrEnded ..)
  | marked p tr =>
    refine ⟨hinv.expiry, hinv.call, ?_⟩
    rintro g' ⟨⟩
    exact hinv.guard_of_kept p (terminate_keptOrEnded ..)

lemma LeasedInv.of_initial (h : s.Initial) : LeasedInv processingStaleSecs renewalTimeout s := by
  obtain ⟨he, hc, hg⟩ := h
  refine ⟨?_, ?_, ?_⟩
  · intro ea h
    rw [he] at h
    cases h
  · intro c h
    rw [hc] at h
    cases h
  · intro g h
    rw [hg] at h
    cases h

lemma LeasedInv.conservative (hinv : LeasedInv processingStaleSecs renewalTimeout s) : Conservative s := by
  intro g g' hg hok
  obtain ⟨-, ha, -, hr⟩ := ensureActive_eq_ok.mp hok
  obtain ⟨ht, ea, he, hl⟩ := hinv.guard g hg
  have hl := hl ha
  exact ⟨ea, he, by omega⟩

/-! ## Where the guard starts to count too late -/

section

variable (hi : LeasedInv processingStaleSecs renewalTimeout s)
  (hst : LeaseStep lease processingStaleSecs renewalTimeout s event t) (hlt : ¬ Timely renewalTimeout s event)
include hi hst hlt

variable {g : TaskLeaseGuard}

lemma LeasedInv.counts (hg : t.guard = some g) (ha : g.termination = none) :
    g.lastRenewedAt = t.clock ∧ g.renewalTimeout = renewalTimeout ∧ t.clock = s.clock ∧
      t.expiry = s.expiry := by
  cases hst with
  | started c rt f =>
    cases hg
    exact ⟨rfl, rfl, rfl, rfl⟩
  | @heartbeatReturned g' cl p b w r ho =>
    obtain ⟨ht, -⟩ := hi.guard g' p
    match r with
    | .ok .renewed =>
      replace hg : g'.recordRenewed s.clock = g := Option.some.inj hg
      unfold recordRenewed at hg
      split_ifs at hg with hnone
      · rw [← hg]
        exact ⟨rfl, ht, rfl, rfl⟩
      · rw [← hg] at ha
        exact absurd ha hnone
    | .ok .lost => exact absurd trivial hlt
    | .ok .cancellationRequested => exact absurd trivial hlt
    | .error _ => exact absurd trivial hlt
  | _ => exact absurd trivial hlt

/-- **A guard that starts to count late** lets the worker go on when the lease in the row is expired, if only
time passes. -/
theorem LeasedInv.not_conservative (hg : t.guard = some g)
    (ha : g.termination = none) (hs : t.shutdown = false) (ht : 0 < renewalTimeout) :
    ∃ d u, LeaseStep lease processingStaleSecs renewalTimeout t (.passed d) u ∧ ¬ Conservative u := by
  obtain ⟨hl, hsm, hcl, he⟩ := hi.counts hst hlt hg ha
  obtain ⟨ea, hexp, hlater⟩ : ∃ ea, s.expiry = some ea ∧ ea < s.clock + renewalTimeout := by
    by_contra hnever
    push Not at hnever
    refine hlt ?_
    unfold Timely
    split
    · exact hnever
    · exact hnever
    · trivial
  refine ⟨(ea - t.clock).toNat, _, .passed _, ?_⟩
  intro hc
  obtain ⟨ea', hex', hu⟩ := hc g g hg (ensureActive_eq_ok.mpr ⟨rfl, ha, hs, by
      dsimp only
      omega⟩)
  rw [he, hexp] at hex'
  cases hex'
  dsimp only at hu
  omega

end

/-! ## What has ended a guard -/

def Ended (s : LeasedWorker) : Prop := ∃ guard, s.guard = some guard ∧ guard.termination ≠ none

/-- **One step** does not undo what has ended the guard. -/
theorem Ended.step (he : Ended s)
    (hstep : LeaseStep lease processingStaleSecs renewalTimeout s event t) : Ended t := by
  obtain ⟨g, hg, he⟩ := he
  cases hstep with
  | started c rt f =>
    rw [hg] at f
    cases f
  | @heartbeatReturned g' cl p b w r ho =>
    cases hg.symm.trans p
    refine ⟨_, rfl, ?_⟩
    obtain ⟨-, ha, -⟩ | hk := g.evaluateHeartbeatResult_cases s.shutdown s.clock r
    · exact absurd ha he
    · exact hk.ended he
  | ensured p =>
    cases hg.symm.trans p
    exact ⟨_, rfl, (g.ensureActive_keptOrEnded _ _).ended he⟩
  | marked p tr =>
    exact ⟨_, rfl, (g.terminate_keptOrEnded _).ended he⟩
  | _ => exact ⟨g, hg, he⟩

lemma Ended.of_refused {e : TaskCoreError}
    (hstep : LeaseStep lease processingStaleSecs renewalTimeout s (.ensured (.error e)) t) : Ended t := by
  generalize hres : Except.error e = result at hstep
  generalize hevent : LeaseEvent.ensured result = event at hstep
  cases hstep with
  | @ensured g p =>
    cases hevent
    exact ⟨_, rfl, ensureActive_eq_error (Prod.ext rfl hres.symm)⟩
  | _ => cases hevent

lemma Ended.not_allowed (he : Ended s) :
    ¬ LeaseStep lease processingStaleSecs renewalTimeout s (.ensured (.ok ())) t := by
  intro hstep
  obtain ⟨g, hg, he⟩ := he
  generalize hres : Except.ok () = result at hstep
  generalize hevent : LeaseEvent.ensured result = event at hstep
  cases hstep with
  | @ensured g' p =>
    cases hevent
    cases hg.symm.trans p
    obtain ⟨-, ha, -⟩ := ensureActive_eq_ok.mp (Prod.ext rfl hres.symm)
    exact he ha
  | _ => cases hevent

lemma Ended.run (he : Ended s) {e : List LeaseEvent}
    (hr : Run (LeaseStep lease processingStaleSecs renewalTimeout) s e t) : LeaseEvent.ensured (.ok ()) ∉ e := by
  induction hr with
  | nil s => exact List.not_mem_nil
  | cons hstep hrs ih =>
    rintro (_ | ⟨_, hm⟩)
    · exact he.not_allowed hstep
    · exact ih (he.step hstep) hm

/-! ## Every run -/

/-- **The guard of a worker.**  As long as the guard starts to count, when the worker starts and when a
heartbeat is answered, at an instant from which the row is leased for the timeout of the guard, a worker that
may go on has a lease that is not expired, in every state reached; the first time that the guard starts to
count later than that, the worker is one for which this fails when only time passes.  And, however the guard
counts, once a worker is refused it is never told again that it may go on. -/
theorem leaseGuard_conservative : (∀ s, Reachable LeasedWorker.Initial
        (Guarded (Timely renewalTimeout) (LeaseStep lease processingStaleSecs renewalTimeout)) s →
      Conservative s ∧ ∀ event t guard, LeaseStep lease processingStaleSecs renewalTimeout s event t →
        ¬ Timely renewalTimeout s event → t.guard = some guard → guard.termination = none →
        t.shutdown = false → 0 < renewalTimeout →
        ∃ duration u, LeaseStep lease processingStaleSecs renewalTimeout t (.passed duration) u ∧
          ¬ Conservative u) ∧
    ∀ s t u error events, LeaseStep lease processingStaleSecs renewalTimeout s (.ensured (.error error)) t →
      Run (LeaseStep lease processingStaleSecs renewalTimeout) t events u →
      LeaseEvent.ensured (.ok ()) ∉ events := by
  constructor
  · intro s hr
    have hinv : LeasedInv processingStaleSecs renewalTimeout s :=
      hr.induction (fun _ => .of_initial) fun _ _ _ _ hinv hstep => hinv.step hstep.2 hstep.1
    refine ⟨hinv.conservative, ?_⟩
    intro event t guard hstep hlate hg ha hs ht
    exact hinv.not_conservative hstep hlate hg ha hs ht
  · intro s t u error events hrf hrn
    exact (Ended.of_refused hrf).run hrn

/-- **A worker that is started late**: the row is leased for 60 s, the worker relies on it for 50 s, and the
claim is answered after 20 s.  After 65 s the worker may go on, and the lease in the row is expired. -/
theorem leaseGuard_counterexample : taskLeaseRenewalTimeout 60 10 ≤ leaseDuration 60 ∧
    ¬ ∀ s, Reachable LeasedWorker.Initial (LeaseStep ⟨7, 1⟩ 60 (taskLeaseRenewalTimeout 60 10)) s →
      Conservative s := by
  refine ⟨by decide, fun hc => ?_⟩
  let start : LeasedWorker := ⟨0, none, none, none, false, false⟩
  have hrun : Run (LeaseStep ⟨7, 1⟩ 60 (taskLeaseRenewalTimeout 60 10)) start
      [.claimRequested, .written, .passed (20 * second), .claimReturned, .started, .passed (45 * second)] _ :=
    .cons (.claimRequested ⟨rfl, rfl, rfl⟩) <| .cons (.written rfl) <| .cons (.passed _) <|
      .cons (.claimReturned rfl rfl) <| .cons (.started rfl rfl rfl) <| .cons (.passed _) <| .nil _
  obtain ⟨ea, he, hu⟩ := hc _ ⟨start, _, ⟨rfl, rfl, rfl⟩, hrun⟩ _ _ rfl
    (ensureActive_eq_ok.mpr ⟨rfl, rfl, rfl, by decide⟩)
  cases he
  revert hu
  decide

end AsterForge.Tasks
