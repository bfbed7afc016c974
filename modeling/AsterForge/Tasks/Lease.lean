import AsterForge.Library.Time

/-!
# Leases of claimed tasks

A worker that has claimed a task holds a lease on it, whose expiry is in the row of the task.  A guard in the
memory of the worker decides whether it may go on: until the lease was not renewed for too long, or until
something has ended it.

* `taskLeaseExpiresAt`, `taskLeaseRenewalTimeout` — how long a row is leased, and for how long the worker
  relies on it.
* **`TaskLeaseGuard.ensureActive_eq_ok`** — when a worker may go on.
-/

namespace AsterForge.Tasks

open Library Option

/-! ## Durations -/

/-- How long a task is leased, from its `processing_stale_secs`. -/
def leaseDuration (processingStaleSecs : ℤ) : ℕ := (max processingStaleSecs 1).toNat * second

def taskLeaseExpiresAt (now processingStaleSecs : ℤ) : ℤ :=
  saturatingAdd now (signedDuration (leaseDuration processingStaleSecs))

def taskLeaseRenewalTimeout (processingStaleSecs : ℤ) (heartbeatSecs : ℕ) : ℕ :=
  max ((max processingStaleSecs 1).toNat - max heartbeatSecs 1) 1 * second

lemma taskLeaseExpiresAt_mono (pss : ℤ) {now l : ℤ} (h : now ≤ l) :
    taskLeaseExpiresAt now pss ≤ taskLeaseExpiresAt l pss := by
  unfold taskLeaseExpiresAt
  rw [saturatingAdd_eq_min, saturatingAdd_eq_min]
  exact min_le_min_right _ (by omega)

/-! ## The guard -/

structure TaskLease where
  taskId : ℤ
  processingToken : ℤ

inductive TaskCoreError
  | leaseLost (taskId processingToken : ℤ)
  | leaseRenewalTimedOut (taskId processingToken : ℤ)
  | cancellationRequested (taskId processingToken : ℤ)
  | workerShutdownRequested (taskId processingToken : ℤ)

inductive TaskLeaseTermination
  | lost
  | renewalTimedOut
  | shutdownRequested
  | cancellationRequested

structure TaskLeaseGuard where
  lease : TaskLease
  renewalTimeout : ℕ
  lastRenewedAt : ℤ
  termination : Option TaskLeaseTermination

namespace TaskLeaseGuard

variable (guard : TaskLeaseGuard)

def new (lease : TaskLease) (renewalTimeout : ℕ) (now : ℤ) : TaskLeaseGuard :=
  ⟨lease, renewalTimeout, now, none⟩

def recordRenewed (now : ℤ) : TaskLeaseGuard :=
  if guard.termination = none then { guard with lastRenewedAt := now } else guard

def error (termination : TaskLeaseTermination) : TaskCoreError :=
  match termination with
  | .lost => .leaseLost guard.lease.taskId guard.lease.processingToken
  | .renewalTimedOut => .leaseRenewalTimedOut guard.lease.taskId guard.lease.processingToken
  | .shutdownRequested => .workerShutdownRequested guard.lease.taskId guard.lease.processingToken
  | .cancellationRequested => .cancellationRequested guard.lease.taskId guard.lease.processingToken

def terminate (termination : TaskLeaseTermination) : TaskLeaseGuard × TaskCoreError :=
  ({ guard with termination := some termination }, guard.error termination)

def markLost : TaskLeaseGuard × TaskCoreError := guard.terminate .lost

def markCancelRequested : TaskLeaseGuard × TaskCoreError := guard.terminate .cancellationRequested

def markShutdownRequested : TaskLeaseGuard × TaskCoreError := guard.terminate .shutdownRequested

/-- Success while the lease is still safe for writes. -/
def ensureActive (shutdown : Bool) (now : ℤ) : TaskLeaseGuard × Except TaskCoreError Unit :=
  match guard.termination with
  | some termination => (guard, .error (guard.error termination))
  | none =>
    if shutdown then Prod.map id .error (guard.terminate .shutdownRequested)
    else if guard.renewalTimeout ≤ now - guard.lastRenewedAt then
      Prod.map id .error (guard.terminate .renewalTimedOut)
    else (guard, .ok ())

variable {gr g' : TaskLeaseGuard}

/-- **A worker may go on** while nothing has ended its guard, no shutdown is requested, and the guard was
renewed within its timeout; the guard stays as it is then. -/
theorem ensureActive_eq_ok {s : Bool} {now : ℤ} :
    gr.ensureActive s now = (g', .ok ()) ↔ g' = gr ∧ gr.termination = none ∧ s = false ∧
        now < gr.lastRenewedAt + gr.renewalTimeout := by
  unfold ensureActive
  constructor
  · intro h
    split at h
    case h_1 => cases h
    case h_2 ha =>
      split_ifs at h with hshutdown htime
      · cases h
      · cases h
      · cases h
        exact ⟨rfl, ha, Bool.eq_false_iff.mpr hshutdown, by omega⟩
  · rintro ⟨rfl, ha, rfl, hr⟩
    rw [ha]
    rw [if_neg Bool.false_ne_true, if_neg (by omega)]

lemma ensureActive_eq_error {s : Bool} {now : ℤ}
    {e : TaskCoreError} (h : gr.ensureActive s now = (g', .error e)) : g'.termination ≠ none := by
  unfold ensureActive at h
  split at h
  case h_1 termination hended =>
    cases h
    rw [hended]
    exact some_ne_none _
  case h_2 =>
    split_ifs at h
    · cases h
      exact some_ne_none _
    · cases h
      exact some_ne_none _
    · cases h

end TaskLeaseGuard

/-! ## Heartbeats -/

/-- Result of an authoritative lease renewal. -/
inductive TaskHeartbeatOutcome
  | renewed
  | lost
  | cancellationRequested

/-- What a heartbeat makes of the guard; the result is an error where the heartbeats end.  A heartbeat that
fails is tried again while the guard allows it. -/
def evaluateHeartbeatResult {E : Type} (guard : TaskLeaseGuard) (shutdown : Bool) (now : ℤ) :
    Except E TaskHeartbeatOutcome → TaskLeaseGuard × Except TaskCoreError Unit
  | .ok .renewed => (guard.recordRenewed now, .ok ())
  | .ok .lost => Prod.map id .error guard.markLost
  | .ok .cancellationRequested => Prod.map id .error guard.markCancelRequested
  | .error _ => guard.ensureActive shutdown now

/-! ## What can become of a guard -/

def TaskLeaseGuard.KeptOrEnded (guard guard' : TaskLeaseGuard) : Prop :=
  guard' = guard ∨ (guard'.termination ≠ none ∧ guard'.renewalTimeout = guard.renewalTimeout)

namespace TaskLeaseGuard

variable (g : TaskLeaseGuard)

lemma terminate_keptOrEnded (t : TaskLeaseTermination) : g.KeptOrEnded (g.terminate t).1 :=
  .inr ⟨some_ne_none _, rfl⟩

lemma ensureActive_keptOrEnded (s : Bool) (now : ℤ) : g.KeptOrEnded (g.ensureActive s now).1 := by
  unfold ensureActive
  split
  case h_1 => exact .inl rfl
  case h_2 =>
    split_ifs
    · exact g.terminate_keptOrEnded _
    · exact g.terminate_keptOrEnded _
    · exact .inl rfl

/-- **A heartbeat** renews a guard that is not ended, or leaves it, or ends it. -/
theorem evaluateHeartbeatResult_cases {E : Type} (s : Bool) (now : ℤ) (r : Except E TaskHeartbeatOutcome) :
    (r = .ok .renewed ∧ g.termination = none ∧
      (evaluateHeartbeatResult g s now r).1 = { g with lastRenewedAt := now }) ∨
    g.KeptOrEnded (evaluateHeartbeatResult g s now r).1 := by
  cases r with
  | error e => exact .inr (g.ensureActive_keptOrEnded s now)
  | ok o =>
    cases o with
    | renewed =>
      by_cases hact : g.termination = none
      · exact .inl ⟨rfl, hact, if_pos hact⟩
      · exact .inr (.inl (if_neg hact))
    | lost | cancellationRequested => exact .inr (g.terminate_keptOrEnded _)

lemma KeptOrEnded.ended {gr g' : TaskLeaseGuard} (h : gr.KeptOrEnded g')
    (he : gr.termination ≠ none) : g'.termination ≠ none := by
  obtain rfl | ⟨he', -⟩ := h
  · exact he
  · exact he'

end TaskLeaseGuard

end AsterForge.Tasks
