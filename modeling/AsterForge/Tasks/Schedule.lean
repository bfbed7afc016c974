import AsterForge.Db.ScheduledSettled

/-!
# Scheduled periodic tasks

A runtime claims a firing of a task, renews the claim in a loop of its own while the body of the task runs,
stops that loop, records the outcome and completes the claim.  The clock is shared and timers are exact: time
does not pass while a timer is due, and calls of the store take no time.

* `ScheduledPeriodicTask`, `scheduledClaimRenewInterval`, `nextScheduledRunAt` — what a runtime is set to do.
-/

namespace AsterForge.Tasks

open Library Db

/-! ## A task -/

structure ScheduledPeriodicTask where
  taskNamespace : Text
  taskName : Text
  displayName : Text
  ownerId : Text
  claimTtl : ℕ

namespace ScheduledPeriodicTask

variable (task : ScheduledPeriodicTask) (now : ℤ)

def catalogEntry : ScheduledTaskCatalogEntry :=
  ⟨task.taskNamespace, task.taskName, task.displayName, now⟩

def claimRequest : ScheduledTaskClaimRequest :=
  ⟨task.taskNamespace, task.taskName, task.ownerId, now, task.claimTtl⟩

def key : Text := taskKey task.taskNamespace task.taskName

end ScheduledPeriodicTask

/-- The shortest interval between renewals, 10 ms. -/
def renewIntervalFloor : ℕ := 10000000

def scheduledClaimRenewInterval (claimTtl : ℕ) : ℕ := max (claimTtl / 3) renewIntervalFloor

def nextScheduledRunAt (finishedAt : ℤ) (interval : ℕ) : Option ℤ := do
  let interval ← checkedSigned interval
  checkedAddSigned finishedAt interval

/-! ## A runtime -/

/-- How far a runtime is.  A renewal loop is known by the instant of its next tick, and is `none` once it has
returned. -/
inductive WorkerStage
  | idle
  | claiming (requestedAt : ℤ)
  | running (claim : ScheduledTaskClaim) (renewal : Option ℤ)
  | stopping (claim : ScheduledTaskClaim) (finishedAt : ℤ) (renewal : Option ℤ)
  | recording (claim : ScheduledTaskClaim) (finishedAt : ℤ)
  | completing (claim : ScheduledTaskClaim) (finishedAt : ℤ)
  | over

namespace WorkerStage

def claim : WorkerStage → Option ScheduledTaskClaim
  | .running claim _ | .stopping claim _ _ | .recording claim _ | .completing claim _ => some claim
  | .idle | .claiming _ | .over => none

def renewal : WorkerStage → Option ℤ
  | .running _ renewal | .stopping _ _ renewal => renewal
  | .idle | .claiming _ | .recording .. | .completing .. | .over => none

def withRenewal (renewal : Option ℤ) : WorkerStage → WorkerStage
  | .running claim _ => .running claim renewal
  | .stopping claim finishedAt _ => .stopping claim finishedAt renewal
  | .idle => .idle
  | .claiming requestedAt => .claiming requestedAt
  | .recording claim finishedAt => .recording claim finishedAt
  | .completing claim finishedAt => .completing claim finishedAt
  | .over => .over

def isRunning : WorkerStage → Bool
  | .running .. => true
  | .idle | .claiming _ | .stopping .. | .recording .. | .completing .. | .over => false

/-- The stop token of the renewal loop is cancelled: it is a child of the shutdown token, and is cancelled
when the body has finished. -/
def renewalStop (shutdown : Bool) : WorkerStage → Bool
  | .stopping .. => true
  | .idle | .claiming _ | .running .. | .recording .. | .completing .. | .over => shutdown

/-- Time may pass until an instant: the runtime waits for its body, for its recorder or for the next
iteration, and the renewal loop waits for a tick that is not before that instant. -/
def Waits (shutdown : Bool) (instant : ℤ) : WorkerStage → Prop
  | .idle | .over | .recording .. | .running _ none => True
  | .running _ (some tick) => shutdown = false ∧ instant ≤ tick
  | .claiming _ | .stopping .. | .completing .. => False

/-- The iteration goes on unless the catalog could not be looked after. -/
def afterEnsure (now : ℤ) : Option ScheduledAnswer → WorkerStage
  | some (.ensured (.ok _)) => .claiming now
  | _ => .idle

/-- With a claim the renewal loop is spawned, whose first tick is at once, and the body. -/
def afterClaim (nextTick : ℤ) : Option ScheduledAnswer → WorkerStage
  | some (.claimed (.ok (some claim))) => .running claim (some nextTick)
  | _ => .idle

end WorkerStage

/-- The renewal loop goes on after a failure, and returns when the claim is lost. -/
def afterRenewal (nextTick : ℤ) : Option ScheduledAnswer → Option ℤ
  | some (.renewed (.ok false)) => none
  | _ => some nextTick

def isCompleted : Option ScheduledAnswer → Bool
  | some (.completed (.ok completed)) => completed
  | _ => false

/-! ## All runtimes -/

/-- A firing whose body and recorder have finished, and whether it was completed. -/
structure EndedFiring (ι : Type) where
  worker : ι
  claim : ScheduledTaskClaim
  completed : Bool

/-- The clock, the table, and each runtime with its shutdown token; the firings that have ended, the last
first. -/
structure ScheduleSystem (ι : Type) where
  now : ℤ
  table : ScheduledTaskTable
  shutdown : ι → Bool
  stage : ι → WorkerStage
  ended : List (EndedFiring ι)

/-- Runtimes that are not started yet, around any table. -/
def ScheduleSystem.initial (ι : Type) (now : ℤ) (table : ScheduledTaskTable) : ScheduleSystem ι :=
  ⟨now, table, fun _ => false, fun _ => .idle, []⟩

inductive ScheduleEvent (ι : Type)
  | elapsed (duration : ℕ)
  | cancelled (i : ι)
  | began (i : ι)
  | claimed (i : ι)
  | renewed (i : ι)
  | renewalStopped (i : ι)
  | finished (i : ι)
  | joined (i : ι)
  | recorded (i : ι)
  | completed (i : ι) (interval : ℕ)
  | quit (i : ι)

section

variable {ι : Type} [DecidableEq ι] (duplicateKey : Text → DbErr) (tasks : ι → ScheduledPeriodicTask)

namespace ScheduleSystem

variable (s : ScheduleSystem ι) (i : ι)

def moved (stage : WorkerStage) : ScheduleSystem ι :=
  { s with stage := Function.update s.stage i stage }

/-- The catalog is looked after. -/
def began : ScheduleSystem ι :=
  let answer := ensureScheduledTask duplicateKey s.table ((tasks i).catalogEntry s.now)
  { s with table := answer.1 }.moved i (.afterEnsure s.now answer.2)

def claimed (requestedAt : ℤ) : ScheduleSystem ι :=
  let answer := claimScheduledTask duplicateKey s.table ((tasks i).claimRequest requestedAt)
  { s with table := answer.1 }.moved i
    (.afterClaim (s.now + scheduledClaimRenewInterval (tasks i).claimTtl) answer.2)

/-- A tick of the renewal loop. -/
def renewed (claim : ScheduledTaskClaim) : ScheduleSystem ι :=
  let answer := renewScheduledTaskClaim duplicateKey s.table ⟨claim, s.now, (tasks i).claimTtl⟩
  { s with table := answer.1 }.moved i ((s.stage i).withRenewal
      (afterRenewal (s.now + scheduledClaimRenewInterval (tasks i).claimTtl) answer.2))

/-- The completion of a claim, unless there is no next run. -/
def completed (claim : ScheduledTaskClaim) (finishedAt : ℤ) (interval : ℕ) : ScheduleSystem ι :=
  match nextScheduledRunAt finishedAt interval with
  | none => { s with ended := ⟨i, claim, false⟩ :: s.ended }.moved i .idle
  | some nextRunAt =>
    let answer := completeScheduledTask duplicateKey s.table ⟨claim, finishedAt, nextRunAt⟩
    { s with table := answer.1, ended := ⟨i, claim, isCompleted answer.2⟩ :: s.ended }.moved i .idle

end ScheduleSystem

/-- What the clock, the runtimes and those that shut them down can do, in any order; how long a runtime waits
between two iterations is left open. -/
inductive ScheduleStep : ScheduleSystem ι → ScheduleEvent ι → ScheduleSystem ι → Prop
  | elapsed {s : ScheduleSystem ι} (duration : ℕ)
      (waits : ∀ i, (s.stage i).Waits (s.shutdown i) (s.now + duration)) :
      ScheduleStep s (.elapsed duration) { s with now := s.now + duration }
  | cancelled {s : ScheduleSystem ι} (i : ι) :
      ScheduleStep s (.cancelled i) { s with shutdown := Function.update s.shutdown i true }
  | began {s : ScheduleSystem ι} {i : ι} (idle : s.stage i = .idle) (going : s.shutdown i = false) :
      ScheduleStep s (.began i) (s.began duplicateKey tasks i)
  | claimed {s : ScheduleSystem ι} {i : ι} {requestedAt : ℤ} (claiming : s.stage i = .claiming requestedAt) :
      ScheduleStep s (.claimed i) (s.claimed duplicateKey tasks i requestedAt)
  | renewed {s : ScheduleSystem ι} {i : ι} {claim : ScheduledTaskClaim} (firing : (s.stage i).claim = some claim)
      (due : (s.stage i).renewal = some s.now) : ScheduleStep s (.renewed i) (s.renewed duplicateKey tasks i claim)
  | renewalStopped {s : ScheduleSystem ι} {i : ι} {tick : ℤ} (renewing : (s.stage i).renewal = some tick)
      (stopped : (s.stage i).renewalStop (s.shutdown i) = true) :
      ScheduleStep s (.renewalStopped i) (s.moved i ((s.stage i).withRenewal none))
  | finished {s : ScheduleSystem ι} {i : ι} {claim : ScheduledTaskClaim} {renewal : Option ℤ}
      (running : s.stage i = .running claim renewal) :
      ScheduleStep s (.finished i) (s.moved i (.stopping claim s.now renewal))
  | joined {s : ScheduleSystem ι} {i : ι} {claim : ScheduledTaskClaim} {finishedAt : ℤ}
      (stopped : s.stage i = .stopping claim finishedAt none) :
      ScheduleStep s (.joined i) (s.moved i (.recording claim finishedAt))
  | recorded {s : ScheduleSystem ι} {i : ι} {claim : ScheduledTaskClaim} {finishedAt : ℤ}
      (recording : s.stage i = .recording claim finishedAt) :
      ScheduleStep s (.recorded i) (s.moved i (.completing claim finishedAt))
  | completed {s : ScheduleSystem ι} {i : ι} {claim : ScheduledTaskClaim} {finishedAt : ℤ}
      (completing : s.stage i = .completing claim finishedAt) (interval : ℕ) :
      ScheduleStep s (.completed i interval) (s.completed duplicateKey i claim finishedAt interval)
  | quit {s : ScheduleSystem ι} {i : ι} (idle : s.stage i = .idle) (asked : s.shutdown i = true) :
      ScheduleStep s (.quit i) (s.moved i .over)

end

/-! ## What is promised -/

/-- A scheduled firing runs on one runtime at a time, and is completed by the runtime that ran it. -/
structure ScheduleContract {ι : Type} (tasks : ι → ScheduledPeriodicTask) (s : ScheduleSystem ι) : Prop where
  exclusive : ∀ i j, i ≠ j → (tasks i).taskNamespace = (tasks j).taskNamespace →
    (tasks i).taskName = (tasks j).taskName → (s.stage i).isRunning = true → (s.stage j).isRunning = false
  completed : ∀ firing ∈ s.ended, firing.completed = true

end AsterForge.Tasks
