import AsterForge.Library.JoinSet
import AsterForge.Tasks.Execution

/-!
# The consumer of a task lane

A consumer claims tasks from its store as far as it has room for them, and executes them.  Claims, executions
and releases are futures of their own; one loop waits for whatever comes first and acts on it.

* `TaskConsumerReport`, `ConsumerPhase`, `ConsumerRuntime` — what the loop counts, where its shutdown is, and
  all that it owns.
* `completedExecution`, `completedClaim`, `completedRelease`, `poll`, `abandon` — what the loop does.
* `ConsumerSystem`, `ConsumerEvent`, `next` — the loop among the futures that end, the clock, the product that
  changes its mind and whoever stops it.
-/

namespace AsterForge.Tasks

open Library

/-! ## Polling delays -/

inductive BackgroundTaskDispatchTrigger
  | startup
  | timer
  | wakeup
  deriving DecidableEq

structure BackgroundTaskDispatchIteration where
  hasActivity : Bool
  failed : Bool

namespace BackgroundTaskDispatchIteration

def idle : BackgroundTaskDispatchIteration := ⟨false, false⟩

def active : BackgroundTaskDispatchIteration := ⟨true, false⟩

def ofFailed : BackgroundTaskDispatchIteration := ⟨false, true⟩

end BackgroundTaskDispatchIteration

/-- The polling interval of the product and its largest one, as they are at a moment. -/
structure DispatchIntervals where
  base : ℕ
  max : ℕ

structure BackgroundTaskDispatchBackoff where
  idleInterval : ℕ
  lastError : Bool

def backgroundTaskDispatchErrorBackoffCap : ℕ := 5 * second

def effectiveDispatchBaseInterval (baseInterval : ℕ) : ℕ := if baseInterval = 0 then second else baseInterval

def effectiveDispatchMaxInterval (baseInterval maxInterval : ℕ) : ℕ := max maxInterval baseInterval

namespace BackgroundTaskDispatchBackoff

def new (intervals : DispatchIntervals) : BackgroundTaskDispatchBackoff where
  idleInterval := effectiveDispatchBaseInterval intervals.base
  lastError := false

def sleepDuration (backoff : BackgroundTaskDispatchBackoff) (intervals : DispatchIntervals) : ℕ :=
  let baseInterval := effectiveDispatchBaseInterval intervals.base
  let maxInterval := effectiveDispatchMaxInterval baseInterval intervals.max
  if backoff.lastError then max baseInterval backgroundTaskDispatchErrorBackoffCap
  else min (max backoff.idleInterval baseInterval) maxInterval

def recordIteration (backoff : BackgroundTaskDispatchBackoff) (trigger : BackgroundTaskDispatchTrigger)
    (iteration : BackgroundTaskDispatchIteration) (intervals : DispatchIntervals) :
    BackgroundTaskDispatchBackoff :=
  let baseInterval := effectiveDispatchBaseInterval intervals.base
  let maxInterval := effectiveDispatchMaxInterval baseInterval intervals.max
  if iteration.failed then ⟨baseInterval, true⟩
  else if iteration.hasActivity || trigger = .wakeup then ⟨baseInterval, false⟩
  else ⟨min (max backoff.idleInterval baseInterval * 2) maxInterval, false⟩

end BackgroundTaskDispatchBackoff

/-! ## What a consumer owns -/

/-- Aggregate counters of a lane. -/
structure DispatchStats where
  canceled : ℕ := 0
  claimed : ℕ := 0
  succeeded : ℕ := 0
  retried : ℕ := 0
  failed : ℕ := 0

def DispatchStats.addOutcome (stats : DispatchStats) (outcome : TaskDispatchOutcome) : DispatchStats :=
  { stats with
    succeeded := stats.succeeded + outcome.succeeded
    retried := stats.retried + outcome.retried
    failed := stats.failed + outcome.failed
    canceled := stats.canceled + outcome.canceled }

/-- Two-stage shutdown budget. -/
structure TaskConsumerConfig where
  drainTimeout : ℕ
  cancellationTimeout : ℕ

/-- Per-runner liveness and readiness. -/
structure TaskRuntimeStatus where
  running : Bool := false
  initialized : Bool := false
  draining : Bool := false
  claimFailed : Bool := false
  active : ℕ := 0

namespace TaskRuntimeStatus

def start (status : TaskRuntimeStatus) : TaskRuntimeStatus := { status with running := true }

def stopped (status : TaskRuntimeStatus) : TaskRuntimeStatus := { status with running := false, active := 0 }

def observeAvailable (status : TaskRuntimeStatus) (available : Bool) : TaskRuntimeStatus :=
  { status with initialized := true, claimFailed := !available }

end TaskRuntimeStatus

/-- Final statistics. -/
structure TaskConsumerReport where
  stats : DispatchStats := {}
  executionErrors : ℕ := 0
  claimErrors : ℕ := 0
  releaseErrors : ℕ := 0
  abandoned : ℕ := 0
  abandonedClaims : ℕ := 0
  abandonedReleases : ℕ := 0

inductive ConsumerPhase
  | running
  | draining (deadline : ℕ)
  | cancelling (deadline : ℕ)

namespace ConsumerPhase

def deadline : ConsumerPhase → Option ℕ
  | .running => none
  | .draining deadline | .cancelling deadline => some deadline

def stopping : ConsumerPhase → Bool
  | .running => false
  | .draining _ | .cancelling _ => true

end ConsumerPhase

/-- What a consumer owns.  A claim is a future that was spawned for the slots that it has reserved, an
execution and a release are spawned for a task. -/
structure ConsumerRuntime (Task E : Type) where
  status : TaskRuntimeStatus
  config : TaskConsumerConfig
  phase : ConsumerPhase
  report : TaskConsumerReport
  executing : JoinSet Task (Except E TaskDispatchOutcome)
  claiming : JoinSet ℕ (Except E (List Task))
  releasing : JoinSet Task (Except E Unit)
  cancellation : Bool
  nextPoll : ℕ
  backoff : BackgroundTaskDispatchBackoff

/-- What the product answers while the loop does one thing: the concurrency limit when it is read first and
when it is read again, and the intervals when an iteration is recorded and when the delay is computed. -/
structure ConsumerReadings where
  concurrency : ℕ
  concurrencyAgain : ℕ
  recorded : DispatchIntervals
  slept : DispatchIntervals

variable {Task E : Type}

namespace ConsumerRuntime

def new (status : TaskRuntimeStatus) (config : TaskConsumerConfig) (intervals : DispatchIntervals) (now : ℕ) :
    ConsumerRuntime Task E where
  status := status
  config := config
  phase := .running
  report := {}
  executing := .empty
  claiming := .empty
  releasing := .empty
  cancellation := false
  nextPoll := now
  backoff := .new intervals

variable (runtime : ConsumerRuntime Task E)

def idle : Bool := runtime.executing.isEmpty && runtime.claiming.isEmpty && runtime.releasing.isEmpty

def recordIteration (trigger : BackgroundTaskDispatchTrigger) (iteration : BackgroundTaskDispatchIteration)
    (readings : ConsumerReadings) (now : ℕ) : ConsumerRuntime Task E :=
  let backoff := runtime.backoff.recordIteration trigger iteration readings.recorded
  { runtime with backoff := backoff, nextPoll := now + backoff.sleepDuration readings.slept }

/-- The number of executions is published. -/
def storeActive : ConsumerRuntime Task E :=
  { runtime with status := { runtime.status with active := runtime.executing.len } }

/-! ## Completions -/

def completedExecution (result : Except JoinError (Except E TaskDispatchOutcome)) (readings : ConsumerReadings)
    (now : ℕ) : ConsumerRuntime Task E :=
  let runtime := runtime.storeActive
  let report := match result with
    | .ok (.ok outcome) => { runtime.report with stats := runtime.report.stats.addOutcome outcome }
    | .ok (.error _) | .error _ =>
      { runtime.report with executionErrors := runtime.report.executionErrors + 1 }
  let runtime := { runtime with report := report }
  { runtime.recordIteration .wakeup .active readings now with nextPoll := now }

def failedClaim (readings : ConsumerReadings) (now : ℕ) : ConsumerRuntime Task E :=
  let runtime := { runtime with
    report := { runtime.report with claimErrors := runtime.report.claimErrors + 1 }
    status := { runtime.status with claimFailed := true } }
  runtime.recordIteration .timer .ofFailed readings now

def spawnRelease (task : Task) : ConsumerRuntime Task E :=
  { runtime with releasing := runtime.releasing.spawn task }

def spawnExecution (task : Task) : ConsumerRuntime Task E :=
  { runtime with
    executing := runtime.executing.spawn task
    report := { runtime.report with
      stats := { runtime.report.stats with claimed := runtime.report.stats.claimed + 1 } } }

/-- The loop over the tasks of a claim, from the one at an index on.  `cancelled` tells what each look at the
token of the shutdown sees. -/
def handOut (cancelled : ℕ → Bool) (available : ℕ) :
    ℕ → List Task → ConsumerRuntime Task E → ConsumerRuntime Task E
  | _, [], runtime => runtime
  | index, task :: tasks, runtime =>
    if runtime.phase.stopping || cancelled index || decide (available ≤ index) then
      handOut cancelled available (index + 1) tasks (runtime.spawnRelease task)
    else
      handOut cancelled available (index + 1) tasks (runtime.spawnExecution task)

def completedClaim (reserved : ℕ) (result : Except JoinError (Except E (List Task))) (cancelled : ℕ → Bool)
    (readings : ConsumerReadings) (now : ℕ) : ConsumerRuntime Task E :=
  match result with
  | .error _ | .ok (.error _) => runtime.failedClaim readings now
  | .ok (.ok tasks) =>
    let runtime := { runtime with status := runtime.status.observeAvailable true }
    let available := min reserved (readings.concurrency - runtime.executing.len)
    let hasWork := !tasks.isEmpty
    let runtime := (handOut cancelled available 0 tasks runtime).storeActive
    let runtime := runtime.recordIteration .timer (if hasWork then .active else .idle) readings now
    if hasWork && !runtime.phase.stopping && !cancelled tasks.length &&
        decide (runtime.executing.len < readings.concurrencyAgain) then
      { runtime with nextPoll := now }
    else runtime

def completedRelease (result : Except JoinError (Except E Unit)) : ConsumerRuntime Task E :=
  match result with
  | .ok (.ok ()) => runtime
  | .ok (.error _) | .error _ =>
    { runtime with report := { runtime.report with releaseErrors := runtime.report.releaseErrors + 1 } }

/-! ## Polling and shutdown -/

def poll (readings : ConsumerReadings) (now : ℕ) : ConsumerRuntime Task E :=
  let available := readings.concurrency - runtime.executing.len
  if 0 < available then { runtime with claiming := runtime.claiming.spawn available }
  else
    let runtime := if readings.concurrencyAgain = 0 then
        { runtime with status := runtime.status.observeAvailable true }
      else runtime
    runtime.recordIteration .timer .idle readings now

/-- A notification brings the next poll forward. -/
def awakened (readings : ConsumerReadings) (now : ℕ) : ConsumerRuntime Task E :=
  { runtime.recordIteration .wakeup .idle readings now with nextPoll := now }

/-- The first stage of a shutdown begins. -/
def drain (now : ℕ) : ConsumerRuntime Task E :=
  { runtime with
    status := { runtime.status with draining := true }
    phase := .draining (now + runtime.config.drainTimeout) }

/-- The second stage of a shutdown begins. -/
def cancel (now : ℕ) : ConsumerRuntime Task E :=
  { runtime with
    cancellation := true
    phase := .cancelling (now + runtime.config.cancellationTimeout) }

/-- What is left is counted, before it is aborted. -/
def abandon : ConsumerRuntime Task E :=
  { runtime with
    report := { runtime.report with
      abandoned := runtime.executing.len
      abandonedClaims := runtime.claiming.len
      abandonedReleases := runtime.releasing.len } }

end ConsumerRuntime

/-! ## The loop -/

/-- Where the loop is: before it looks whether it is done; at its selection among what may come first; while it
shuts its sets down; done. -/
inductive LoopPosition
  | head
  | selecting
  | abandoning
  | ended
  deriving DecidableEq

/-- A consumer among others: the token that stops it, a notification that it has not seen, and the clock.
`observed` tells whether the consumer has seen that the token is cancelled. -/
structure ConsumerSystem (Task E : Type) where
  runtime : ConsumerRuntime Task E
  stopClaiming : Bool
  observed : Bool
  notified : Bool
  now : ℕ
  position : LoopPosition

/-- What happens around the loop, and what it does.  A future is given by its place in its set; a claim is
handled while the token may become cancelled, before one of the looks at it. -/
inductive ConsumerEvent (Task E : Type)
  | stopClaiming
  | notify
  | elapse (duration : ℕ)
  | executionEnds (index : ℕ) (output : Except JoinError (Except E TaskDispatchOutcome))
  | claimEnds (index : ℕ) (output : Except JoinError (Except E (List Task)))
  | releaseEnds (index : ℕ) (output : Except JoinError (Except E Unit))
  | iterate
  | drain
  | expire
  | joinExecution (index : ℕ) (readings : ConsumerReadings)
  | joinClaim (index : ℕ) (cancelledAt : Option ℕ) (readings : ConsumerReadings)
  | joinRelease (index : ℕ)
  | poll (readings : ConsumerReadings)
  | wake (readings : ConsumerReadings)
  | dropExecution (index : ℕ)
  | dropClaim (index : ℕ)
  | dropRelease (index : ℕ)
  | shutDown

namespace ConsumerSystem

def start (status : TaskRuntimeStatus) (config : TaskConsumerConfig) (intervals : DispatchIntervals)
    (stopClaiming notified : Bool) (now : ℕ) : ConsumerSystem Task E where
  runtime := .new status.start config intervals now
  stopClaiming := stopClaiming
  observed := false
  notified := notified
  now := now
  position := .head

variable (s : ConsumerSystem Task E)

/-- The loop has acted, and begins anew. -/
def again (runtime : ConsumerRuntime Task E) : ConsumerSystem Task E :=
  { s with runtime := runtime, position := .head }

/-- The loop is left. -/
def finish : ConsumerSystem Task E :=
  { s with
    runtime := { s.runtime with status := s.runtime.status.stopped }
    position := .ended }

def drains : ConsumerSystem Task E :=
  { s.again (s.runtime.drain s.now) with observed := true }

/-- The loop begins anew: it is done, or it sees at once that it is to stop, or it waits. -/
def iterated : ConsumerSystem Task E :=
  if s.runtime.phase.stopping && s.runtime.idle then s.finish
  else if !s.runtime.phase.stopping && s.stopClaiming then s.drains
  else { s with position := .selecting }

/-- A deadline is over. -/
def expired : ConsumerSystem Task E :=
  match s.runtime.phase with
  | .draining _ => s.again (s.runtime.cancel s.now)
  | .running | .cancelling _ => { s with runtime := s.runtime.abandon, position := .abandoning }

/-- What a look at the token sees while a claim is handled. -/
def cancelledAtLook (cancelledAt : Option ℕ) (look : ℕ) : Bool :=
  s.stopClaiming || cancelledAt.any (decide <| · ≤ look)

/-- A claim is handled.  The last look at the token is made after all tasks, if there are any. -/
def joinedClaim (reserved : ℕ) (result : Except JoinError (Except E (List Task))) (cancelledAt : Option ℕ)
    (readings : ConsumerReadings) : ConsumerSystem Task E :=
  let looks := match result with
    | .ok (.ok tasks) => if tasks.isEmpty then false else s.cancelledAtLook cancelledAt tasks.length
    | .ok (.error _) | .error _ => false
  { s.again (s.runtime.completedClaim reserved result (s.cancelledAtLook cancelledAt) readings s.now) with
    stopClaiming := s.stopClaiming || cancelledAt.isSome
    observed := s.observed || looks }

/-- The loop may look for tasks. -/
def acquiring : Bool := !s.runtime.phase.stopping && s.runtime.claiming.isEmpty

/-- What the loop does when something comes first in its selection. -/
def selected : ConsumerEvent Task E → Option (ConsumerSystem Task E)
  | .drain => if !s.runtime.phase.stopping && s.stopClaiming then some s.drains else none
  | .expire => if s.runtime.phase.deadline.any (decide <| · ≤ s.now) then some s.expired else none
  | .joinExecution index readings =>
    (s.runtime.executing.joinNext index).map fun (_, result, executing) =>
      s.again ({ s.runtime with executing := executing }.completedExecution result readings s.now)
  | .joinClaim index cancelledAt readings =>
    (s.runtime.claiming.joinNext index).map fun (reserved, result, claiming) =>
      { s with runtime := { s.runtime with claiming := claiming } }.joinedClaim reserved result cancelledAt readings
  | .joinRelease index =>
    (s.runtime.releasing.joinNext index).map fun (_, result, releasing) =>
      s.again ({ s.runtime with releasing := releasing }.completedRelease result)
  | .poll readings =>
    if s.acquiring && decide (s.runtime.nextPoll ≤ s.now) then some (s.again (s.runtime.poll readings s.now))
    else none
  | .wake readings =>
    if s.acquiring && s.notified then
      some { s.again (s.runtime.awakened readings s.now) with notified := false }
    else none
  | _ => none

/-- What becomes of the sets while they are shut down: each is joined until it is empty, one after another. -/
def dropped : ConsumerEvent Task E → Option (ConsumerRuntime Task E)
  | .dropExecution index =>
    (s.runtime.executing.discardNext index).map fun executing => { s.runtime with executing := executing }
  | .dropClaim index =>
    if s.runtime.executing.isEmpty then
      (s.runtime.claiming.discardNext index).map fun claiming => { s.runtime with claiming := claiming }
    else none
  | .dropRelease index =>
    if s.runtime.executing.isEmpty && s.runtime.claiming.isEmpty then
      (s.runtime.releasing.discardNext index).map fun releasing => { s.runtime with releasing := releasing }
    else none
  | _ => none

def act : LoopPosition → ConsumerEvent Task E → Option (ConsumerSystem Task E)
  | .head, .iterate => some s.iterated
  | .selecting, event => s.selected event
  | .abandoning, .shutDown => if s.runtime.idle then some s.finish else none
  | .abandoning, event => (s.dropped event).map fun runtime => { s with runtime := runtime }
  | .head, _ | .ended, _ => none

/-- One step of the loop, or of what is around it. -/
def next : ConsumerEvent Task E → Option (ConsumerSystem Task E)
  | .stopClaiming => some { s with stopClaiming := true }
  | .notify => some { s with notified := true }
  | .elapse duration => some { s with now := s.now + duration }
  | .executionEnds index output =>
    (s.runtime.executing.settle index output).map fun executing =>
      { s with runtime := { s.runtime with executing := executing } }
  | .claimEnds index output =>
    (s.runtime.claiming.settle index output).map fun claiming =>
      { s with runtime := { s.runtime with claiming := claiming } }
  | .releaseEnds index output =>
    (s.runtime.releasing.settle index output).map fun releasing =>
      { s with runtime := { s.runtime with releasing := releasing } }
  | event => s.act s.position event

end ConsumerSystem

end AsterForge.Tasks
