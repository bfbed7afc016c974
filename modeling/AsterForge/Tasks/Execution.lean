import AsterForge.Library.Text
import AsterForge.Tasks.Lease

/-!
# The execution of a claimed task

A worker runs the body of a task under its lease, with heartbeats beside it, and then has the store write what
became of the task.  Every write is fenced by the store, and what a call counts follows from the answers that
it gets.

* `TaskCompletion`, `TaskWrite`, `TaskDispatchOutcome` — what the store is asked for, and what is counted.
-/

namespace AsterForge.Tasks

open Library

/-! ## Writes and outcomes -/

inductive TaskRetryClass
  | auto
  | manual
  | never

def TaskRetryClass.shouldAutoRetry : TaskRetryClass → Bool
  | .auto => true
  | .manual | .never => false

def TaskRetryClass.canManualRetry : TaskRetryClass → Bool
  | .auto | .manual => true
  | .never => false

/-- Failure update passed to product storage after a task exhausts automatic retry. -/
structure TaskPermanentFailure where
  attemptCount : ℤ
  storageError : Text
  displayError : Text
  failedStepsJson : Option Text
  failureCanRetry : Bool
  finishedAt : ℤ

/-- Retry update passed to product storage after an automatically retryable failure. -/
structure TaskRetryUpdate where
  attemptCount : ℤ
  retryAt : ℤ
  storageError : Text
  displayError : Text
  failedStepsJson : Option Text

/-- What a store is asked for when the body of a task has ended. -/
inductive TaskCompletion
  | confirmTaskSucceeded
  | markTaskRetry (retry : TaskRetryUpdate)
  | markTaskFailed (failure : TaskPermanentFailure)
  | releaseTaskForShutdown

/-- What a store is asked for under a lease. -/
inductive TaskWrite
  | cancelTaskIfRequested
  | completion (completion : TaskCompletion)

/-- Counters returned by one claimed task execution. -/
structure TaskDispatchOutcome where
  canceled : ℕ := 0
  succeeded : ℕ := 0
  retried : ℕ := 0
  failed : ℕ := 0
  deriving DecidableEq

def TaskDispatchOutcome.ofCanceled : TaskDispatchOutcome := { canceled := 1 }

def TaskDispatchOutcome.ofSucceeded : TaskDispatchOutcome := { succeeded := 1 }

def TaskDispatchOutcome.ofRetried : TaskDispatchOutcome := { retried := 1 }

def TaskDispatchOutcome.ofFailed : TaskDispatchOutcome := { failed := 1 }

/-! ## What the product knows -/

structure TaskHooks (Task E : Type) where
  cancellationRequested : Task → Bool
  attemptCount : Task → ℤ
  maxAttempts : Task → ℤ
  ofTaskCoreError : TaskCoreError → E
  isLeaseLostError : E → Bool
  isLeaseRenewalTimedOutError : E → Bool
  isWorkerShutdownRequestedError : E → Bool
  isCancellationRequestedError : E → Bool
  retryClass : Task → E → TaskRetryClass
  storageError : E → Text
  displayError : Text → Text
  failedStepsJson : Task → Text → Option Text

structure ClaimedTaskExecutionConfig where
  renewalTimeout : ℕ
  retryDelaySecs : ℤ → ℤ

/-- The largest 32-bit integer, where counts of attempts saturate. -/
def maxI32 : ℤ := 2 ^ 31 - 1

variable {Task E : Type}

namespace TaskHooks

variable (hooks : TaskHooks Task E)

/-- An error that only says that the worker has to stop. -/
def isControlError (error : E) : Bool :=
  hooks.isLeaseLostError error || hooks.isLeaseRenewalTimedOutError error ||
    hooks.isWorkerShutdownRequestedError error || hooks.isCancellationRequestedError error

/-- What is written for a task whose body has failed: a retry while attempts are left. -/
def failureWrite (config : ClaimedTaskExecutionConfig) (task : Task) (error : E) (now : ℤ) :
    TaskCompletion :=
  let attemptCount := min (hooks.attemptCount task + 1) maxI32
  let storageError := hooks.storageError error
  let displayError := hooks.displayError storageError
  let failedStepsJson := hooks.failedStepsJson task displayError
  let retryClass := hooks.retryClass task error
  if retryClass.shouldAutoRetry = true ∧ attemptCount < hooks.maxAttempts task then
    .markTaskRetry ⟨attemptCount, now + config.retryDelaySecs attemptCount * second, storageError,
      displayError, failedStepsJson⟩
  else
    .markTaskFailed ⟨attemptCount, storageError, displayError, failedStepsJson, retryClass.canManualRetry, now⟩

end TaskHooks

/-! ## Calls -/

/-- Where a call is: before it checks its lease; while the body of the task runs; before the store cancels the
task, with the result of the body at first, and last after another answer; before another write; while it waits
for its heartbeat; returned; dropped, by a panic or an abort. -/
inductive ExecutionPhase (E : Type)
  | activating
  | processing
  | completing (taskResult : Except E Unit)
  | writing (completion : TaskCompletion)
  | acknowledging
  | stopping (result : Except E TaskDispatchOutcome)
  | returned (result : Except E TaskDispatchOutcome)
  | dropped

structure TaskHeartbeat where
  stopToken : Bool := false
  running : Bool := true

/-- A call, with the transitions that it has recorded, the last first, and how often it woke the dispatcher. -/
structure ExecutionCall (Task E : Type) where
  task : Task
  lease : TaskLease
  guard : TaskLeaseGuard
  shutdown : Bool
  heartbeat : TaskHeartbeat
  phase : ExecutionPhase E
  transitions : List Text
  wakes : ℕ

def ExecutionPhase.write : ExecutionPhase E → Option TaskWrite
  | .completing _ | .acknowledging => some .cancelTaskIfRequested
  | .writing completion => some (.completion completion)
  | .activating | .processing | .stopping _ | .returned _ | .dropped => none

namespace ExecutionCall

variable (hooks : TaskHooks Task E) (config : ClaimedTaskExecutionConfig) (call : ExecutionCall Task E)

def goto (phase : ExecutionPhase E) : ExecutionCall Task E := { call with phase := phase }

def recordTaskTransition (status : Text) : ExecutionCall Task E :=
  { call with transitions := status :: call.transitions }

def wakeDispatcher : ExecutionCall Task E := { call with wakes := call.wakes + 1 }

def finish (result : Except E TaskDispatchOutcome) : ExecutionCall Task E :=
  { call with phase := .stopping result, heartbeat := { call.heartbeat with stopToken := true } }

/-- A call as it begins.  A task that was claimed with its cancellation requested is not run. -/
def start (task : Task) (lease : TaskLease) (shutdown : Bool) (now : ℤ) : ExecutionCall Task E where
  task := task
  lease := lease
  guard := .new lease config.renewalTimeout now
  shutdown := shutdown
  heartbeat := {}
  phase := if hooks.cancellationRequested task then .acknowledging else .activating
  transitions := []
  wakes := 0

def activated (now : ℤ) : ExecutionCall Task E :=
  match call.guard.ensureActive call.shutdown now with
  | (guard, .ok ()) => { call with guard := guard, phase := .processing }
  | (guard, .error error) =>
    { call with guard := guard, phase := .completing (.error (hooks.ofTaskCoreError error)) }

def processed (taskResult : Except E Unit) : ExecutionCall Task E := call.goto (.completing taskResult)

/-- `cancellation_outcome`, and what comes after it. -/
def cancellationOutcome (answer : Except E Bool)
    (next : ExecutionCall Task E → Option TaskDispatchOutcome → ExecutionCall Task E) :
    ExecutionCall Task E :=
  match answer with
  | .error error => call.finish (.error error)
  | .ok true => next (call.recordTaskTransition "canceled".toList) (some .ofCanceled)
  | .ok false => next call none

/-- `complete_claimed_task`, after the first answer. -/
def complete (now : ℤ) : Except E Unit → ExecutionCall Task E
  | .ok () => call.goto (.writing .confirmTaskSucceeded)
  | .error error =>
    if hooks.isControlError error then
      if hooks.isWorkerShutdownRequestedError error then call.goto (.writing .releaseTaskForShutdown)
      else call.goto .acknowledging
    else call.goto (.writing (hooks.failureWrite config call.task error now))

def written : TaskCompletion → ExecutionCall Task E
  | .confirmTaskSucceeded => (call.recordTaskTransition "succeeded".toList).finish (.ok .ofSucceeded)
  | .markTaskRetry _ => (call.wakeDispatcher.recordTaskTransition "retry".toList).finish (.ok .ofRetried)
  | .markTaskFailed _ => (call.recordTaskTransition "failed".toList).finish (.ok .ofFailed)
  | .releaseTaskForShutdown => call.wakeDispatcher.goto .acknowledging

def answered (answer : Except E Bool) (now : ℤ) : ExecutionCall Task E :=
  match call.phase with
  | .completing taskResult =>
    call.cancellationOutcome answer fun call outcome =>
      match outcome with
      | some outcome => call.finish (.ok outcome)
      | none => call.complete hooks config now taskResult
  | .acknowledging =>
    call.cancellationOutcome answer fun call outcome => call.finish (.ok (outcome.getD {}))
  | .writing completion =>
    match answer with
    | .error error => call.finish (.error error)
    | .ok true => call.written completion
    | .ok false => call.goto .acknowledging
  | .activating | .processing | .stopping _ | .returned _ | .dropped => call

/-! ## Heartbeats and ends -/

def heartbeatTouched (now : ℤ) (result : Except E TaskHeartbeatOutcome) : ExecutionCall Task E :=
  match evaluateHeartbeatResult call.guard call.shutdown now result with
  | (guard, .ok ()) => { call with guard := guard }
  | (guard, .error _) => { call with guard := guard, heartbeat := { call.heartbeat with running := false } }

def heartbeatStopped : ExecutionCall Task E :=
  { call with heartbeat := { call.heartbeat with running := false } }

def dropped : ExecutionCall Task E :=
  { call with phase := .dropped, heartbeat := { call.heartbeat with stopToken := true } }

end ExecutionCall

end AsterForge.Tasks
