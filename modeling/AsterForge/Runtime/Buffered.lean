import Mathlib.Data.List.Basic
import Mathlib.Data.Option.Basic

/-!
# The state of a buffered batch writer

A writer keeps accepted records in memory until persistence acknowledges them.  There is a bounded queue that
is persisted in batches, and beside it room for one record that found the queue full.  All that is shared
between the callers and the one worker is behind a lock, and what each of them does under it is a function
here.  The observer channel is left out: events are sent with `try_send`, and nothing reads what became of
them.
-/

namespace AsterForge.Runtime

/-! ## Failures -/

/-- Whether an unacknowledged write can safely be replayed. -/
inductive WriteFailureClass
  | retryable
  | permanent
  | unknownCommit
  deriving DecidableEq

/-- The original persistence error, or a worker-side interruption with unknown outcome.  Nothing was attempted
where the record was still waiting. -/
inductive WriteFailureCause (E : Type)
  | persistence (error : E)
  | panicked
  | cancelled
  | notAttempted
  deriving DecidableEq

/-- A failure retained alongside the unconfirmed records. -/
structure WriteFailure (E : Type) where
  kind : WriteFailureClass
  cause : WriteFailureCause E
  deriving DecidableEq

/-- Whether `retry_failed` lifts a failure. -/
def WriteFailure.isRetryable {E : Type} (failure : WriteFailure E) : Bool :=
  failure.kind == .retryable

def WriteFailure.notAttempted {E : Type} : WriteFailure E := ⟨.retryable, .notAttempted⟩

def WriteFailure.interrupted {E : Type} (cause : WriteFailureCause E) : WriteFailure E :=
  ⟨.unknownCommit, cause⟩

/-! ## Policy -/

structure BufferedBatchConfig where
  queueCapacity : ℕ
  batchSize : ℕ
  delayedFlushAfter : ℕ

/-- What to do with a record when the queue is full. -/
inductive OverflowPolicy
  | reject
  | directWrite
  deriving DecidableEq

/-- The policy of a writer, with zero capacities normalized to one, and the last instant of the clock. -/
structure WriterSettings extends BufferedBatchConfig where
  overflow : OverflowPolicy
  limit : ℕ
  queueCapacity_pos : 0 < queueCapacity
  batchSize_pos : 0 < batchSize

def WriterSettings.new (config : BufferedBatchConfig) (overflow : OverflowPolicy) (limit : ℕ) :
    WriterSettings where
  queueCapacity := max config.queueCapacity 1
  batchSize := max config.batchSize 1
  delayedFlushAfter := config.delayedFlushAfter
  overflow := overflow
  limit := limit
  queueCapacity_pos := Nat.le_max_right _ _
  batchSize_pos := Nat.le_max_right _ _

/-! ## The state behind the lock -/

inductive BufferedWriterState
  | created
  | running
  | draining
  | stopped
  deriving DecidableEq

def BufferedWriterState.isClosed : BufferedWriterState → Bool
  | .draining | .stopped => true
  | .created | .running => false

/-- The record in the direct lane.  Whoever admitted it waits for a reply until one was sent. -/
structure Direct (T E : Type) where
  item : T
  reply : Bool
  failure : Option (WriteFailure E)

structure BufferState (T E : Type) where
  lifecycle : BufferedWriterState
  queue : List T
  oldest : Option ℕ
  direct : Option (Direct T E)
  failure : Option (WriteFailure E)
  failureRecords : ℕ
  /-- The highest batch acknowledgment that a flush or a retry has asked for. -/
  flushThrough : ℕ
  persisted : ℕ
  directPersisted : ℕ

/-- What became of a record that was offered. -/
inductive Admission
  | queued
  | direct
  | notRunning
  | full

inductive BufferFlushError (E : Type)
  | notStarted
  | stopped
  | write (failure : WriteFailure E)
  | deadline

/-- A flush that has looked at the state returns, or waits for progress, for which it may have to ask. -/
inductive Looked (E : Type)
  | returns (result : Except (BufferFlushError E) Unit)
  | waits (request : Bool)

namespace Direct

variable {T E : Type}

/-- `retry_failed` on the direct lane. -/
def retry (direct : Direct T E) : Direct T E :=
  if direct.failure.any WriteFailure.isRetryable then { direct with failure := none } else direct

/-- What the exit of the worker leaves of a record that waits. -/
def abandon (direct : Direct T E) : Direct T E :=
  match direct.failure with
  | none => { direct with reply := false, failure := some .notAttempted }
  | some _ => direct

/-- What an unexpected exit leaves.  A failure that was there before is preserved. -/
def quarantine (cause : WriteFailureCause E) (direct : Direct T E) : Direct T E :=
  { direct with reply := false, failure := direct.failure.or (some (.interrupted cause)) }

end Direct

namespace BufferState

variable {T E : Type}

def new : BufferState T E where
  lifecycle := .created
  queue := []
  oldest := none
  direct := none
  failure := none
  failureRecords := 0
  flushThrough := 0
  persisted := 0
  directPersisted := 0

variable (state : BufferState T E)

def batchPersisted : ℕ := state.persisted - state.directPersisted

/-- Admission by batch progress alone: a direct acknowledgment cannot pay for a queued record. -/
def batchWatermark : ℕ := state.batchPersisted + state.queue.length

def nextBatchSize (maximum : ℕ) (state : BufferState T E) : ℕ :=
  let remaining := state.flushThrough - state.batchPersisted
  if remaining = 0 then maximum else min maximum remaining

/-- Copies of all unacknowledged records. -/
def unconfirmed : List T :=
  state.queue ++ (state.direct.map Direct.item).toList

/-! ### Callers -/

/-- `record`, up to its reply. -/
def record (settings : WriterSettings) (now : ℕ) (item : T) (state : BufferState T E) :
    Admission × BufferState T E :=
  if state.lifecycle ≠ .running then (.notRunning, state)
  else if state.queue.length < settings.queueCapacity then
    (.queued, { state with
      oldest := if state.queue.isEmpty then some now else state.oldest
      queue := state.queue ++ [item] })
  else if settings.overflow = .reject ∨ state.direct.isSome then (.full, state)
  else (.direct, { state with direct := some ⟨item, true, none⟩ })

def beginDrain : BufferState T E :=
  if state.lifecycle ≠ .stopped then { state with lifecycle := .draining } else state

/-- `retry_failed` on the batch lane. -/
def retryBatch : BufferState T E :=
  if state.failure.any WriteFailure.isRetryable then
    { state with
      failure := none
      failureRecords := 0
      flushThrough := max state.flushThrough state.batchWatermark }
  else state

/-- Clears only failures classified as safe to retry. -/
def retryFailed : BufferState T E :=
  if state.lifecycle = .stopped then state
  else { state.retryBatch with direct := state.direct.map Direct.retry }

/-- The batch and direct acknowledgments that a flush waits for. -/
def flushTargets : Option (ℕ × ℕ) :=
  if state.lifecycle = .created then none
  else some (state.batchWatermark, state.directPersisted + if state.direct.isSome then 1 else 0)

/-- What a flush finds out each time around. -/
def look (now deadline batchTarget directTarget : ℕ) (state : BufferState T E) : Looked E :=
  let batchPending := decide (state.batchPersisted < batchTarget)
  let directPending := decide (state.directPersisted < directTarget)
  let directFailure := state.direct.bind Direct.failure
  let workPending := (batchPending && state.failure.isNone) ||
    (directPending && state.direct.isSome && directFailure.isNone)
  let failure := (if batchPending then state.failure else none).or
    (if directPending then directFailure else none)
  if batchPending = false ∧ directPending = false then .returns (.ok ())
  else
    match if workPending then none else failure with
    | some failure => .returns (.error (.write failure))
    | none =>
      if state.lifecycle = .stopped then .returns (.error .stopped)
      else if deadline ≤ now then .returns (.error .deadline)
      else .waits batchPending

/-- A flush asks for what it waits for. -/
def request (target : ℕ) (state : BufferState T E) : BufferState T E :=
  { state with flushThrough := max state.flushThrough target }

/-! ### The worker -/

/-- When a partial batch has waited long enough. -/
def due (settings : WriterSettings) (state : BufferState T E) : Option ℕ :=
  state.oldest.bind fun at_ =>
    if at_ + settings.delayedFlushAfter ≤ settings.limit then some (at_ + settings.delayedFlushAfter) else none

variable (settings : WriterSettings)

/-- A batch is due without a flush: the writer drains, the threshold is reached, or the timer has run out. -/
def dueOnItsOwn (now : ℕ) (state : BufferState T E) : Bool :=
  state.lifecycle == .draining || decide (settings.batchSize ≤ state.queue.length) ||
    (state.due settings).any (fun at_ => decide (at_ ≤ now))

def batchReady (now : ℕ) (state : BufferState T E) : Bool :=
  !state.queue.isEmpty && state.failure.isNone &&
    (decide (state.batchPersisted < state.flushThrough) || state.dueOnItsOwn settings now)

def nextBatch (now : ℕ) (state : BufferState T E) : Option (List T × Bool) :=
  if state.batchReady settings now then
    some (state.queue.take (state.nextBatchSize settings.batchSize), false)
  else none

/-- The records that the worker writes next, and whether they are those of the direct lane.  Ready lanes
alternate. -/
def selectWork (now : ℕ) (preferBatch : Bool) (state : BufferState T E) : Option (List T × Bool) :=
  match state.direct with
  | some direct =>
    if direct.failure.isNone && !(preferBatch && state.batchReady settings now) then
      some ([direct.item], true)
    else state.nextBatch settings now
  | none => state.nextBatch settings now

def complete (direct : Bool) (count : ℕ) (result : Except (WriteFailure E) Unit) (state : BufferState T E) :
    BufferState T E :=
  match direct, result with
  | true, .error failure =>
    { state with direct := state.direct.map fun pending =>
        { pending with reply := false, failure := some failure } }
  | true, .ok () =>
    match state.direct with
    | none => state
    | some _ =>
      { state with
        direct := none
        persisted := state.persisted + 1
        directPersisted := state.directPersisted + 1 }
  | false, .error failure => { state with failure := some failure, failureRecords := count }
  | false, .ok () =>
    { state with
      queue := state.queue.drop count
      persisted := state.persisted + count
      oldest := if (state.queue.drop count).isEmpty then none else state.oldest }

/-- The exit of the worker. -/
def finish (state : BufferState T E) : BufferState T E :=
  { state with direct := state.direct.map Direct.abandon, lifecycle := .stopped }

/-- An unexpected exit of the worker, before `finish`. -/
def failWorker (cause : WriteFailureCause E) (state : BufferState T E) : BufferState T E :=
  let failed := !state.queue.isEmpty && state.failure.isNone
  { state with
    failure := if failed then some (.interrupted cause) else state.failure
    failureRecords := if failed then state.queue.length else state.failureRecords
    direct := state.direct.map (Direct.quarantine cause) }

end BufferState

end AsterForge.Runtime
