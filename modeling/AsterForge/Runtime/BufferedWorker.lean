import AsterForge.Library.Custody
import AsterForge.Library.JoinSet
import AsterForge.Runtime.Buffered

/-!
# The worker of a buffered batch writer

One spawned worker takes records from both lanes to the sink and applies what the sink answers.  Every
section under the lock is a step of its own, and so is every poll of the sink, so that callers act in
between.  A waiting worker may wake at any time: its `Notify` keeps a permit, and the timer may have run out.

Records are numbered as they are admitted, and a log is kept of what was admitted to each lane, which writes
have ended, what the sink was called with, and which failures were reported.  The code has none of this.

* `Core.workerNext`, `Core.apply` — one step of the worker, and of anyone on the shared state;
  **`Core.workerStep_of_move`** and **`Core.coreStep_of_apply`** say what they can be.
-/

namespace AsterForge.Runtime

open Library Option

/-- A record with its number. -/
structure Ticket (T : Type) where
  number : ℕ
  item : T
  deriving DecidableEq

/-- The records that the worker has taken from a lane to write them. -/
structure WriteWork (T : Type) where
  direct : Bool
  entries : List (Ticket T)

/-- Where the worker is: not spawned; before the cancellation check at the top of its loop; before it looks
for work; waiting; before the first poll of a write; in a call of the sink; with the result of a write;
after a panic outside the sink; before `finish`; ended, with an error if it was not by itself. -/
inductive WorkerPhase (T E : Type)
  | absent
  | checking
  | selecting
  | waiting
  | polling (work : WriteWork T)
  | writing (work : WriteWork T)
  | completing (work : WriteWork T) (result : Except (WriteFailure E) Unit)
  | failing
  | finishing
  | ended (error : Option JoinError)

namespace WorkerPhase

variable {T E : Type}

def work : WorkerPhase T E → Option (WriteWork T)
  | .polling work | .writing work | .completing work _ => some work
  | _ => none

def isEnded : WorkerPhase T E → Bool
  | .ended _ => true
  | _ => false

end WorkerPhase

/-- What the worker may do: its next step; to wake; the sink returns, or panics; the write is interrupted by
the cancellation; a panic outside the sink; the task is aborted where it waits. -/
inductive WorkerMove (E : Type)
  | next
  | wake
  | returns (result : Option (Except (WriteFailure E) Unit))
  | interrupted
  | panics
  | dies (error : JoinError)

/-- What is done to the shared state. -/
inductive CoreOp (T E : Type)
  | start
  | record (item : T)
  | beginDrain
  | retryFailed
  /-- A flush asks for what it waits for; these were the records when it began. -/
  | request (target : ℕ) (scope : List (Ticket T))
  | cancel
  /-- `fail_worker`, `finish` and the end of a `stop` that has joined the worker. -/
  | failWorker (cause : WriteFailureCause E)
  | finish
  | stopped
  | worker (move : WorkerMove E)
  | elapse (duration : ℕ)

/-- The records of the batch lane and of the direct lane that were admitted, and the writes that have ended;
with which records the sink was called; which failures were put on records; and up to where batches were
asked for by a flush or a retry. -/
structure WriterLog (T E : Type) where
  batch : CustodyLog (Ticket T) (WriteFailure E)
  overflow : CustodyLog (Ticket T) (WriteFailure E)
  invoked : List (Ticket T)
  reports : List (List (Ticket T) × WriteFailure E)
  requests : List (List (Ticket T))

structure Core (T E : Type) where
  now : ℕ
  state : BufferState (Ticket T) E
  cancelled : Bool
  worker : WorkerPhase T E
  preferBatch : Bool
  log : WriterLog T E

namespace WriterLog

variable {T E : Type}

def empty : WriterLog T E := ⟨.empty, .empty, [], [], []⟩

def lane (log : WriterLog T E) : Bool → CustodyLog (Ticket T) (WriteFailure E)
  | false => log.batch
  | true => log.overflow

def accepted (log : WriterLog T E) : List (Ticket T) := log.batch.admitted ++ log.overflow.admitted

def accept (direct : Bool) (ticket : Ticket T) (log : WriterLog T E) : WriterLog T E :=
  match direct with
  | false => { log with batch := log.batch.accept ticket }
  | true => { log with overflow := log.overflow.accept ticket }

def report (reports : List (List (Ticket T) × WriteFailure E)) (log : WriterLog T E) : WriterLog T E :=
  { log with reports := log.reports ++ reports }

def endWrite (work : WriteWork T) (result : Except (WriteFailure E) Unit) (log : WriterLog T E) :
    WriterLog T E :=
  match work.direct with
  | false => { log with batch := log.batch.attempt ⟨work.entries, result⟩ }
  | true => { log with overflow := log.overflow.attempt ⟨work.entries, result⟩ }

end WriterLog

namespace BufferState

variable {T E : Type}

/-- The records that a lane holds. -/
def held (state : BufferState T E) : Bool → List T
  | false => state.queue
  | true => (state.direct.map Direct.item).toList

def laneFailure (state : BufferState T E) : Bool → Option (WriteFailure E)
  | false => state.failure
  | true => state.direct.bind Direct.failure

/-- The failures that `fail_worker` reports: to the caller of a direct record that still waits, whatever failure
the record has. -/
def failReports (cause : WriteFailureCause E) (state : BufferState T E) : List (List T × WriteFailure E) :=
  (if !state.queue.isEmpty && state.failure.isNone then [(state.queue, .interrupted cause)] else []) ++
    match state.direct with
    | some direct =>
      if direct.reply || direct.failure.isNone then [([direct.item], .interrupted cause)] else []
    | none => []

lemma mem_failReports {cs : WriteFailureCause E} {s : BufferState T E} {r : List T × WriteFailure E}
    (h : r ∈ s.failReports cs) : r.2 = .interrupted cs ∧ ∃ direct, ∀ i ∈ r.1, i ∈ s.held direct := by
  rcases List.mem_append.mp h with hb | hd
  · split at hb
    · rw [List.mem_singleton] at hb
      exact hb ▸ ⟨rfl, false, fun i hi => hi⟩
    · cases hb
  · split at hd
    · next hsome =>
      split at hd
      · rw [List.mem_singleton] at hd
        exact hd ▸ ⟨rfl, true, by simp [held, hsome]⟩
      · cases hd
    · cases hd

/-- The failure that `finish` reports. -/
def finishReports (state : BufferState T E) : List (List T × WriteFailure E) :=
  match state.direct with
  | some direct => if direct.failure.isNone then [([direct.item], .notAttempted)] else []
  | none => []

end BufferState

namespace Core

variable {T E : Type}

def new : Core T E where
  now := 0
  state := .new
  cancelled := false
  worker := .absent
  preferBatch := false
  log := .empty

def goto (c : Core T E) (worker : WorkerPhase T E) : Core T E := { c with worker }

def record (settings : WriterSettings) (item : T) (c : Core T E) : Core T E :=
  let ticket : Ticket T := ⟨c.log.accepted.length, item⟩
  let offered := c.state.record settings c.now ticket
  match offered.1 with
  | .queued => { c with state := offered.2, log := c.log.accept false ticket }
  | .direct => { c with state := offered.2, log := c.log.accept true ticket }
  | .notRunning | .full => { c with state := offered.2 }

def retryFailed (c : Core T E) : Core T E :=
  { c with
    state := c.state.retryFailed
    log := if c.state.lifecycle ≠ .stopped ∧ c.state.failure.any WriteFailure.isRetryable then
        { c.log with requests := c.log.requests ++ [c.log.batch.admitted] }
      else c.log }

def request (target : ℕ) (scope : List (Ticket T)) (c : Core T E) : Core T E :=
  { c with
    state := c.state.request target
    log := { c.log with requests := c.log.requests ++ [scope] } }

def failWorker (cause : WriteFailureCause E) (c : Core T E) : Core T E :=
  { c with state := c.state.failWorker cause, log := c.log.report (c.state.failReports cause) }

def finish (c : Core T E) : Core T E :=
  { c with state := c.state.finish, log := c.log.report c.state.finishReports }

def resultReports (work : WriteWork T) : Except (WriteFailure E) Unit → List (List (Ticket T) × WriteFailure E)
  | .ok () => []
  | .error failure => [(work.entries, failure)]

def complete (work : WriteWork T) (result : Except (WriteFailure E) Unit) (c : Core T E) : Core T E :=
  { c with
    state := c.state.complete work.direct work.entries.length result
    log := (c.log.endWrite work result).report (resultReports work result) }

def workerNext (settings : WriterSettings) (c : Core T E) : Option (Core T E) :=
  match c.worker with
  | .checking => some (c.goto (if c.cancelled then .finishing else .selecting))
  | .selecting =>
    match c.state.selectWork settings c.now c.preferBatch with
    | none => some (c.goto .waiting)
    | some (entries, direct) => some { c with worker := .polling ⟨direct, entries⟩, preferBatch := direct }
  | .polling work =>
    if c.cancelled then some (c.goto (.completing work (.error (.interrupted .cancelled))))
    else some { c with
      worker := .writing work
      log := { c.log with invoked := c.log.invoked ++ work.entries } }
  | .completing work result => some ((c.complete work result).goto .checking)
  | .failing => some ((c.failWorker .panicked).goto .finishing)
  | .finishing => some (c.finish.goto (.ended none))
  | .absent | .waiting | .writing _ | .ended _ => none

def workerMove (settings : WriterSettings) (c : Core T E) : WorkerMove E → Option (Core T E)
  | .next => c.workerNext settings
  | .wake =>
    match c.worker with
    | .waiting => some (c.goto (if c.cancelled then .finishing else .checking))
    | _ => none
  | .returns result =>
    match c.worker with
    | .writing work => some (c.goto (.completing work (result.getD (.error (.interrupted .panicked)))))
    | _ => none
  | .interrupted =>
    match c.worker with
    | .writing work =>
      if c.cancelled then some (c.goto (.completing work (.error (.interrupted .cancelled)))) else none
    | _ => none
  | .panics =>
    match c.worker with
    | .checking | .selecting => some (c.goto .failing)
    | _ => none
  | .dies error =>
    match c.worker with
    | .checking | .waiting => some (c.goto (.ended (some error)))
    | .writing work =>
      -- nobody is left to apply a result
      some { c with
        worker := .ended (some error)
        log := c.log.endWrite work (.error (.interrupted .cancelled)) }
    | _ => none

def apply (settings : WriterSettings) (c : Core T E) : CoreOp T E → Option (Core T E)
  | .start =>
    match c.state.lifecycle with
    | .created => some { c with state := { c.state with lifecycle := .running }, worker := .checking }
    | _ => none
  | .record item => some (c.record settings item)
  | .beginDrain => some { c with state := c.state.beginDrain }
  | .retryFailed => some c.retryFailed
  | .request target scope => some (c.request target scope)
  | .cancel => some { c with cancelled := true }
  | .failWorker cause => some (c.failWorker cause)
  | .finish => some c.finish
  | .stopped => some { c with state := { c.state with lifecycle := .stopped } }
  | .worker move => c.workerMove settings move
  | .elapse duration => some { c with now := c.now + duration }

/-! ## What a step of the worker can be -/

/-- The kinds of steps of the worker: between its writes; it takes records; the sink is called; a write has a
result; the result is applied; a panic is caught; it exits; it is aborted in a write. -/
inductive WorkerStep (settings : WriterSettings) (c : Core T E) : Core T E → Prop
  | between {worker : WorkerPhase T E} (hfrom : c.worker = .checking ∨ c.worker = .selecting ∨ c.worker = .waiting)
      (hto : worker.work = none) (hne : worker ≠ .absent) : WorkerStep settings c (c.goto worker)
  | selected {entries : List (Ticket T)} {direct : Bool} (hfrom : c.worker = .selecting)
      (hselect : c.state.selectWork settings c.now c.preferBatch = some (entries, direct)) :
      WorkerStep settings c { c with worker := .polling ⟨direct, entries⟩, preferBatch := direct }
  | invoked {work : WriteWork T} (hfrom : c.worker = .polling work) :
      WorkerStep settings c { c with
        worker := .writing work
        log := { c.log with invoked := c.log.invoked ++ work.entries } }
  | skipped {work : WriteWork T} (hfrom : c.worker = .polling work) :
      WorkerStep settings c (c.goto (.completing work (.error (.interrupted .cancelled))))
  | answered {work : WriteWork T} {result : Except (WriteFailure E) Unit} (hfrom : c.worker = .writing work) :
      WorkerStep settings c (c.goto (.completing work result))
  | completed {work : WriteWork T} {result : Except (WriteFailure E) Unit}
      (hfrom : c.worker = .completing work result) :
      WorkerStep settings c ((c.complete work result).goto .checking)
  | failed (hfrom : c.worker = .failing) : WorkerStep settings c ((c.failWorker .panicked).goto .finishing)
  | finished (hfrom : c.worker = .finishing) : WorkerStep settings c (c.finish.goto (.ended none))
  | died {work : WriteWork T} {error : JoinError} (hfrom : c.worker = .writing work) :
      WorkerStep settings c { c with
        worker := .ended (some error)
        log := c.log.endWrite work (.error (.interrupted .cancelled)) }

variable {st : WriterSettings} {c d : Core T E}

lemma WorkerStep.present (h : WorkerStep st c d) : c.worker ≠ .absent ∧ c.worker.isEnded = false := by
  cases h with
  | between hf hto hne => rcases hf with h | h | h <;> simp [h, WorkerPhase.isEnded]
  | selected h hsel | invoked h => simp [h, WorkerPhase.isEnded]
  | skipped h | answered h => simp [h, WorkerPhase.isEnded]
  | completed h | failed h => simp [h, WorkerPhase.isEnded]
  | finished h | died h => simp [h, WorkerPhase.isEnded]

lemma workerStep_of_next (h : c.workerNext st = some d) : WorkerStep st c d := by
  rw [workerNext] at h
  split at h
  · next hwork =>
      cases h
      refine .between (.inl hwork) ?_ ?_
      · split
        · rfl
        · rfl
      · split
        · intro h; cases h
        · intro h; cases h
  · next hwork =>
      split at h
      · cases h
        exact .between (.inr (.inl hwork)) rfl (by intro h; cases h)
      · next hsel =>
          cases h
          exact .selected hwork hsel
  · next hwork =>
      split at h
      · cases h
        exact .skipped hwork
      · cases h
        exact .invoked hwork
  · next hwork =>
      rw [some.injEq] at h
      exact h ▸ .completed hwork
  · next hwork =>
      rw [some.injEq] at h
      exact h ▸ .failed hwork
  · next hwork =>
      rw [some.injEq] at h
      exact h ▸ .finished hwork
  · cases h
  · cases h
  · cases h
  · cases h

/-- **What a move of the worker can be.** -/
theorem workerStep_of_move {m : WorkerMove E} (h : c.workerMove st m = some d) : WorkerStep st c d := by
  cases m with
  | next => exact workerStep_of_next h
  | wake =>
    rw [workerMove] at h
    split at h
    · next hwork =>
        cases h
        refine .between (.inr (.inr hwork)) ?_ ?_
        · split
          · rfl
          · rfl
        · split
          · intro h; cases h
          · intro h; cases h
    · cases h
  | returns r =>
    rw [workerMove] at h
    split at h
    · next hwork =>
        rw [some.injEq] at h
        exact h ▸ .answered hwork
    · cases h
  | interrupted =>
    rw [workerMove] at h
    split at h
    · next hwork =>
        split at h
        · rw [some.injEq] at h
          exact h ▸ .answered hwork
        · cases h
    · cases h
  | panics =>
    rw [workerMove] at h
    split at h
    · next hwork =>
        rw [some.injEq] at h
        exact h ▸ .between (.inl hwork) rfl (by intro h; cases h)
    · next hwork =>
        rw [some.injEq] at h
        exact h ▸ .between (.inr (.inl hwork)) rfl (by intro h; cases h)
    · cases h
  | dies e =>
    rw [workerMove] at h
    split at h
    · next hwork =>
        rw [some.injEq] at h
        exact h ▸ .between (.inl hwork) rfl (by intro h; cases h)
    · next hwork =>
        rw [some.injEq] at h
        exact h ▸ .between (.inr (.inr hwork)) rfl (by intro h; cases h)
    · next hwork =>
        rw [some.injEq] at h
        exact h ▸ .died hwork
    · cases h

/-! ## What a step on the shared state can be -/

/-- The kinds of steps: a record is queued, put in the free direct lane, or not taken; draining begins, or
the writer has stopped before; and every other operation does one thing. -/
inductive CoreStep (settings : WriterSettings) (c : Core T E) : CoreOp T E → Core T E → Prop
  | start (hcreated : c.state.lifecycle = .created) :
      CoreStep settings c .start { c with state := { c.state with lifecycle := .running }, worker := .checking }
  | queued {item : T} (hrunning : c.state.lifecycle = .running)
      (hroom : c.state.queue.length < settings.queueCapacity) :
      CoreStep settings c (.record item) { c with
        state := { c.state with
          oldest := if c.state.queue.isEmpty then some c.now else c.state.oldest
          queue := c.state.queue ++ [⟨c.log.accepted.length, item⟩] }
        log := c.log.accept false ⟨c.log.accepted.length, item⟩ }
  | direct {item : T} (hrunning : c.state.lifecycle = .running) (hnone : c.state.direct = none) :
      CoreStep settings c (.record item) { c with
        state := { c.state with direct := some ⟨⟨c.log.accepted.length, item⟩, true, none⟩ }
        log := c.log.accept true ⟨c.log.accepted.length, item⟩ }
  | refused {item : T} : CoreStep settings c (.record item) c
  | drains (hlive : c.state.lifecycle ≠ .stopped) :
      CoreStep settings c .beginDrain { c with state := { c.state with lifecycle := .draining } }
  | drained (hstopped : c.state.lifecycle = .stopped) : CoreStep settings c .beginDrain c
  | retryFailed : CoreStep settings c .retryFailed c.retryFailed
  | request {target : ℕ} {scope : List (Ticket T)} :
      CoreStep settings c (.request target scope) (c.request target scope)
  | cancel : CoreStep settings c .cancel { c with cancelled := true }
  | failWorker {cause : WriteFailureCause E} : CoreStep settings c (.failWorker cause) (c.failWorker cause)
  | finish : CoreStep settings c .finish c.finish
  | stopped : CoreStep settings c .stopped { c with state := { c.state with lifecycle := .stopped } }
  | worker {move : WorkerMove E} {d : Core T E} (hmove : c.workerMove settings move = some d) :
      CoreStep settings c (.worker move) d
  | elapse {duration : ℕ} : CoreStep settings c (.elapse duration) { c with now := c.now + duration }

lemma coreStep_record (settings : WriterSettings) (c : Core T E) (i : T) :
    CoreStep settings c (.record i) (c.record settings i) := by
  by_cases hrunn : c.state.lifecycle = .running
  · by_cases hroom : c.state.queue.length < settings.queueCapacity
    · simp only [Core.record, BufferState.record, if_neg (not_not.mpr hrunn), if_pos hroom]
      exact .queued hrunn hroom
    · by_cases hfull : settings.overflow = .reject ∨ c.state.direct.isSome
      · simp only [Core.record, BufferState.record, if_neg (not_not.mpr hrunn), if_neg hroom, if_pos hfull]
        exact .refused
      · have hnone : c.state.direct = none := by
          rw [not_or, Bool.not_eq_true, isSome_eq_false_iff, isNone_iff_eq_none] at hfull
          exact hfull.2
        simp only [Core.record, BufferState.record, if_neg (not_not.mpr hrunn), if_neg hroom, if_neg hfull]
        exact .direct hrunn hnone
  · simp only [Core.record, BufferState.record, ne_eq, hrunn, not_false_eq_true, if_true]
    exact .refused

/-- **What a step on the shared state can be.** -/
theorem coreStep_of_apply {op : CoreOp T E} (h : c.apply st op = some d) : CoreStep st c op d := by
  cases op with
  | start =>
    rw [apply] at h
    split at h
    · next hcreat =>
        cases h
        exact .start hcreat
    · cases h
  | record i =>
    cases h
    exact coreStep_record st c i
  | beginDrain =>
    cases h
    by_cases hstop : c.state.lifecycle = .stopped
    · simpa [BufferState.beginDrain, hstop] using .drained hstop
    · simpa [BufferState.beginDrain, hstop] using .drains hstop
  | retryFailed => exact some.inj h ▸ .retryFailed
  | request t s => exact some.inj h ▸ .request
  | cancel => exact some.inj h ▸ .cancel
  | failWorker cs => exact some.inj h ▸ .failWorker
  | finish => exact some.inj h ▸ .finish
  | stopped => exact some.inj h ▸ .stopped
  | worker m => exact .worker h
  | elapse dr => exact some.inj h ▸ .elapse

end Core

end AsterForge.Runtime
