import AsterForge.Core.HydrationRace
import AsterForge.Windows.FetchData

/-!
# The waiter registry

Pending fetches register their hydration waiter, so that a cancellation by the platform, a progress
report or the watchdog finds it.  The registry is one locked table; the gates of the fetches and
the terminal states of the waiters are atomics outside of it, and native completions and
cancellations reach them without the lock.

* `WaiterRegistry.step` — every locked section and every exchange as a step of its own.  A watchdog
  poll holds the lock while it looks at gates, so the lock is part of the state.
* `RegistryInvariant` — the table and the live registrations are the same waiters, and every target
  of a cancellation was registered under its correlation within its range.
* **`waiter_registry`** — the counter, the targets, the gates and the progress reports.
-/

namespace AsterForge.Windows

open AsterForge.Core Library FetchTerminalState List AList

/-! ## The table -/

/-- A registered waiter.  `cancellation` is the hydration waiter its handle belongs to, `terminal`
the gate of its fetch. -/
structure ActiveWaiter where
  id : ℕ
  range : ByteRange
  cancellation : ℕ
  terminal : ℕ
  watchdog : WindowsFetchDataWatchdog
  progress : Option WindowsFetchDataProgress

def ActiveWaiter.progressed (progress : WindowsFetchDataProgress) (now : ℕ) (waiter : ActiveWaiter) :
    ActiveWaiter :=
  { waiter with progress := some progress, watchdog := waiter.watchdog.touch now }

/-- Monotonic process-local counters for active fetch waiters and cancellation matching. -/
structure WindowsFetchDataWaiterMetrics where
  activeWaiters : ℕ
  registeredWaiters : ℕ
  cancellationCallbacks : ℕ
  unmatchedCancellations : ℕ
  fullyMatchedWaiters : ℕ
  partiallyMatchedWaiters : ℕ
  cancelledWaiters : ℕ
  alreadyCancelledWaiters : ℕ
  completionRaces : ℕ
  watchdogTimeouts : ℕ
  progressCallbacks : ℕ
  progressUpdates : ℕ

def WindowsFetchDataWaiterMetrics.default : WindowsFetchDataWaiterMetrics :=
  ⟨0, 0, 0, 0, 0, 0, 0, 0, 0, 0, 0, 0⟩

/-- Addition of `u64` counters. -/
def saturatingAdd (a b : ℕ) : ℕ := min (a + b) u64Max

structure RegistryState where
  nextId : ℕ
  waiters : AList fun _ : WindowsFetchDataCorrelation => List ActiveWaiter
  metrics : WindowsFetchDataWaiterMetrics
  watchdogConfig : WindowsFetchDataWatchdogConfig

def RegistryState.withWatchdogConfig (config : WindowsFetchDataWatchdogConfig) : RegistryState :=
  ⟨0, ∅, .default, config⟩

/-- A waiter a cancellation goes for; the identity is not needed to cancel it, only to say which
one it was. -/
structure CancelTarget where
  id : ℕ
  cancellation : ℕ
  terminal : ℕ

/-- Per-callback result of matching one cancellation range to active hydration waiters. -/
structure WindowsFetchDataCancellationOutcome where
  fullyMatched : ℕ
  partiallyMatched : ℕ
  cancelled : ℕ
  alreadyCancelled : ℕ
  alreadyCompleted : ℕ

def WindowsFetchDataCancellationOutcome.default : WindowsFetchDataCancellationOutcome :=
  ⟨0, 0, 0, 0, 0⟩

namespace RegistryState

variable (state : RegistryState)

/-- The locked section of `register_at`: the new identity and the table with the waiter in it. -/
def register (correlation : WindowsFetchDataCorrelation) (range : ByteRange)
    (cancellation terminal now : ℕ) : Except WindowsCloudFilesError (ℕ × RegistryState) :=
  if state.nextId + 1 ≤ u64Max then
    if state.metrics.activeWaiters + 1 ≤ usizeMax then
      let waiter : ActiveWaiter :=
        ⟨state.nextId, range, cancellation, terminal, .started state.watchdogConfig now, none⟩
      .ok (state.nextId, { state with
        nextId := state.nextId + 1
        metrics := { state.metrics with
          activeWaiters := state.metrics.activeWaiters + 1
          registeredWaiters := saturatingAdd state.metrics.registeredWaiters 1 }
        waiters := state.waiters.insert correlation
          ((state.waiters.lookup correlation).getD [] ++ [waiter]) })
    else .error .activeFetchWaiterCountOverflow
  else .error .activeFetchWaiterIdOverflow

/-- The locked section of `unregister`. -/
def unregister (correlation : WindowsFetchDataCorrelation) (id : ℕ) :
    RegistryState :=
  match state.waiters.lookup correlation with
  | none => state
  | some waiters =>
    let kept := waiters.filter fun waiter => waiter.id ≠ id
    let table :=
      if kept = [] then state.waiters.erase correlation
      else state.waiters.insert correlation kept
    if kept.length ≠ waiters.length then
      { state with
        waiters := table
        metrics := { state.metrics with activeWaiters := state.metrics.activeWaiters - 1 } }
    else { state with waiters := table }

def targetsOf (range : ByteRange) (waiters : List ActiveWaiter) : List CancelTarget :=
  (waiters.filter fun waiter => rangeCovers range waiter.range).map fun waiter =>
    ⟨waiter.id, waiter.cancellation, waiter.terminal⟩

/-- The number of waiters it covers only in part. -/
def partiallyMatched (range : ByteRange) (waiters : List ActiveWaiter) : ℕ :=
  waiters.countP fun waiter =>
    !rangeCovers range waiter.range && rangesOverlap range waiter.range

/-- The first locked section of `cancel`: the targets with the number of partial matches, or nothing
if no waiter has the correlation. -/
def collect (correlation : WindowsFetchDataCorrelation)
    (range : ByteRange) : Option (List CancelTarget × ℕ) × RegistryState :=
  let counted := { state.metrics with
    cancellationCallbacks := saturatingAdd state.metrics.cancellationCallbacks 1 }
  let unmatched := { counted with
    unmatchedCancellations := saturatingAdd counted.unmatchedCancellations 1 }
  match state.waiters.lookup correlation with
  | none => (none, { state with metrics := unmatched })
  | some waiters =>
    let targets := targetsOf range waiters
    let partially := partiallyMatched range waiters
    (some (targets, partially), { state with
      metrics := if targets = [] ∧ partially = 0 then unmatched else counted })

/-- The last locked section of `cancel`. -/
def recordCancellation (outcome : WindowsFetchDataCancellationOutcome) :
    RegistryState :=
  { state with metrics := { state.metrics with
      fullyMatchedWaiters :=
        saturatingAdd state.metrics.fullyMatchedWaiters outcome.fullyMatched
      partiallyMatchedWaiters :=
        saturatingAdd state.metrics.partiallyMatchedWaiters outcome.partiallyMatched
      cancelledWaiters := saturatingAdd state.metrics.cancelledWaiters outcome.cancelled
      alreadyCancelledWaiters :=
        saturatingAdd state.metrics.alreadyCancelledWaiters outcome.alreadyCancelled
      completionRaces := saturatingAdd state.metrics.completionRaces outcome.alreadyCompleted } }

def checkProgress (progress : WindowsFetchDataProgress) :
    List ActiveWaiter → Except WindowsCloudFilesError Unit
  | [] => .ok ()
  | waiter :: waiters =>
    match waiter.progress with
    | none => checkProgress progress waiters
    | some previous =>
      match progress.advanceFrom previous with
      | .error error => .error error
      | .ok _ => checkProgress progress waiters

/-- `report_progress_correlation`: one locked section.  All waiters are checked before the first is
updated. -/
def reportProgress (correlation : WindowsFetchDataCorrelation)
    (progress : WindowsFetchDataProgress) (now : ℕ) : Except WindowsCloudFilesError ℕ × RegistryState :=
  let counted := { state with metrics := { state.metrics with
    progressCallbacks := saturatingAdd state.metrics.progressCallbacks 1 } }
  match state.waiters.lookup correlation with
  | none => (.ok 0, counted)
  | some waiters =>
    match checkProgress progress waiters with
    | .error error => (.error error, counted)
    | .ok () =>
      (.ok waiters.length, { counted with
        waiters :=
          counted.waiters.insert correlation (waiters.map (ActiveWaiter.progressed progress now))
        metrics := { counted.metrics with
          progressUpdates := saturatingAdd counted.metrics.progressUpdates waiters.length } })

def activeWaiters : List ActiveWaiter :=
  state.waiters.entries.flatMap fun entry => entry.2

/-- The last locked section of `poll_watchdog`. -/
def recordTimeouts (cancelled : ℕ) : RegistryState :=
  { state with metrics := { state.metrics with
      watchdogTimeouts := saturatingAdd state.metrics.watchdogTimeouts cancelled } }

end RegistryState

/-! ## The parties -/

structure WindowsFetchDataWaiterRegistration where
  correlation : WindowsFetchDataCorrelation
  id : ℕ
  terminal : ℕ
  registered : Bool
  range : ByteRange
  cancellation : ℕ

/-- The next action of a cancellation on its current target: an exchange of `cancel_by_platform`, or
the cancellation of the hydration waiter. -/
inductive CancelAction
  | gate (attempt : GateAttempt)
  | wake

/-- A cancellation past its first locked section, with the targets it has not dealt with. -/
structure CancelCall where
  correlation : WindowsFetchDataCorrelation
  range : ByteRange
  targets : List CancelTarget
  action : CancelAction
  outcome : WindowsFetchDataCancellationOutcome
  finished : Bool

/-- A `begin_native` in progress. -/
structure NativeCall where
  gate : ℕ
  attempt : GateAttempt

/-- Where a watchdog poll is.  Up to and including `marking` it holds the lock. -/
inductive PollStage
  /-- The next waiter's gate and deadline are looked at. -/
  | scanning (remaining : List ActiveWaiter)
  /-- The waiter was due, and its gate is about to be marked. -/
  | marking (waiter : ActiveWaiter) (remaining : List ActiveWaiter)
  /-- The lock is free, and the due waiters are cancelled one after the other. -/
  | waking
  | finished

structure WindowsFetchDataWatchdogOutcome where
  cancelled : ℕ
  alreadyCancelled : ℕ
  alreadyCompleted : ℕ

def WindowsFetchDataWatchdogOutcome.count (outcome : WindowsFetchDataWatchdogOutcome) :
    HydrationCancellationOutcome → WindowsFetchDataWatchdogOutcome
  | .cancelled => { outcome with cancelled := outcome.cancelled + 1 }
  | .alreadyCancelled => { outcome with alreadyCancelled := outcome.alreadyCancelled + 1 }
  | .alreadyCompleted => { outcome with alreadyCompleted := outcome.alreadyCompleted + 1 }

/-- A watchdog poll with the waiters it found due. -/
structure PollCall where
  now : ℕ
  stage : PollStage
  targets : List ℕ
  outcome : WindowsFetchDataWatchdogOutcome

/-- What a cancellation did to a target: it won an exchange of its gate, or told its hydration waiter
to cancel. -/
structure PlatformEffect where
  correlation : WindowsFetchDataCorrelation
  range : ByteRange
  target : CancelTarget

/-- The registry with everything that acts on it.  Gates and the terminal states of hydration
waiters are atomics that other parties reach too. -/
structure WaiterRegistry where
  registry : RegistryState
  gates : List FetchTerminalState
  hydrations : List WaiterTerminal
  registrations : List WindowsFetchDataWaiterRegistration
  cancels : List CancelCall
  natives : List NativeCall
  polls : List PollCall
  /-- Everything cancellations did, in order. -/
  effects : List PlatformEffect
  /-- The gates at which an exchange of `cancel_by_platform` succeeded, in order. -/
  platformWins : List ℕ
  /-- What every `begin_native` returned, in order. -/
  nativeReturns : List (ℕ × Bool)

def WaiterRegistry.initial (config : WindowsFetchDataWatchdogConfig) : WaiterRegistry :=
  ⟨.withWatchdogConfig config, [], [], [], [], [], [], [], [], []⟩

def PollStage.holdsLock : PollStage → Bool
  | .scanning _ | .marking _ _ => true
  | .waking | .finished => false

def WaiterRegistry.locked (system : WaiterRegistry) : Bool :=
  system.polls.any fun poll => poll.stage.holdsLock

def cancelHydration (terminal : WaiterTerminal) : HydrationCancellationOutcome × WaiterTerminal :=
  match terminal with
  | .pending => (.cancelled, .cancelled)
  | .cancelled => (.alreadyCancelled, .cancelled)
  | .completed => (.alreadyCompleted, .completed)

def WindowsFetchDataCancellationOutcome.count (outcome : WindowsFetchDataCancellationOutcome) :
    HydrationCancellationOutcome → WindowsFetchDataCancellationOutcome
  | .cancelled => { outcome with cancelled := outcome.cancelled + 1 }
  | .alreadyCancelled => { outcome with alreadyCancelled := outcome.alreadyCancelled + 1 }
  | .alreadyCompleted => { outcome with alreadyCompleted := outcome.alreadyCompleted + 1 }

/-! ## The steps -/

/-- One locked section or one atomic action. -/
inductive RegistryLabel
  /-- A fetch callback is accepted, with a fresh gate. -/
  | accept
  /-- A hydration waiter is requested from the core. -/
  | request
  /-- A hydration waiter ends by other hands than the registry's. -/
  | settle (hydration : ℕ) (terminal : WaiterTerminal)
  /-- `register_at`. -/
  | register (correlation : WindowsFetchDataCorrelation) (range : ByteRange) (cancellation terminal now : ℕ)
  /-- A registration is dropped. -/
  | unregister (registration : ℕ)
  /-- `cancel`, up to and including its first locked section. -/
  | cancel (snapshot : WindowsCancelFetchDataSnapshot)
  /-- The next action of a cancellation. -/
  | advanceCancel (call : ℕ)
  /-- `report_progress`. -/
  | reportProgress (correlation : WindowsFetchDataCorrelation) (progress : WindowsFetchDataProgress) (now : ℕ)
  /-- `poll_watchdog` takes the lock. -/
  | poll (now : ℕ)
  /-- The next action of a poll. -/
  | advancePoll (call : ℕ)
  /-- `begin_native` is called. -/
  | beginNative (gate : ℕ)
  /-- The next exchange of a `begin_native`. -/
  | advanceNative (call : ℕ)

namespace WaiterRegistry

/-- The next exchange of a `begin_native`, whose second one follows only a first that failed. -/
def stepNative (system : WaiterRegistry) (index : ℕ) : Option WaiterRegistry := do
  let call ← system.natives[index]?
  let gate ← system.gates[call.gate]?
  match gate.transition call.attempt.source .nativeAttempted with
  | (true, gate) =>
    some { system with
      gates := system.gates.set call.gate gate
      natives := system.natives.eraseIdx index
      nativeReturns := system.nativeReturns ++ [(call.gate, true)] }
  | (false, _) =>
    match call.attempt with
    | .fromPending =>
      some { system with
        natives := system.natives.set index { call with attempt := .fromWatchdogTimedOut } }
    | .fromWatchdogTimedOut =>
      some { system with
        natives := system.natives.eraseIdx index
        nativeReturns := system.nativeReturns ++ [(call.gate, false)] }

/-- The next action of a cancellation: the gate of its first target, then its hydration waiter, and
the last locked section when no target is left. -/
def stepCancel (system : WaiterRegistry) (index : ℕ) : Option WaiterRegistry := do
  let call ← system.cancels[index]?
  match call.targets, call.action with
  | [], _ =>
    if call.finished ∨ system.locked then none
    else some { system with
      registry := system.registry.recordCancellation call.outcome
      cancels := system.cancels.set index { call with finished := true } }
  | target :: _, .gate attempt =>
    let gate ← system.gates[target.terminal]?
    match gate.transition attempt.source .platformCancelled with
    | (true, gate) =>
      some { system with
        gates := system.gates.set target.terminal gate
        cancels := system.cancels.set index { call with action := .wake }
        effects := system.effects ++ [⟨call.correlation, call.range, target⟩]
        platformWins := system.platformWins ++ [target.terminal] }
    | (false, _) =>
      let action :=
        match attempt with
        | .fromPending => CancelAction.gate .fromWatchdogTimedOut
        | .fromWatchdogTimedOut => .wake
      some { system with cancels := system.cancels.set index { call with action } }
  | target :: targets, .wake =>
    let terminal ← system.hydrations[target.cancellation]?
    let (answer, terminal) := cancelHydration terminal
    some { system with
      hydrations := system.hydrations.set target.cancellation terminal
      cancels := system.cancels.set index { call with
        targets, action := .gate .fromPending, outcome := call.outcome.count answer }
      effects := system.effects ++ [⟨call.correlation, call.range, target⟩] }

def stepPoll (lastInstant : ℕ) (system : WaiterRegistry) (index : ℕ) : Option WaiterRegistry := do
  let call ← system.polls[index]?
  match call.stage, call.targets with
  | .scanning [], _ =>
    some { system with polls := system.polls.set index { call with stage := .waking } }
  | .scanning (waiter :: remaining), _ =>
    let gate ← system.gates[waiter.terminal]?
    let stage :=
      if gate = .watchdogTimedOut ∨ waiter.watchdog.isDue lastInstant call.now = false then
        PollStage.scanning remaining
      else .marking waiter remaining
    some { system with polls := system.polls.set index { call with stage } }
  | .marking waiter remaining, _ =>
    let gate ← system.gates[waiter.terminal]?
    some { system with
      gates := system.gates.set waiter.terminal (gate.transition .pending .watchdogTimedOut).2
      polls := system.polls.set index { call with
        stage := .scanning remaining, targets := call.targets ++ [waiter.cancellation] } }
  | .waking, target :: targets =>
    let terminal ← system.hydrations[target]?
    let (answer, terminal) := cancelHydration terminal
    some { system with
      hydrations := system.hydrations.set target terminal
      polls := system.polls.set index { call with
        targets, outcome := call.outcome.count answer } }
  | .waking, [] =>
    if system.locked then none
    else some { system with
      registry := system.registry.recordTimeouts call.outcome.cancelled
      polls := system.polls.set index { call with stage := .finished } }
  | .finished, _ => none

/-- One step, or `none` when the label cannot happen in this state. -/
def step (lastInstant : ℕ) (system : WaiterRegistry) : RegistryLabel → Option WaiterRegistry
  | .accept => some { system with gates := system.gates ++ [.pending] }
  | .request => some { system with hydrations := system.hydrations ++ [.pending] }
  | .settle hydration terminal =>
    if system.hydrations[hydration]? = some .pending then
      some { system with hydrations := system.hydrations.set hydration terminal }
    else none
  | .register correlation range cancellation terminal now =>
    if system.locked ∨ system.gates.length ≤ terminal ∨ system.hydrations.length ≤ cancellation then none
    else
      match system.registry.register correlation range cancellation terminal now with
      | .error _ => some system
      | .ok (id, registry) =>
        some { system with
          registry
          registrations := system.registrations ++ [⟨correlation, id, terminal, true, range, cancellation⟩] }
  | .unregister index =>
    match system.registrations[index]? with
    | none => none
    | some registration =>
      if system.locked ∨ registration.registered = false then none
      else some { system with
        registry := system.registry.unregister registration.correlation registration.id
        registrations :=
          system.registrations.set index { registration with registered := false } }
  | .cancel snapshot =>
    if system.locked then none
    else
      match callbackRange snapshot.range snapshot.info.fileSize with
      | .error _ => some system
      | .ok range =>
        let correlation := WindowsFetchDataCorrelation.fromInfo snapshot.info
        match system.registry.collect correlation range with
        | (none, registry) => some { system with registry }
        | (some (targets, partially), registry) =>
          some { system with
            registry
            cancels := system.cancels ++ [⟨correlation, range, targets, .gate .fromPending,
              { WindowsFetchDataCancellationOutcome.default with
                fullyMatched := targets.length, partiallyMatched := partially }, false⟩] }
  | .advanceCancel call => system.stepCancel call
  | .reportProgress correlation progress now =>
    if system.locked then none
    else some { system with
      registry := (system.registry.reportProgress correlation progress now).2 }
  | .poll now =>
    if system.locked then none
    else some { system with polls := system.polls ++
      [⟨now, .scanning system.registry.activeWaiters, [], ⟨0, 0, 0⟩⟩] }
  | .advancePoll call => system.stepPoll lastInstant call
  | .beginNative gate =>
    if gate < system.gates.length then
      some { system with natives := system.natives ++ [⟨gate, .fromPending⟩] }
    else none
  | .advanceNative call => system.stepNative call

/-- The step relation for a clock that ends at `lastInstant`. -/
def Step (lastInstant : ℕ) (system : WaiterRegistry) (label : RegistryLabel)
    (system' : WaiterRegistry) : Prop :=
  system.step lastInstant label = some system'

def ReachableFrom (lastInstant : ℕ) (config : WindowsFetchDataWatchdogConfig)
    (system : WaiterRegistry) : Prop :=
  Reachable (fun s => s = initial config) (Step lastInstant) system

end WaiterRegistry

/-! ## The table and the registrations -/

structure ActiveWaiter.Of (waiter : ActiveWaiter) (registration : WindowsFetchDataWaiterRegistration) : Prop where
  id : waiter.id = registration.id
  range : waiter.range = registration.range
  cancellation : waiter.cancellation = registration.cancellation
  terminal : waiter.terminal = registration.terminal

structure TableInvariant (state : RegistryState)
    (registrations : List WindowsFetchDataWaiterRegistration) : Prop where
  ids : ∀ index (registration : WindowsFetchDataWaiterRegistration),
    registrations[index]? = some registration → registration.id = index
  nextId : state.nextId = registrations.length
  live : ∀ registration ∈ registrations, registration.registered = true →
    ∃ waiters, state.waiters.lookup registration.correlation = some waiters ∧
      ∃ waiter ∈ waiters, waiter.Of registration
  back : ∀ correlation waiters, state.waiters.lookup correlation = some waiters →
    ∀ waiter ∈ waiters, ∃ registration ∈ registrations, registration.registered = true ∧
      registration.correlation = correlation ∧ waiter.Of registration
  nodup : ∀ correlation waiters, state.waiters.lookup correlation = some waiters →
    (waiters.map ActiveWaiter.id).Nodup
  active : state.metrics.activeWaiters = registrations.countP WindowsFetchDataWaiterRegistration.registered

section

variable {s : RegistryState} {rs : List WindowsFetchDataWaiterRegistration}
  {s' : RegistryState} {r : WindowsFetchDataWaiterRegistration}

lemma TableInvariant.congr (h : TableInvariant s rs) (hni : s'.nextId = s.nextId) (hw : s'.waiters = s.waiters)
    (ha : s'.metrics.activeWaiters = s.metrics.activeWaiters) : TableInvariant s' rs where
  ids := h.ids
  nextId := hni.trans h.nextId
  live := hw ▸ h.live
  back := hw ▸ h.back
  nodup := hw ▸ h.nodup
  active := ha.trans h.active

lemma TableInvariant.eq_of_id (h : TableInvariant s rs)
    {one o : WindowsFetchDataWaiterRegistration} (hon : one ∈ rs) (ho : o ∈ rs)
    (hid : one.id = o.id) : one = o := by
  obtain ⟨i, hi⟩ := mem_iff_getElem?.mp hon
  obtain ⟨j, hj⟩ := mem_iff_getElem?.mp ho
  have hij : i = j := by rw [← h.ids i one hi, ← h.ids j o hj, hid]
  subst hij
  exact Option.some.inj (hi.symm.trans hj)

lemma TableInvariant.id_lt (h : TableInvariant s rs) (hm : r ∈ rs) : r.id < s.nextId := by
  obtain ⟨i, hi⟩ := mem_iff_getElem?.mp hm
  rw [h.ids i _ hi, h.nextId]
  exact (List.getElem?_eq_some_iff.mp hi).1

open RegistryState

lemma tableInvariant_initial (c : WindowsFetchDataWatchdogConfig) : TableInvariant (.withWatchdogConfig c) [] where
  ids := by simp
  nextId := rfl
  live := by simp
  back := by simp [withWatchdogConfig]
  nodup := by simp [withWatchdogConfig]
  active := rfl

/-- **Registering** puts one waiter in. -/
theorem TableInvariant.register (h : TableInvariant s rs)
    {correlation : WindowsFetchDataCorrelation} {range : ByteRange} {c t now id : ℕ}
    (hr : s.register correlation range c t now = .ok (id, s')) :
    TableInvariant s' (rs ++ [⟨correlation, id, t, true, range, c⟩]) := by
  unfold RegistryState.register at hr
  split at hr
  case isFalse => cases hr
  split at hr
  case isFalse => cases hr
  cases hr
  set new : ActiveWaiter := ⟨s.nextId, range, c, t, .started s.watchdogConfig now, none⟩ with hnew
  set old := (s.waiters.lookup correlation).getD [] with hold
  have hof : new.Of ⟨correlation, s.nextId, t, true, range, c⟩ :=
    ⟨rfl, rfl, rfl, rfl⟩
  have hbackOld : ∀ w ∈ old, ∃ r ∈ rs, r.registered = true ∧ r.correlation = correlation ∧ w.Of r := by
    intro w hw
    cases hl : s.waiters.lookup correlation with
    | none => simp [hold, hl] at hw
    | some wt =>
      rw [hold, hl] at hw
      exact h.back correlation wt hl w hw
  constructor
  case ids =>
    intro index r hg
    rcases Nat.lt_trichotomy index rs.length with hi | hi | hi
    · rw [getElem?_append_left hi] at hg
      exact h.ids index r hg
    · subst hi
      rw [getElem?_concat_length] at hg
      cases hg
      exact h.nextId
    · rw [getElem?_eq_none (by simp only [length_append, length_singleton]; omega)] at hg
      cases hg
  case nextId => simp [h.nextId]
  case live =>
    intro r hm hrs
    rcases mem_append.mp hm with hm | hm
    · obtain ⟨wt, hl, w, hw, hwo⟩ := h.live r hm hrs
      rw [lookup_insert_eq]
      split
      · rename_i hcorr
        refine ⟨_, rfl, w, mem_append_left _ ?_, hwo⟩
        rw [hold, ← hcorr, hl]
        exact hw
      · exact ⟨wt, hl, w, hw, hwo⟩
    · rw [mem_singleton.mp hm]
      exact ⟨_, by rw [lookup_insert_eq, if_pos rfl], new, by simp, hof⟩
  case back =>
    intro cr' wt hl w hw
    rw [lookup_insert_eq] at hl
    split at hl
    · rename_i hcorr
      cases hl
      rcases mem_append.mp hw with hw | hw
      · obtain ⟨r, hm, hlv, hs, hwo⟩ := hbackOld w hw
        exact ⟨r, mem_append_left _ hm, hlv, hs.trans hcorr.symm, hwo⟩
      · rw [mem_singleton.mp hw]
        exact ⟨_, mem_append_right _ mem_cons_self, rfl, hcorr.symm, hof⟩
    · obtain ⟨r, hm, hrt⟩ := h.back cr' wt hl w hw
      exact ⟨r, mem_append_left _ hm, hrt⟩
  case nodup =>
    intro cr' wt hl
    rw [lookup_insert_eq] at hl
    split at hl
    · cases hl
      have hfresh : s.nextId ∉ old.map ActiveWaiter.id := by
        intro hm
        obtain ⟨w, hw, hid⟩ := mem_map.mp hm
        obtain ⟨r, hrg, -, -, hwo⟩ := hbackOld w hw
        have hlt := h.id_lt hrg
        rw [← hwo.id, hid] at hlt
        exact lt_irrefl _ hlt
      have holdNodup : (old.map ActiveWaiter.id).Nodup := by
        cases hl : s.waiters.lookup correlation with
        | none => simp [hold, hl]
        | some wt =>
          rw [hold, hl]
          exact h.nodup correlation wt hl
      rw [map_append]
      refine List.Nodup.append holdNodup (nodup_singleton _) ?_
      simpa using hfresh
    · exact h.nodup cr' wt hl
  case active => simp [h.active]

/-- **Unregistering** takes one waiter out. -/
theorem TableInvariant.unregister (h : TableInvariant s rs) {index : ℕ}
    (hg : rs[index]? = some r) (hr : r.registered = true) :
    TableInvariant (s.unregister r.correlation r.id) (rs.set index { r with registered := false }) := by
  obtain ⟨hi, hge⟩ := List.getElem?_eq_some_iff.mp hg
  have hmem : r ∈ rs := List.mem_of_getElem? hg
  obtain ⟨wt, hl, n, hn, hno⟩ := h.live r hmem hr
  set kept := wt.filter fun w => w.id ≠ r.id with hkept
  have hmemKept : ∀ w, w ∈ kept ↔ w ∈ wt ∧ w.id ≠ r.id := by
    simp [hkept]
  have hshorter : kept.length ≠ wt.length := by
    intro hln
    have hall := length_filter_eq_length_iff.mp hln n hn
    simp [hno.id] at hall
  set table := if kept = [] then s.waiters.erase r.correlation
    else s.waiters.insert r.correlation kept with htable
  have hstate : s.unregister r.correlation r.id =
      { s with
        waiters := table
        metrics := { s.metrics with activeWaiters := s.metrics.activeWaiters - 1 } } := by
    simp only [RegistryState.unregister, hl, ← hkept, ← htable, if_pos hshorter]
  have htableLookup : ∀ correlation, table.lookup correlation =
      if correlation = r.correlation then (if kept = [] then none else some kept)
      else s.waiters.lookup correlation := by
    intro correlation
    rw [htable]
    split
    · rw [lookup_erase_eq]
    · rw [lookup_insert_eq]
  -- the other live registrations are where they were
  have hothers : ∀ o ∈ rs, o.registered = true → o.id ≠ r.id →
      o ∈ rs.set index { r with registered := false } := by
    intro o ho hlv hid
    obtain ⟨j, hj⟩ := mem_iff_getElem?.mp ho
    have hne : index ≠ j := by
      rintro rfl
      exact hid (congrArg WindowsFetchDataWaiterRegistration.id (Option.some.inj (hj.symm.trans hg)))
    exact mem_of_getElem? ((getElem?_set_ne hne).trans hj)
  have hlv : ∀ o ∈ rs.set index { r with registered := false },
      o.registered = true → o ∈ rs ∧ o.id ≠ r.id := by
    intro o ho hlv
    obtain ⟨j, hj⟩ := mem_iff_getElem?.mp ho
    by_cases hne : index = j
    · subst hne
      rw [getElem?_set_self hi] at hj
      cases hj
      cases hlv
    · rw [getElem?_set_ne hne] at hj
      refine ⟨mem_of_getElem? hj, ?_⟩
      rw [h.ids j o hj, h.ids index r hg]
      exact fun heq => hne heq.symm
  rw [hstate]
  constructor
  case ids =>
    intro j o hj
    by_cases hne : index = j
    · subst hne
      rw [getElem?_set_self hi] at hj
      cases hj
      exact h.ids index r hg
    · rw [getElem?_set_ne hne] at hj
      exact h.ids j o hj
  case nextId => simpa using h.nextId
  case live =>
    intro o ho hot
    obtain ⟨hd, hid⟩ := hlv o ho hot
    obtain ⟨ot, hol, w, hw, hwo⟩ := h.live o hd hot
    rw [htableLookup]
    split
    · rename_i hcorr
      rw [hcorr, hl] at hol
      cases hol
      have hin : w ∈ kept := (hmemKept w).mpr ⟨hw, hwo.id ▸ hid⟩
      rw [if_neg (ne_nil_of_mem hin)]
      exact ⟨kept, rfl, w, hin, hwo⟩
    · exact ⟨ot, hol, w, hw, hwo⟩
  case back =>
    intro correlation ot hol w hw
    rw [htableLookup] at hol
    have hfrom : ∃ old, s.waiters.lookup correlation = some old ∧ w ∈ old ∧ w.id ≠ r.id := by
      split at hol
      · rename_i hcorr
        split at hol
        · cases hol
        · cases hol
          exact ⟨wt, hcorr ▸ hl, (hmemKept w).mp hw⟩
      · rename_i hcorr
        refine ⟨ot, hol, hw, fun hid => hcorr ?_⟩
        obtain ⟨o, ho, -, hs, hof⟩ := h.back correlation ot hol w hw
        rw [← hs, h.eq_of_id ho hmem (hof.id.symm.trans hid)]
    obtain ⟨old, hod, hwt, hid⟩ := hfrom
    obtain ⟨o, ho, hot, hs, hof⟩ := h.back correlation old hod w hwt
    exact ⟨o, hothers o ho hot (hof.id ▸ hid), hot, hs, hof⟩
  case nodup =>
    intro correlation ot hol
    rw [htableLookup] at hol
    split at hol
    · split at hol
      · cases hol
      · cases hol
        exact (h.nodup _ wt hl).sublist (filter_sublist.map _)
    · exact h.nodup correlation ot hol
  case active =>
    rw [countP_set hi, hge, ← h.active]
    simp [hr]

/-- What a progress report does: it is rejected by a waiter it goes back on and leaves the table
alone, or it is accepted by all waiters of its correlation and recorded for each. -/
lemma reportProgress_cases (state : RegistryState) (correlation : WindowsFetchDataCorrelation)
    (p : WindowsFetchDataProgress) (now : ℕ) :
    (state.reportProgress correlation p now).2.nextId = state.nextId ∧
    (state.reportProgress correlation p now).2.metrics.activeWaiters = state.metrics.activeWaiters ∧
    ((state.reportProgress correlation p now).2.waiters = state.waiters ∨
      ∃ w, state.waiters.lookup correlation = some w ∧
        (state.reportProgress correlation p now).1 = .ok w.length ∧
        (state.reportProgress correlation p now).2.waiters =
          state.waiters.insert correlation (w.map (ActiveWaiter.progressed p now))) := by
  unfold reportProgress
  split
  · exact ⟨rfl, rfl, .inl rfl⟩
  · rename_i w hlook
    split
    · exact ⟨rfl, rfl, .inl rfl⟩
    · exact ⟨rfl, rfl, .inr ⟨w, hlook, rfl, rfl⟩⟩

/-- **A progress report** changes no identity, whether it is accepted or not. -/
theorem TableInvariant.reportProgress (h : TableInvariant s rs)
    (correlation : WindowsFetchDataCorrelation) (p : WindowsFetchDataProgress) (now : ℕ) :
    TableInvariant (s.reportProgress correlation p now).2 rs := by
  obtain ⟨hni, ha, hw | ⟨wt, hl, -, hw⟩⟩ :=
    reportProgress_cases s correlation p now
  · exact h.congr hni hw ha
  have hof : ∀ {w : ActiveWaiter} {registration : WindowsFetchDataWaiterRegistration},
      w.Of registration → (w.progressed p now).Of registration :=
    fun hof => { hof with }
  constructor
  case ids => exact h.ids
  case nextId => exact hni.trans h.nextId
  case live =>
    intro registration hm hr
    obtain ⟨o, ho, w, hwt, hwo⟩ := h.live registration hm hr
    rw [hw, lookup_insert_eq]
    split
    · rename_i hcorr
      rw [hcorr, hl] at ho
      cases ho
      exact ⟨_, rfl, _, mem_map_of_mem hwt, hof hwo⟩
    · exact ⟨o, ho, w, hwt, hwo⟩
  case back =>
    intro c' o ho w hwt
    rw [hw, lookup_insert_eq] at ho
    split at ho
    · rename_i hcorr
      cases ho
      obtain ⟨old, hd, rfl⟩ := mem_map.mp hwt
      obtain ⟨registration, hm, hlv, hs, hwo⟩ := h.back correlation wt hl old hd
      exact ⟨registration, hm, hlv, hs.trans hcorr.symm, hof hwo⟩
    · exact h.back c' o ho w hwt
  case nodup =>
    intro c' o ho
    rw [hw, lookup_insert_eq] at ho
    split at ho
    · cases ho
      rw [map_map]
      exact h.nodup correlation wt hl
    · exact h.nodup c' o ho
  case active => exact ha.trans h.active

lemma mem_activeWaiters {wt : ActiveWaiter} : wt ∈ s.activeWaiters ↔
    ∃ correlation w, s.waiters.lookup correlation = some w ∧ wt ∈ w := by
  simp only [activeWaiters, mem_flatMap]
  constructor
  · rintro ⟨⟨correlation, w⟩, he, hw⟩
    exact ⟨correlation, w, mem_lookup_iff.mpr he, hw⟩
  · rintro ⟨correlation, w, hl, hw⟩
    exact ⟨⟨correlation, w⟩, mem_lookup_iff.mp hl, hw⟩

section

variable (h : TableInvariant s rs)
include h

lemma TableInvariant.ids_eq : rs.map WindowsFetchDataWaiterRegistration.id = range rs.length := by
  refine ext_getElem? fun index => ?_
  rw [getElem?_map]
  cases hget : rs[index]? with
  | none =>
    rw [getElem?_eq_none_iff] at hget
    simp [hget]
  | some r =>
    have hindex := (List.getElem?_eq_some_iff.mp hget).1
    simp [hindex, h.ids index r hget]

lemma TableInvariant.activeWaiters_nodup : (s.activeWaiters.map ActiveWaiter.id).Nodup := by
  rw [activeWaiters, map_flatMap, nodup_flatMap]
  constructor
  · rintro ⟨correlation, w⟩ he
    exact h.nodup correlation w (mem_lookup_iff.mpr he)
  · refine (nodupKeys_iff_pairwise.mp s.waiters.nodupKeys).imp_of_mem ?_
    rintro ⟨left, lw⟩ ⟨right, r⟩ hl hr hne id hli hri
    -- an identity under two correlations would be two registrations with one identity
    obtain ⟨l, hlw, hle⟩ := mem_map.mp hli
    obtain ⟨rg, hrw, hre⟩ := mem_map.mp hri
    obtain ⟨one, hone, -, ho, hon⟩ :=
      h.back left lw (mem_lookup_iff.mpr hl) l hlw
    obtain ⟨o, hot, -, hos, hoo⟩ :=
      h.back right r (mem_lookup_iff.mpr hr) rg hrw
    have hsame : one = o := h.eq_of_id hone hot <| by
      rw [← hon.id, ← hoo.id, hle, hre]
    exact hne (ho.symm.trans (hsame ▸ hos))

/-- The identities in the table are those of the live registrations. -/
theorem TableInvariant.activeWaiters_perm : (s.activeWaiters.map ActiveWaiter.id).Perm
    ((rs.filter WindowsFetchDataWaiterRegistration.registered).map
      WindowsFetchDataWaiterRegistration.id) := by
  have hnodup : (rs.map WindowsFetchDataWaiterRegistration.id).Nodup := by
    rw [h.ids_eq]
    exact nodup_range
  refine (perm_ext_iff_of_nodup h.activeWaiters_nodup
    (hnodup.sublist (filter_sublist.map _))).mpr fun id => ?_
  simp only [mem_map, mem_activeWaiters, mem_filter]
  constructor
  · rintro ⟨wt, ⟨correlation, w, hl, hw⟩, rfl⟩
    obtain ⟨r, hm, hlv, -, hof⟩ := h.back correlation w hl wt hw
    exact ⟨r, ⟨hm, hlv⟩, hof.id.symm⟩
  · rintro ⟨r, ⟨hm, hlv⟩, rfl⟩
    obtain ⟨w, hl, wt, hw, hof⟩ := h.live r hm hlv
    exact ⟨wt, ⟨_, w, hl, hw⟩, hof.id⟩

/-- **The counter counts the table.** -/
theorem TableInvariant.active_eq : s.metrics.activeWaiters = s.activeWaiters.length := by
  have hlen := h.activeWaiters_perm.length_eq
  rw [length_map, length_map, ← countP_eq_length_filter] at hlen
  rw [hlen, h.active]

end

end

/-! ## Targets and gates -/

def WasRegistered (registrations : List WindowsFetchDataWaiterRegistration)
    (correlation : WindowsFetchDataCorrelation) (range : ByteRange) (target : CancelTarget) : Prop :=
  ∃ registration ∈ registrations, registration.id = target.id ∧
    registration.correlation = correlation ∧ rangeCovers range registration.range = true ∧
    registration.cancellation = target.cancellation ∧ registration.terminal = target.terminal

/-- What cancellations have before them and behind them was registered for them. -/
structure TargetsInvariant (registrations : List WindowsFetchDataWaiterRegistration)
    (cancels : List CancelCall) (effects : List PlatformEffect) : Prop where
  targets : ∀ call ∈ cancels, ∀ target ∈ call.targets,
    WasRegistered registrations call.correlation call.range target
  effects : ∀ effect ∈ effects, WasRegistered registrations effect.correlation effect.range effect.target

structure GateInvariant (gates : List FetchTerminalState) (platformWins : List ℕ)
    (nativeReturns : List (ℕ × Bool)) : Prop where
  platform : ∀ gate, platformWins.count gate = if gates[gate]? = some .platformCancelled then 1 else 0
  native : ∀ gate, nativeReturns.count (gate, true) = if gates[gate]? = some .nativeAttempted then 1 else 0

section

variable {rg r' : List WindowsFetchDataWaiterRegistration}
  {cn : List CancelCall} {effects : List PlatformEffect} {t : CancelTarget}
  {c : WindowsFetchDataCorrelation} {rn : ByteRange} {cl : CancelCall}

lemma WasRegistered.mono (h : WasRegistered rg c rn t) (hmn : ∀ registration ∈ rg, ∃ registered,
      { registration with registered } ∈ r') :
    WasRegistered r' c rn t := by
  obtain ⟨registration, hm, hr⟩ := h
  obtain ⟨registered, hm'⟩ := hmn registration hm
  exact ⟨_, hm', hr⟩

lemma TargetsInvariant.mono (h : TargetsInvariant rg cn effects)
    (hm : ∀ registration ∈ rg, ∃ registered, { registration with registered } ∈ r') :
    TargetsInvariant r' cn effects where
  targets cl hcall t htgt := (h.targets cl hcall t htgt).mono hm
  effects effect heff := (h.effects effect heff).mono hm

lemma TargetsInvariant.set (h : TargetsInvariant rg cn effects) {index : ℕ}
    {c' : CancelCall} (hg : cn[index]? = some cl) (hc : c'.correlation = cl.correlation) (hr : c'.range = cl.range)
    (ht : ∀ t ∈ c'.targets, t ∈ cl.targets) : TargetsInvariant rg (cn.set index c') effects where
  targets other ho t htgt := by
    rcases mem_or_eq_of_mem_set ho with ho | rfl
    · exact h.targets other ho t htgt
    · rw [hc, hr]
      exact h.targets cl (mem_of_getElem? hg) t (ht t htgt)
  effects := h.effects

lemma TargetsInvariant.append (h : TargetsInvariant rg cn effects) {index : ℕ} (hg : cn[index]? = some cl)
    (ht : t ∈ cl.targets) : TargetsInvariant rg cn (effects ++ [⟨cl.correlation, cl.range, t⟩]) where
  targets := h.targets
  effects effect he := by
    rcases mem_append.mp he with he | he
    · exact h.effects effect he
    · rw [mem_singleton.mp he]
      exact h.targets cl (mem_of_getElem? hg) t ht

lemma wasRegistered_of_collect {state : RegistryState} (h : TableInvariant state rg) {w : List ActiveWaiter}
    (hl : state.waiters.lookup c = some w) (ht : t ∈ RegistryState.targetsOf rn w) : WasRegistered rg c rn t := by
  obtain ⟨wt, hw, rfl⟩ := mem_map.mp ht
  obtain ⟨hw, hc⟩ := mem_filter.mp hw
  obtain ⟨registration, hm, -, hs, hof⟩ := h.back c w hl wt hw
  exact ⟨registration, hm, hof.id.symm, hs, hof.range ▸ hc, hof.cancellation.symm, hof.terminal.symm⟩

end

section

variable {g : List FetchTerminalState} {pw : List ℕ} {nativeReturns : List (ℕ × Bool)}

lemma gateInvariant_initial : GateInvariant [] [] [] where
  platform := by simp
  native := by simp

lemma GateInvariant.accept (h : GateInvariant g pw nativeReturns) :
    GateInvariant (g ++ [.pending]) pw nativeReturns := by
  have hsame : ∀ (gate : ℕ) (state : FetchTerminalState), state ≠ .pending →
      ((g ++ [.pending])[gate]? = some state ↔ g[gate]? = some state) := by
    intro gate state hs
    rcases Nat.lt_trichotomy gate g.length with hg | hg | hg
    · rw [getElem?_append_left hg]
    · subst hg
      simp [hs.symm]
    · rw [getElem?_eq_none (by simp only [length_append, length_singleton]; omega), getElem?_eq_none hg.le]
  constructor
  · intro gate
    simp only [hsame gate _ (by decide : platformCancelled ≠ .pending), h.platform gate]
  · intro gate
    simp only [hsame gate _ (by decide : nativeAttempted ≠ .pending), h.native gate]

lemma getElem?_set_eq {α : Type} {xs : List α} {index : ℕ} {old : α} (new : α)
    (hg : xs[index]? = some old) (o : ℕ) :
    (xs.set index new)[o]? = if o = index then some new else xs[o]? := by
  obtain ⟨hi, -⟩ := List.getElem?_eq_some_iff.mp hg
  split
  · rename_i heq
    rw [heq, List.getElem?_set_self hi]
  · rename_i hne
    rw [getElem?_set_ne (Ne.symm hne)]

variable {gt : ℕ}

section

variable (h : GateInvariant g pw nativeReturns)
include h

variable {state : FetchTerminalState}

/-- **An exchange for a native attempt**, from a gate that was not decided. -/
lemma GateInvariant.begin (hg : g[gt]? = some state) (ho : ¬ state.Decided) :
    GateInvariant (g.set gt .nativeAttempted) pw (nativeReturns ++ [(gt, true)]) where
  platform other := by
    rw [getElem?_set_eq _ hg, h.platform other]
    by_cases hother : other = gt
    · subst hother
      have hne : state ≠ .platformCancelled := fun heq => ho (.inr heq)
      simp [hg, hne]
    · simp [hother]
  native other := by
    rw [getElem?_set_eq _ hg, count_append, h.native other]
    by_cases hother : other = gt
    · subst hother
      have hne : state ≠ .nativeAttempted := fun heq => ho (.inl heq)
      simp [hg, hne]
    · simp [hother, Ne.symm hother]

/-- **An exchange for a platform cancellation**, from a gate that was not decided. -/
lemma GateInvariant.cancel (hg : g[gt]? = some state) (ho : ¬ state.Decided) :
    GateInvariant (g.set gt .platformCancelled) (pw ++ [gt]) nativeReturns where
  platform other := by
    rw [getElem?_set_eq _ hg, count_append, h.platform other]
    by_cases hother : other = gt
    · subst hother
      have hne : state ≠ .platformCancelled := fun heq => ho (.inr heq)
      simp [hg, hne]
    · simp [hother, Ne.symm hother]
  native other := by
    rw [getElem?_set_eq _ hg, h.native other]
    by_cases hother : other = gt
    · subst hother
      have hne : state ≠ .nativeAttempted := fun heq => ho (.inl heq)
      simp [hg, hne]
    · simp [hother]

lemma GateInvariant.watchdog (hg : g[gt]? = some state) :
    GateInvariant (g.set gt (state.transition .pending .watchdogTimedOut).2) pw
      nativeReturns := by
  have hsame : ∀ (o : ℕ) (d : FetchTerminalState), d ≠ .pending → d ≠ .watchdogTimedOut →
      ((g.set gt (state.transition .pending .watchdogTimedOut).2)[o]? = some d ↔ g[o]? = some d) := by
    intro o d hp hw
    rw [getElem?_set_eq _ hg]
    by_cases hother : o = gt
    · subst hother
      rw [if_pos rfl, hg, transition]
      split
      · rename_i hstate
        simp [hstate, hp.symm, hw.symm]
      · rfl
    · rw [if_neg hother]
  constructor
  · intro o
    simp only [hsame o _ (by decide : platformCancelled ≠ .pending) (by decide), h.platform o]
  · intro o
    simp only [hsame o _ (by decide : nativeAttempted ≠ .pending) (by decide), h.native o]

/-- A `begin_native` that fails decides nothing either. -/
lemma GateInvariant.failed (gate : ℕ) : GateInvariant g pw (nativeReturns ++ [(gate, false)]) where
  platform := h.platform
  native other := by
    rw [count_append, h.native other]
    simp

end

lemma transition_eq_true {state target next : FetchTerminalState} {a : GateAttempt}
    (h : state.transition a.source target = (true, next)) : ¬ state.Decided ∧ next = target := by
  unfold transition at h
  split at h
  · rename_i hstate
    refine ⟨?_, (Prod.mk.inj h).2.symm⟩
    rw [hstate]
    cases a <;> rintro (h | h) <;> cases h
  · cases h

end

/-! ## The invariant of the system -/

/-- What holds of the whole registry between any two steps. -/
structure RegistryInvariant (system : WaiterRegistry) : Prop where
  table : TableInvariant system.registry system.registrations
  targets : TargetsInvariant system.registrations system.cancels system.effects
  gates : GateInvariant system.gates system.platformWins system.nativeReturns

namespace RegistryInvariant

variable {sy sy' : WaiterRegistry}

lemma initial (c : WindowsFetchDataWatchdogConfig) : RegistryInvariant (.initial c) where
  table := tableInvariant_initial c
  targets := ⟨by simp [WaiterRegistry.initial], by simp [WaiterRegistry.initial]⟩
  gates := gateInvariant_initial

variable {i li : ℕ}

section

variable (h : RegistryInvariant sy)
include h

lemma stepNative (hs : sy.stepNative i = some sy') : RegistryInvariant sy' := by
  unfold WaiterRegistry.stepNative at hs
  simp only [Option.bind_eq_bind, Option.bind_eq_some_iff] at hs
  obtain ⟨call, -, gate, hg, hs⟩ := hs
  split at hs
  · rename_i next htrans
    obtain ⟨ho, rfl⟩ := transition_eq_true htrans
    cases hs
    exact { h with gates := h.gates.begin hg ho }
  · split at hs
    · cases hs
      exact { h with }
    · cases hs
      exact { h with gates := h.gates.failed _ }

/-- **A cancellation** does what it does to the targets it collected. -/
lemma stepCancel (hs : sy.stepCancel i = some sy') : RegistryInvariant sy' := by
  obtain ⟨call, hc, hs⟩ := Option.bind_eq_some_iff.mp hs
  split at hs
  case h_1 =>
    split at hs
    · cases hs
    · cases hs
      exact ⟨h.table.congr rfl rfl rfl, h.targets.set hc rfl rfl (fun _ ht => ht), h.gates⟩
  case h_2 target targets attempt htgts haction =>
    have htgt : target ∈ call.targets := htgts ▸ mem_cons_self
    obtain ⟨gate, hg, hs⟩ := Option.bind_eq_some_iff.mp hs
    split at hs
    · rename_i next htrans
      obtain ⟨hop, rfl⟩ := transition_eq_true htrans
      cases hs
      exact ⟨h.table, (h.targets.append hc htgt).set hc rfl rfl (fun _ ht => ht), h.gates.cancel hg hop⟩
    · cases hs
      exact ⟨h.table, h.targets.set hc rfl rfl (fun _ ht => ht), h.gates⟩
  case h_3 target targets htgts haction =>
    have htgt : target ∈ call.targets := htgts ▸ mem_cons_self
    obtain ⟨t, -, hs⟩ := Option.bind_eq_some_iff.mp hs
    cases hs
    refine ⟨h.table, (h.targets.append hc htgt).set hc rfl rfl ?_, h.gates⟩
    intro o ho
    exact htgts ▸ mem_cons_of_mem _ ho

lemma stepPoll (hs : sy.stepPoll li i = some sy') : RegistryInvariant sy' := by
  obtain ⟨call, -, hs⟩ := Option.bind_eq_some_iff.mp hs
  split at hs
  · cases hs
    exact { h with }
  · obtain ⟨gate, -, hs⟩ := Option.bind_eq_some_iff.mp hs
    cases hs
    exact { h with }
  · obtain ⟨gate, hg, hs⟩ := Option.bind_eq_some_iff.mp hs
    cases hs
    exact { h with gates := h.gates.watchdog hg }
  · obtain ⟨t, -, hs⟩ := Option.bind_eq_some_iff.mp hs
    cases hs
    exact { h with }
  · split at hs
    · cases hs
    · cases hs
      exact ⟨h.table.congr rfl rfl rfl, h.targets, h.gates⟩
  · cases hs

lemma cancel {s : WindowsCancelFetchDataSnapshot} (hs : sy.step li (.cancel s) = some sy') :
    RegistryInvariant sy' := by
  simp only [WaiterRegistry.step] at hs
  split at hs
  · cases hs
  split at hs
  · cases hs
    exact h
  unfold RegistryState.collect at hs
  cases hlook : sy.registry.waiters.lookup (.fromInfo s.info) with
  | none =>
    simp only [hlook] at hs
    cases hs
    exact ⟨h.table.congr rfl rfl rfl, h.targets, h.gates⟩
  | some w =>
    simp only [hlook] at hs
    cases hs
    refine ⟨h.table.congr rfl rfl ?_, ⟨?_, h.targets.effects⟩, h.gates⟩
    · split <;> rfl
    · intro call hc target ht
      rcases mem_append.mp hc with hc | hc
      · exact h.targets.targets call hc target ht
      · rw [mem_singleton.mp hc] at ht ⊢
        exact wasRegistered_of_collect h.table hlook ht

/-- **Every step keeps the invariant.** -/
theorem step {label : RegistryLabel} (hs : sy.step li label = some sy') : RegistryInvariant sy' := by
  cases label with
  | accept =>
    cases hs
    exact { h with gates := h.gates.accept }
  | request =>
    cases hs
    exact { h with }
  | settle hydration terminal | beginNative gate =>
    simp only [WaiterRegistry.step] at hs
    split at hs
    · cases hs
      exact { h with }
    · cases hs
  | register correlation range cancellation terminal now =>
    simp only [WaiterRegistry.step] at hs
    split at hs
    · cases hs
    split at hs
    · cases hs
      exact h
    · rename_i id registry hreg
      cases hs
      refine ⟨h.table.register hreg, h.targets.mono ?_, h.gates⟩
      intro registration hm
      exact ⟨_, mem_append_left _ hm⟩
  | unregister i =>
    simp only [WaiterRegistry.step] at hs
    split at hs
    · cases hs
    rename_i registration hget
    split at hs
    · cases hs
    · rename_i hfree
      cases hs
      have hregistered : registration.registered = true := by
        cases hcase : registration.registered with
        | false => exact absurd (.inr hcase) hfree
        | true => rfl
      refine ⟨h.table.unregister hget hregistered, h.targets.mono ?_, h.gates⟩
      intro other ho
      obtain ⟨j, hj⟩ := mem_iff_getElem?.mp ho
      by_cases hne : i = j
      · subst hne
        cases hget.symm.trans hj
        exact ⟨false, List.mem_set (List.getElem?_eq_some_iff.mp hget).1 _⟩
      · exact ⟨other.registered, List.mem_of_getElem? ((List.getElem?_set_ne hne).trans hj)⟩
  | cancel snapshot => exact h.cancel hs
  | advanceCancel call => exact h.stepCancel hs
  | reportProgress correlation progress now =>
    simp only [WaiterRegistry.step] at hs
    split at hs
    · cases hs
    · cases hs
      exact ⟨h.table.reportProgress correlation progress now, h.targets, h.gates⟩
  | poll now =>
    simp only [WaiterRegistry.step] at hs
    split at hs
    · cases hs
    · cases hs
      exact { h with }
  | advancePoll call => exact h.stepPoll hs
  | advanceNative call => exact h.stepNative hs

end

lemma reachable {c : WindowsFetchDataWatchdogConfig}
    (h : WaiterRegistry.ReachableFrom li c sy) : RegistryInvariant sy :=
  Reachable.induction (I := RegistryInvariant) (by rintro _ rfl; exact initial c)
    (fun _ _ _ _ hi hs => hi.step hs) h

/-- **What the next action of a cancellation changes**, it changes at the first of its targets. -/
lemma changed_of_stepCancel (hs : sy.stepCancel i = some sy') :
    (sy'.hydrations = sy.hydrations ∧ sy'.gates = sy.gates) ∨
      ∃ call target, sy.cancels[i]? = some call ∧ target ∈ call.targets ∧
        (∀ hy, hy ≠ target.cancellation → sy'.hydrations[hy]? = sy.hydrations[hy]?) ∧
        ∀ gate, gate ≠ target.terminal → sy'.gates[gate]? = sy.gates[gate]? := by
  obtain ⟨call, hc, hs⟩ := Option.bind_eq_some_iff.mp hs
  split at hs
  case h_1 =>
    split at hs
    · cases hs
    · cases hs
      exact .inl ⟨rfl, rfl⟩
  case h_2 target targets attempt htgts haction =>
    obtain ⟨gate, hg, hs⟩ := Option.bind_eq_some_iff.mp hs
    split at hs
    · cases hs
      exact .inr ⟨call, target, hc, htgts ▸ mem_cons_self, fun _ _ => rfl,
        fun o ho => getElem?_set_ne (Ne.symm ho)⟩
    · cases hs
      exact .inl ⟨rfl, rfl⟩
  case h_3 target targets htgts haction =>
    obtain ⟨t, -, hs⟩ := Option.bind_eq_some_iff.mp hs
    cases hs
    exact .inr ⟨call, target, hc, htgts ▸ mem_cons_self,
      fun o ho => getElem?_set_ne (Ne.symm ho), fun _ _ => rfl⟩

/-- **A cancellation reaches registered waiters of its correlation within its range only.** -/
lemma wasRegistered_of_stepCancel (h : RegistryInvariant sy) (hs : sy.stepCancel i = some sy')
    (hc : sy'.hydrations ≠ sy.hydrations ∨ sy'.gates ≠ sy.gates) : ∃ call target, sy.cancels[i]? = some call ∧
      WasRegistered sy.registrations call.correlation call.range target ∧
      (∀ hy, hy ≠ target.cancellation → sy'.hydrations[hy]? = sy.hydrations[hy]?) ∧
      ∀ gate, gate ≠ target.terminal → sy'.gates[gate]? = sy.gates[gate]? := by
  rcases changed_of_stepCancel hs with ⟨hh, hg⟩ | ⟨call, target, hcl, hm, hr⟩
  · rcases hc with hc | hc
    · exact absurd hh hc
    · exact absurd hg hc
  · exact ⟨call, target, hcl, h.targets.targets call (mem_of_getElem? hcl) target hm, hr⟩

lemma at_most_one_winner (h : RegistryInvariant sy) (gate : ℕ) :
    sy.nativeReturns.count (gate, true) + sy.platformWins.count gate ≤ 1 := by
  rw [h.gates.native gate, h.gates.platform gate]
  cases hgate : sy.gates[gate]? with
  | none => simp
  | some state => cases state <;> simp

end RegistryInvariant

/-! ## The registry as a whole -/

/-- **The waiter registry.**  In every state that registrations, cancellations, progress reports,
polls and native attempts reach in any order: the counter of active waiters is the number of waiters
in the table and of registrations that were not dropped; what a cancellation did, and what its next
action changes, concerns a waiter registered under the same correlation within the cancelled range;
at every gate the native attempts that succeeded and the cancellations that won are one together at
most; and a progress report that is answered with an error changes no waiter. -/
theorem waiter_registry {lastInstant : ℕ} {config : WindowsFetchDataWatchdogConfig}
    {system : WaiterRegistry} (h : WaiterRegistry.ReachableFrom lastInstant config system) :
    (system.registry.metrics.activeWaiters = system.registry.activeWaiters.length ∧
      system.registry.metrics.activeWaiters =
        system.registrations.countP WindowsFetchDataWaiterRegistration.registered) ∧
    ((∀ effect ∈ system.effects,
        WasRegistered system.registrations effect.correlation effect.range effect.target) ∧
      ∀ index system', system.step lastInstant (.advanceCancel index) = some system' →
        system'.hydrations ≠ system.hydrations ∨ system'.gates ≠ system.gates →
        ∃ call target, system.cancels[index]? = some call ∧
          WasRegistered system.registrations call.correlation call.range target ∧
          (∀ hydration, hydration ≠ target.cancellation →
            system'.hydrations[hydration]? = system.hydrations[hydration]?) ∧
          ∀ gate, gate ≠ target.terminal → system'.gates[gate]? = system.gates[gate]?) ∧
    (∀ gate, system.nativeReturns.count (gate, true) + system.platformWins.count gate ≤ 1) ∧
    ∀ correlation progress now error,
      (system.registry.reportProgress correlation progress now).1 = .error error →
        (system.registry.reportProgress correlation progress now).2.waiters =
          system.registry.waiters := by
  have hinv := RegistryInvariant.reachable h
  refine ⟨⟨hinv.table.active_eq, hinv.table.active⟩, ⟨hinv.targets.effects, ?_⟩, hinv.at_most_one_winner, ?_⟩
  · intro index system' hs hc
    exact hinv.wasRegistered_of_stepCancel hs hc
  · intro correlation progress now error he
    obtain ⟨-, -, hw | ⟨waiters, -, hok, -⟩⟩ :=
      reportProgress_cases system.registry correlation progress now
    · exact hw
    · rw [hok] at he
      cases he

def exampleFetch : WindowsCallbackInfoSnapshot := ⟨⟨1, Nat.one_pos, one_le_u64Max⟩, 2, 3, 4, 5, 100⟩

/-- The cancellation of the whole file. -/
def exampleCancel : WindowsCancelFetchDataSnapshot where
  info := exampleFetch
  range := ⟨0, .toEnd, by decide, by rintro _ ⟨⟩⟩

def cancelledFetch : List RegistryLabel :=
  [.accept, .request, .register (.fromInfo exampleFetch) ⟨10, 20, by decide, by decide⟩ 0 0 7,
    .beginNative 0, .cancel exampleCancel, .advanceCancel 0, .advanceCancel 0, .advanceNative 0,
    .advanceNative 0]

/-- The cancellation wins, so no native attempt has succeeded. -/
theorem waiter_registry_cancelledFetch :
    ∃ system, execute (WaiterRegistry.step 1000) (.initial .default) cancelledFetch = some system ∧
      system.hydrations = [.cancelled] ∧ system.registry.metrics.activeWaiters = 1 ∧
        system.registry.activeWaiters.length = 1 ∧ system.nativeReturns.count (0, true) = 0 := by
  have hrun : (execute (WaiterRegistry.step 1000) (.initial .default) cancelledFetch).map
      (fun system => (system.hydrations, system.registry.metrics.activeWaiters,
        system.platformWins)) = some ([.cancelled], 1, [0]) := by
    decide
  simp only [Option.map_eq_some_iff, Prod.mk.injEq] at hrun
  obtain ⟨system, hs, hh, ha, hw⟩ := hrun
  obtain ⟨⟨ht, -⟩, -, ho, -⟩ := waiter_registry ⟨_, _, rfl, run_of_execute hs⟩
  refine ⟨system, hs, hh, ha, ht ▸ ha, ?_⟩
  have hone := ho 0
  rw [hw] at hone
  simpa using hone

end AsterForge.Windows
