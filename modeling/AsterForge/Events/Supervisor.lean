import AsterForge.Library.Time

/-!
# The subscription supervisor

A supervisor subscribes, says that it is connected, passes on what it receives, and after a failure says
so, waits, and subscribes again.  What it says goes into a channel, one update at a time.  How long it
waits grows with the failures in a row, is varied at random, and has an upper bound.

* **`reconnectDelay_le`** — no wait is longer than the policy allows.
-/

namespace AsterForge.Events

open Library

/-! ## Delays -/

/-- `Duration::MAX`, in nanoseconds. -/
def maxDuration : ℕ := (2 ^ 64 - 1) * second + 999999999

def doubled (delay : ℕ) : ℕ → ℕ
  | 0 => delay
  | remaining + 1 => if delay < maxDuration then doubled (min (delay + delay) maxDuration) remaining else delay

def exponentialDelay (initialDelay retryIndex : ℕ) : ℕ := doubled initialDelay (min retryIndex 127)

def capDelay (delay maxDelay : ℕ) : ℕ := min delay maxDelay

def applyJitter (delay percent : ℕ) : ℕ := min (min (delay * percent) (2 ^ 128 - 1) / 100) maxDuration

/-- A percentage that is drawn from a range. -/
def randomizedJitter (delay minPercent maxPercent draw : ℕ) : ℕ :=
  let low := min minPercent 1000
  let high := max (min maxPercent 1000) low
  applyJitter delay (low + draw % (high - low + 1))

structure EventReconnectPolicy where
  initialDelay : ℕ
  maxDelay : ℕ
  stableResetAfter : ℕ
  jitterMinPercent : ℕ
  jitterMaxPercent : ℕ

def EventReconnectPolicy.reconnectDelay (policy : EventReconnectPolicy) (reconnectAttempt draw : ℕ) : ℕ :=
  let capped := capDelay (exponentialDelay policy.initialDelay (reconnectAttempt - 1)) policy.maxDelay
  capDelay (randomizedJitter capped policy.jitterMinPercent policy.jitterMaxPercent draw) policy.maxDelay

/-- **No wait is longer than the policy allows.** -/
theorem reconnectDelay_le (p : EventReconnectPolicy) (ra d : ℕ) :
    p.reconnectDelay ra d ≤ p.maxDelay := min_le_right _ _

/-! ## The supervisor -/

inductive EventConnectionState
  | connected
  | disconnected
  | reconnecting
  | recovered
  deriving DecidableEq

structure EventConnectionObservation where
  state : EventConnectionState
  reconnectAttempt : ℕ
  backoff : ℕ
  deriving DecidableEq

inductive EventSubscriptionUpdate (ν : Type)
  | connection (observation : EventConnectionObservation)
  | item (item : ν)
  deriving DecidableEq

variable {ν : Type}

/-- What a supervisor does when its updates are in the channel. -/
inductive AfterSend
  | receive
  /-- The subscription is new: the time is noted first. -/
  | stabilize
  | sleep (delay : ℕ)
  deriving DecidableEq

inductive SupervisorPhase (ν : Type)
  | subscribing
  | sending (updates : List (EventSubscriptionUpdate ν)) (after : AfterSend)
  | receiving
  | sleeping (wake : ℕ)
  deriving DecidableEq

structure EventSupervisor (ν : Type) where
  reconnectAttempt : ℕ
  connectedAt : ℕ
  phase : SupervisorPhase ν

inductive SupervisorEvent (ν : Type)
  | subscribed
  | subscribeFailed (draw : ℕ)
  | received (item : ν)
  | receiveFailed (draw : ℕ)
  | sent
  | woke

namespace EventSupervisor

def new : EventSupervisor ν := ⟨0, 0, .subscribing⟩

variable (policy : EventReconnectPolicy) (supervisor : EventSupervisor ν)

/-- A failure after so many others. -/
def fails (attempts draw : ℕ) : EventSupervisor ν :=
  let attempt := min (attempts + 1) (2 ^ 32 - 1)
  let delay := policy.reconnectDelay attempt draw
  { supervisor with
    reconnectAttempt := attempt
    phase := .sending [.connection ⟨.disconnected, attempt, 0⟩, .connection ⟨.reconnecting, attempt, delay⟩]
      (.sleep delay) }

def afterSend (now : ℕ) : AfterSend → EventSupervisor ν
  | .receive => { supervisor with phase := .receiving }
  | .stabilize => { supervisor with phase := .receiving, connectedAt := now }
  | .sleep delay => { supervisor with phase := .sleeping (now + delay) }

def next (now : ℕ) : SupervisorEvent ν → Option (EventSupervisor ν × Option (EventSubscriptionUpdate ν))
  | .subscribed =>
    match supervisor.phase with
    | .subscribing =>
      let state := if supervisor.reconnectAttempt = 0 then .connected else .recovered
      some ({ supervisor with
        phase := .sending [.connection ⟨state, supervisor.reconnectAttempt, 0⟩] .stabilize }, none)
    | _ => none
  | .subscribeFailed draw =>
    match supervisor.phase with
    | .subscribing => some (supervisor.fails policy supervisor.reconnectAttempt draw, none)
    | _ => none
  | .received item =>
    match supervisor.phase with
    | .receiving => some (⟨0, supervisor.connectedAt, .sending [.item item] .receive⟩, none)
    | _ => none
  | .receiveFailed draw =>
    match supervisor.phase with
    | .receiving =>
      -- a subscription that was stable for long enough makes up for the failures before it
      let attempts := if policy.stableResetAfter ≤ now - supervisor.connectedAt then 0
        else supervisor.reconnectAttempt
      some (supervisor.fails policy attempts draw, none)
    | _ => none
  | .sent =>
    match supervisor.phase with
    | .sending [update] after => some (supervisor.afterSend now after, some update)
    | .sending (update :: more) after => some ({ supervisor with phase := .sending more after }, some update)
    | _ => none
  | .woke =>
    match supervisor.phase with
    | .sleeping wake => if wake ≤ now then some ({ supervisor with phase := .subscribing }, none) else none
    | _ => none

end EventSupervisor

end AsterForge.Events
