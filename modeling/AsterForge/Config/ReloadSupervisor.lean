import AsterForge.Config.Reload
import AsterForge.Library.Runs

/-!
# The reload supervisor

One loop waits for the retry that is pending, for the subscription supervisor and for its updates, and
runs one callback at a time.  With a `reconcile` callback it reconciles after every connection, and a
retry is a reconciliation; without one, a retry reloads the hints that failed.  Behind it stands a
transport that delivers what is published to an active subscription in order, or ends it.

* `Subscription`, `ConfigSync`, `ConfigSync.next` — the transport, what was published, and what was
  done.
-/

namespace AsterForge.Config

open Library Events

/-- A published message, by its place among all that were published. -/
structure Hint where
  serial : ℕ
  message : ConfigReloadMessage
  deriving DecidableEq

abbrev Update := EventSubscriptionUpdate Hint

/-- What the retry arm runs: a reconciliation, with the number of hints that were published when it began,
the pending message, or nothing. -/
inductive RetryWork
  | reconcile (began : ℕ)
  | reload (message : ConfigReloadMessage)
  | nothing
  deriving DecidableEq

inductive LoopPhase
  | selecting
  /-- Reconciling after a connection. -/
  | reconciling (began : ℕ)
  | retrying (work : RetryWork)
  | reloading (hint : Hint)
  | returned
  deriving DecidableEq

structure ReloadLoop where
  supervisor : EventSupervisor Hint
  channel : Option Update
  retry : ConfigReloadRetry
  phase : LoopPhase

/-- A callback that came to an end, and whether it succeeded. -/
inductive SyncRecord
  | reloaded (hint : Hint) (succeeded : Bool)
  | reconciled (began : ℕ) (succeeded : Bool)
  | retried (message : ConfigReloadMessage) (succeeded : Bool)

/-- `default_config_reload_reconnect_policy`. -/
def defaultConfigReloadReconnectPolicy : EventReconnectPolicy where
  initialDelay := 250 * (second / 1000)
  maxDelay := 30 * second
  stableResetAfter := 30 * second
  jitterMinPercent := 50
  jitterMaxPercent := 100

/-- What the loop is given: its configuration, the policy, and whether there is a `reconcile` callback. -/
structure ReloadSettings where
  config : ConfigReloadWorkerConfig
  policy : EventReconnectPolicy
  reconciles : Bool

inductive LoopEvent
  | supervisor (event : SupervisorEvent Hint)
  | recv
  | retryDue
  | callback (succeeded : Bool) (draw : ℕ)
  | shutdown

namespace ReloadLoop

def new : ReloadLoop := ⟨.new, none, .default, .selecting⟩

variable (settings : ReloadSettings) (self : ReloadLoop)

/-- The supervisor goes on; it waits where the channel is full. -/
def supervise (now : ℕ) (event : SupervisorEvent Hint) : Option ReloadLoop :=
  (self.supervisor.next settings.policy now event).bind fun (supervisor, update) =>
    match update, self.channel with
    | none, _ => some { self with supervisor := supervisor }
    | some update, none => some { self with supervisor := supervisor, channel := some update }
    | some _, some _ => none

def handle (published : ℕ) : Update → ReloadLoop
  | .connection observation =>
    if (observation.state = .connected ∨ observation.state = .recovered) ∧ settings.reconciles then
      { self with phase := .reconciling published }
    else self
  | .item hint =>
    match settings.config.ignores hint.message with
    | some _ => self
    | none => { self with phase := .reloading hint }

def retryWork (published : ℕ) : RetryWork :=
  if settings.reconciles then .reconcile published
  else match self.retry.message with
    | some message => .reload message
    | none => .nothing

def mayFail : RetryWork → Bool
  | .reconcile _ => true
  | .reload message => (settings.config.ignores message).isNone
  | .nothing => false

def settleRetry (now : ℕ) (succeeded : Bool) (draw : ℕ) : ReloadLoop :=
  { self with
    retry := if succeeded then .default else self.retry.schedule settings.policy now draw
    phase := .selecting }

def keep (now draw : ℕ) (message : ConfigReloadMessage) : ConfigReloadRetry :=
  (if settings.reconciles then self.retry else self.retry.mergeMessage message).schedule
    settings.policy now draw

/-- A callback comes to an end. -/
def finish (now : ℕ) (succeeded : Bool) (draw : ℕ) : Option (ReloadLoop × List SyncRecord) :=
  match self.phase with
  | .reconciling began =>
    some (self.settleRetry settings now succeeded draw, [.reconciled began succeeded])
  | .retrying work =>
    if succeeded ∨ mayFail settings work then
      some (self.settleRetry settings now succeeded draw, match work with
        | .reconcile began => [.reconciled began succeeded]
        | .reload message => [.retried message succeeded]
        | .nothing => [])
    else none
  | .reloading hint =>
    some ({ self with
      retry := if succeeded then self.retry else self.keep settings now draw hint.message
      phase := .selecting }, [.reloaded hint succeeded])
  | .selecting | .returned => none

/-- A step of the loop, at a time and when so many hints were published, with what it adds to the record. -/
def next (now published : ℕ) : LoopEvent → Option (ReloadLoop × List SyncRecord)
  | .supervisor event =>
    match self.phase with
    | .selecting => (self.supervise settings now event).map fun self => (self, [])
    | _ => none
  | .recv =>
    match self.phase, self.channel with
    | .selecting, some update => some ({ self with channel := none }.handle settings published update, [])
    | _, _ => none
  | .retryDue =>
    match self.phase, self.retry.deadline with
    | .selecting, some deadline =>
      if deadline ≤ now then
        some ({ self with
          retry := { self.retry with deadline := none }
          phase := .retrying (self.retryWork settings published) }, [])
      else none
    | _, _ => none
  | .callback succeeded draw => self.finish settings now succeeded draw
  | .shutdown =>
    match self.phase with
    | .returned => none
    | _ => some ({ self with phase := .returned }, [])

end ReloadLoop

/-! ## The transport -/

/-- An active subscription: what is on its way, and whether it lost something and is about to end. -/
structure Subscription where
  queue : List Hint
  failed : Bool
  deriving DecidableEq

structure ConfigSync where
  now : ℕ
  self : ReloadLoop
  transport : Option Subscription
  published : List ConfigReloadMessage
  /-- What was done, the latest first. -/
  record : List SyncRecord

inductive SyncEvent
  | wait (duration : ℕ)
  /-- A message is published; an active subscription may lose it, and ends then. -/
  | publish (message : ConfigReloadMessage) (lost : Bool)
  /-- A subscription falls behind, and loses what it should have received first. -/
  | overrun (dropped : ℕ)
  | subscribed
  | subscribeFailed (draw : ℕ)
  | received
  | receiveFailed (draw : ℕ)
  | sent
  | woke
  | recv
  | retryDue
  | callback (succeeded : Bool) (draw : ℕ)
  | shutdown

namespace ConfigSync

def new : ConfigSync := ⟨0, .new, none, [], []⟩

variable (settings : ReloadSettings) (s : ConfigSync)

def loop (transport : Option Subscription) (event : LoopEvent) : Option ConfigSync :=
  (s.self.next settings s.now s.published.length event).map fun (self, done) =>
    { s with self := self, transport := transport, record := done ++ s.record }

def deliver (hint : Hint) (lost : Bool) (subscription : Subscription) : Subscription :=
  if lost then { subscription with failed := true }
  else { subscription with queue := subscription.queue ++ [hint] }

def next : SyncEvent → Option ConfigSync
  | .wait duration => some { s with now := s.now + duration }
  | .publish message lost =>
    some { s with
      published := s.published ++ [message]
      transport := s.transport.map (deliver ⟨s.published.length, message⟩ lost) }
  | .overrun dropped =>
    s.transport.map fun subscription =>
      { s with transport := some ⟨subscription.queue.drop dropped, true⟩ }
  | .subscribed => s.loop settings (some ⟨[], false⟩) (.supervisor .subscribed)
  | .subscribeFailed draw => s.loop settings s.transport (.supervisor (.subscribeFailed draw))
  | .received =>
    match s.transport with
    | some ⟨hint :: queue, failed⟩ => s.loop settings (some ⟨queue, failed⟩) (.supervisor (.received hint))
    | _ => none
  | .receiveFailed draw => s.loop settings none (.supervisor (.receiveFailed draw))
  | .sent => s.loop settings s.transport (.supervisor .sent)
  | .woke => s.loop settings s.transport (.supervisor .woke)
  | .recv => s.loop settings s.transport .recv
  | .retryDue => s.loop settings s.transport .retryDue
  | .callback succeeded draw => s.loop settings s.transport (.callback succeeded draw)
  | .shutdown => s.loop settings none .shutdown

end ConfigSync

def SyncStep (settings : ReloadSettings) (s : ConfigSync) (event : SyncEvent) (t : ConfigSync) : Prop :=
  s.next settings event = some t

end AsterForge.Config
