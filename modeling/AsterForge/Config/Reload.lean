import AsterForge.Events.Supervisor
import AsterForge.Library.Text

/-!
# Reload hints

A hint says that configuration changed, and which keys; no keys means all of it.  A process acts on the
hints of its namespace that another process emitted.  What failed to be reloaded is kept for a retry, as
one message for all of it, with a bound on its keys.

* **`covers_mergeMessage`** — the message for the retry covers what is merged and what was merged before.
-/

namespace AsterForge.Config

open Library Events

inductive ConfigNotificationSource
  | api
  | cli
  | startup
  | other (name : Text)
  deriving DecidableEq

structure ConfigReloadMessage where
  (namespace' : Text)
  originRuntimeId : Text
  keys : List Text
  source : ConfigNotificationSource
  deriving DecidableEq

def ConfigReloadMessage.new (name originRuntimeId : Text) (keys : List Text)
    (source : ConfigNotificationSource) : ConfigReloadMessage :=
  ⟨name, originRuntimeId, sortDedup keys, source⟩

inductive ConfigReloadDecision
  | reloaded
  | ignoredNamespace
  | ignoredOrigin

structure ConfigReloadWorkerConfig where
  (namespace' : Text)
  runtimeId : Text

namespace ConfigReloadWorkerConfig

variable (config : ConfigReloadWorkerConfig) (message : ConfigReloadMessage)

def acceptsNamespace : Bool := message.namespace' = config.namespace'

def isLocalOrigin : Bool := message.originRuntimeId = config.runtimeId

/-- How `handle_config_reload_notification` decides before it calls `reload`. -/
def ignores : Option ConfigReloadDecision :=
  if ¬ config.acceptsNamespace message then some .ignoredNamespace
  else if config.isLocalOrigin message then some .ignoredOrigin
  else none

/-- The hints that are acted on: those of the namespace that another process emitted. -/
def Concerns : Prop := message.namespace' = config.namespace' ∧ message.originRuntimeId ≠ config.runtimeId

lemma ignores_eq_none : config.ignores message = none ↔ config.Concerns message := by
  rw [ignores, Concerns, acceptsNamespace, isLocalOrigin]
  by_cases hname : message.namespace' = config.namespace'
  · by_cases horigin : message.originRuntimeId = config.runtimeId
    · simp [hname, horigin]
    · simp [hname, horigin]
  · simp [hname]

end ConfigReloadWorkerConfig

/-! ## What a message asks for -/

/-- A message asks for everything, or for at least the keys of another that does not ask for everything. -/
def Covers (message other : ConfigReloadMessage) : Prop :=
  message.keys = [] ∨ (other.keys ≠ [] ∧ other.keys ⊆ message.keys)
  deriving Decidable

lemma Covers.refl (m : ConfigReloadMessage) : Covers m m := by
  by_cases hkeys : m.keys = []
  · exact .inl hkeys
  · exact .inr ⟨hkeys, List.Subset.refl _⟩

/-! ## Retries -/

structure ConfigReloadRetry where
  deadline : Option ℕ
  attempt : ℕ
  message : Option ConfigReloadMessage

def maxPendingKeys : ℕ := 1024

namespace ConfigReloadRetry

/-- `ConfigReloadRetry::default`. -/
def default : ConfigReloadRetry := ⟨none, 0, none⟩

variable (retry : ConfigReloadRetry)

def schedule (policy : EventReconnectPolicy) (now draw : ℕ) : ConfigReloadRetry :=
  match retry.deadline with
  | some _ => retry
  | none =>
    let attempt := min (retry.attempt + 1) (2 ^ 32 - 1)
    let delay := max (policy.reconnectDelay attempt draw) (second / 1000)
    { retry with attempt := attempt, deadline := some (now + delay) }

def mergedKeys (message : ConfigReloadMessage) : List Text :=
  match retry.message with
  | none => message.keys
  | some pending =>
    if pending.keys = [] ∨ message.keys = [] then [] else sortDedup (message.keys ++ pending.keys)

def mergeMessage (message : ConfigReloadMessage) : ConfigReloadRetry :=
  let keys := retry.mergedKeys message
  { retry with message := some { message with keys := if maxPendingKeys < keys.length then [] else keys } }

variable (p : EventReconnectPolicy)

lemma schedule_message (now d : ℕ) : (retry.schedule p now d).message = retry.message := by
  rw [schedule]
  split <;> rfl

lemma schedule_isSome (now d : ℕ) : (retry.schedule p now d).deadline.isSome = true := by
  rw [schedule]
  split
  · next deadline hdead => rw [hdead, Option.isSome_some]
  · rfl

variable {retry} {message : ConfigReloadMessage}

/-- **The message for the retry covers what is merged, and what was covered before**; it has a bounded
number of keys, and says what the last message says otherwise. -/
theorem covers_mergeMessage (r : ConfigReloadRetry) (ms : ConfigReloadMessage) :
    ∃ m, (r.mergeMessage ms).message = some m ∧ m.keys.length ≤ maxPendingKeys ∧
      m.namespace' = ms.namespace' ∧ m.originRuntimeId = ms.originRuntimeId ∧ Covers m ms ∧
      ∀ p o, r.message = some p → Covers p o → Covers m o := by
  refine ⟨_, rfl, ?_, rfl, rfl, ?_, ?_⟩
  · split
    · exact Nat.zero_le _
    · next hbound => exact Nat.le_of_not_lt hbound
  · by_cases hbound : maxPendingKeys < (r.mergedKeys ms).length
    · exact .inl (if_pos hbound)
    · rw [if_neg hbound, mergedKeys]
      split
      · exact Covers.refl ms
      · split
        · exact .inl rfl
        · next p _ hkeys =>
            rw [not_or] at hkeys
            exact .inr ⟨hkeys.2, fun key hk => mem_sortDedup.mpr (List.mem_append_left _ hk)⟩
  · intro p o hp hc
    by_cases hbound : maxPendingKeys < (r.mergedKeys ms).length
    · exact .inl (if_pos hbound)
    · rw [if_neg hbound, mergedKeys, hp]
      dsimp only
      split
      · exact .inl rfl
      · next hkeys =>
          rw [not_or] at hkeys
          rcases hc with ha | ⟨ho, hs⟩
          · exact absurd ha hkeys.1
          · exact .inr ⟨ho, fun key hk =>
              mem_sortDedup.mpr (List.mem_append_right _ (hs hk))⟩

end ConfigReloadRetry

end AsterForge.Config
