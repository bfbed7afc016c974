import AsterForge.Core.Item
import AsterForge.Core.Store

/-!
# Durable mutations

One product-neutral mutation is a durable record that moves through six states.

* `MutationRecord.Coherent` — a recorded outcome exactly from the unknown-outcome state on, and a known
  one exactly from the known-outcome state on.
* `MutationRecord.Later` — one record is the other, or further along: a larger rank, the same intent,
  and the same outcome once that is known.
* **`MutationRecord.later_apply`** — every transition leads to a later record.
-/

namespace AsterForge.Core

/-! ## Intents -/

abbrev OperationId := StringIdentity "operation id"

/-- Opaque backend reconciliation key used to detect an already committed mutation. -/
abbrev IdempotencyKey := StringIdentity "idempotency key"

/-- The operation of the examples, and the key under which its backend knows it. -/
def sampleOperationId : OperationId := ⟨"operation", by decide⟩

def sampleIdempotencyKey : IdempotencyKey := ⟨"idempotency", by decide⟩

abbrev PlatformRequestCorrelation := StringIdentity "platform request correlation"

abbrev RemoteReconciliationKey := StringIdentity "remote reconciliation key"

/-- How a local or remote effect entered the shared mechanism. -/
inductive MutationOrigin
  | platformCommand
  | platformPreflight
  | platformObserved
  | remoteChange
  deriving DecidableEq

/-- Conditional revisions captured when a mutation intent is created. -/
structure MutationPreconditions where
  metadataRevision : Option MetadataRevision
  contentRevision : Option ContentRevision
  deriving DecidableEq

inductive DesiredMutation
  | create (scope : CloudScope) (parentId : CloudItemId) (name : String) (kind : CloudItemKind)
  | modifyContent (key : CloudItemKey)
  | modifyMetadata (key : CloudItemKey) (parentId : Option CloudItemId) (name : Option String)
  | delete (key : CloudItemKey)
  deriving DecidableEq

namespace DesiredMutation

def scope : DesiredMutation → CloudScope
  | create scope _ _ _ => scope
  | modifyContent key | modifyMetadata key _ _ | delete key => key.scope

def existingItemKey : DesiredMutation → Option CloudItemKey
  | create _ _ _ _ => none
  | modifyContent key | modifyMetadata key _ _ | delete key => some key

def requiresLocalContent : DesiredMutation → Bool
  | modifyContent _ => true
  | _ => false

end DesiredMutation

structure MutationRetryMetadata where
  attempt : ℕ
  notBefore : Option ℕ
  deriving DecidableEq

/-- In-memory intent that must be durably inserted before acknowledgement. -/
structure MutationIntent where
  operationId : OperationId
  idempotencyKey : IdempotencyKey
  origin : MutationOrigin
  sessionGeneration : SessionGeneration
  desired : DesiredMutation
  preconditions : MutationPreconditions
  localContent : Option LocalContentSnapshot
  platformCorrelation : Option PlatformRequestCorrelation
  remoteReconciliationKey : Option RemoteReconciliationKey
  retry : MutationRetryMetadata
  deriving DecidableEq

def MutationIntent.validateForPersistence (intent : MutationIntent) : Except CloudFilesCoreError Unit :=
  if intent.desired.requiresLocalContent && intent.localContent.isNone then
    .error (.invalidMutationIntent "content mutation requires a local content reference")
  else if !intent.desired.requiresLocalContent && intent.localContent.isSome then
    .error (.invalidMutationIntent "local content snapshot is only valid for content mutation")
  else
    match intent.desired.existingItemKey, intent.localContent with
    | some key, some snapshot =>
      if snapshot.itemKey ≠ key then
        .error (.invalidMutationIntent
          "local content snapshot item does not match the mutation target")
      else .ok ()
    | _, _ => .ok ()

/-! ## States and outcomes -/

inductive MutationState
  | intentPersisted
  | remoteApplying
  | remoteOutcomeUnknown
  | remoteOutcomeKnown
  | platformReconciled
  | completed
  deriving DecidableEq

/-- The position of a state along the way to completion. -/
def MutationState.rank : MutationState → ℕ
  | intentPersisted => 0
  | remoteApplying => 1
  | remoteOutcomeUnknown => 2
  | remoteOutcomeKnown => 3
  | platformReconciled => 4
  | completed => 5

lemma MutationState.rank_le (s : MutationState) : s.rank ≤ 5 := by
  cases s <;> simp [rank]

inductive MutationRemoteOutcome
  | committed (item : Option CloudItem)
  | alreadyCommitted (item : Option CloudItem)
  | preconditionFailed (metadataRevision : Option MetadataRevision) (contentRevision : Option ContentRevision)
  | remoteOutcomeUnknown
  deriving DecidableEq

namespace MutationRemoteOutcome

def durableState : MutationRemoteOutcome → MutationState
  | remoteOutcomeUnknown => .remoteOutcomeUnknown
  | _ => .remoteOutcomeKnown

def sameCommittedEffect : MutationRemoteOutcome → MutationRemoteOutcome → Bool
  | committed left, committed right | committed left, alreadyCommitted right
  | alreadyCommitted left, committed right | alreadyCommitted left, alreadyCommitted right =>
    left = right
  | _, _ => false

end MutationRemoteOutcome

/-! ## Outcome validation -/

def requiredExistingItem (item : Option CloudItem) (key : CloudItemKey)
    (missingReason mismatchReason : String) : Except CloudFilesCoreError CloudItem :=
  match item with
  | none => .error (.invalidMutationTransition missingReason)
  | some item =>
    if item.key ≠ key then .error (.invalidMutationTransition mismatchReason) else .ok item

def validateCommittedItem (desired : DesiredMutation) (item : Option CloudItem) :
    Except CloudFilesCoreError Unit :=
  match desired with
  | .create scope parentId name kind =>
    match item with
    | none =>
      .error (.invalidMutationTransition "committed create outcome requires current item metadata")
    | some item =>
      if item.key.scope ≠ scope then
        .error (.invalidMutationTransition "committed create outcome belongs to another scope")
      else if item.parentId ≠ some parentId then
        .error (.invalidMutationTransition "committed create outcome has another parent")
      else if item.name ≠ name then
        .error (.invalidMutationTransition "committed create outcome has another name")
      else if item.kind ≠ kind then
        .error (.invalidMutationTransition "committed create outcome has another item kind")
      else .ok ()
  | .modifyContent key =>
    (requiredExistingItem item key
      "committed content mutation outcome requires current item metadata"
      "committed content mutation outcome belongs to another item").bind fun item =>
        if item.kind ≠ .file then
          .error (.invalidMutationTransition
            "committed content mutation outcome must describe a file")
        else .ok ()
  | .modifyMetadata key parentId name =>
    (requiredExistingItem item key
      "committed metadata mutation outcome requires current item metadata"
      "committed metadata mutation outcome belongs to another item").bind fun item =>
        if parentId.any fun parentId => item.parentId ≠ some parentId then
          .error (.invalidMutationTransition
            "committed metadata mutation outcome did not apply the requested parent")
        else if name.any fun name => item.name ≠ name then
          .error (.invalidMutationTransition
            "committed metadata mutation outcome did not apply the requested name")
        else .ok ()
  | .delete key =>
    match item with
    | some item =>
      if item.key ≠ key then
        .error (.invalidMutationTransition "committed delete outcome belongs to another item")
      else .ok ()
    | none => .ok ()

def validateRemoteOutcome (intent : MutationIntent) (outcome : MutationRemoteOutcome) :
    Except CloudFilesCoreError Unit :=
  match outcome with
  | .committed item | .alreadyCommitted item => validateCommittedItem intent.desired item
  | .preconditionFailed _ _ | .remoteOutcomeUnknown => .ok ()

/-! ## Records -/

inductive MutationRecordTransition
  | applied
  | alreadyApplied

structure MutationRecord where
  intent : MutationIntent
  state : MutationState
  remoteOutcome : Option MutationRemoteOutcome
  deriving DecidableEq

namespace MutationRecord

/-- Converts a validated in-memory intent into its first recoverable journal state. -/
def persist (intent : MutationIntent) : Except CloudFilesCoreError MutationRecord :=
  intent.validateForPersistence.map fun _ => ⟨intent, .intentPersisted, none⟩

variable (record : MutationRecord)

def beginRemoteApply : Except CloudFilesCoreError MutationRecordTransition × MutationRecord :=
  match record.state with
  | .intentPersisted => (.ok .applied, { record with state := .remoteApplying })
  | _ => (.ok .alreadyApplied, record)

def recordRemoteOutcome (outcome : MutationRemoteOutcome) :
    Except CloudFilesCoreError MutationRecordTransition × MutationRecord :=
  if record.remoteOutcome.any fun current =>
      current = outcome ∨ current.sameCommittedEffect outcome then
    (.ok .alreadyApplied, record)
  else if record.state ≠ .remoteApplying ∧ record.state ≠ .remoteOutcomeUnknown then
    (.error (.invalidMutationTransition
      "remote outcome must follow remote apply or reconcile an unknown outcome"), record)
  else
    (.ok .applied, { record with state := outcome.durableState, remoteOutcome := some outcome })

def markPlatformReconciled : Except CloudFilesCoreError MutationRecordTransition × MutationRecord :=
  match record.state with
  | .remoteOutcomeKnown => (.ok .applied, { record with state := .platformReconciled })
  | .platformReconciled | .completed => (.ok .alreadyApplied, record)
  | _ =>
    (.error (.invalidMutationTransition
      "platform reconciliation requires a known remote outcome"), record)

/-- Marks the operation complete after platform reconciliation. -/
def complete : Except CloudFilesCoreError MutationRecordTransition × MutationRecord :=
  match record.state with
  | .platformReconciled => (.ok .applied, { record with state := .completed })
  | .completed => (.ok .alreadyApplied, record)
  | _ =>
    (.error (.invalidMutationTransition "completion requires platform reconciliation"), record)

def validateRecordedOutcome : Except CloudFilesCoreError Unit :=
  match record.remoteOutcome with
  | none =>
    .error (.invalidMutationTransition
      "known, reconciled, or completed mutation omitted its remote outcome")
  | some .remoteOutcomeUnknown =>
    .error (.invalidMutationTransition
      "known, reconciled, or completed mutation retained an unknown remote outcome")
  | some outcome => validateRemoteOutcome record.intent outcome

end MutationRecord

inductive MutationTransition
  | beginRemoteApply
  | recordRemoteOutcome (outcome : MutationRemoteOutcome)
  | markPlatformReconciled
  | complete
  deriving DecidableEq

namespace MutationRecord

def apply (record : MutationRecord) : MutationTransition →
    Except CloudFilesCoreError MutationRecordTransition × MutationRecord
  | .beginRemoteApply => record.beginRemoteApply
  | .recordRemoteOutcome outcome => record.recordRemoteOutcome outcome
  | .markPlatformReconciled => record.markPlatformReconciled
  | .complete => record.complete

/-! ## What a transition can do -/

/-- The state of a record says whether it has an outcome and whether that is known. -/
def Coherent (record : MutationRecord) : Prop :=
  match record.state with
  | .intentPersisted | .remoteApplying => record.remoteOutcome = none
  | .remoteOutcomeUnknown => record.remoteOutcome = some .remoteOutcomeUnknown
  | _ => ∃ outcome, record.remoteOutcome = some outcome ∧ outcome ≠ .remoteOutcomeUnknown

def HasKnownOutcome (record : MutationRecord) : Prop :=
  ∃ outcome, record.remoteOutcome = some outcome ∧ outcome ≠ .remoteOutcomeUnknown

def Later (record record' : MutationRecord) : Prop :=
  record' = record ∨ record.state.rank < record'.state.rank ∧ record'.intent = record.intent
    ∧ (record.HasKnownOutcome → record'.remoteOutcome = record.remoteOutcome)

lemma Later.refl (r : MutationRecord) : r.Later r := .inl rfl

lemma Later.trans {r₁ r₂ r₃ : MutationRecord} (h₁ : r₁.Later r₂) (h₂ : r₂.Later r₃) : r₁.Later r₃ := by
  rcases h₁ with rfl | ⟨hr, hi, ho⟩
  · exact h₂
  rcases h₂ with rfl | ⟨hr', hi', ho'⟩
  · exact .inr ⟨hr, hi, ho⟩
  refine .inr ⟨Nat.lt_trans hr hr', hi'.trans hi, fun hk => ?_⟩
  have hsame := ho hk
  obtain ⟨o, hs, hne⟩ := hk
  exact (ho' ⟨o, hsame.trans hs, hne⟩).trans hsame

variable {rc r' : MutationRecord}

lemma Later.rank_le (h : rc.Later r') : rc.state.rank ≤ r'.state.rank := by
  rcases h with rfl | ⟨hr, -⟩
  · exact Nat.le_refl _
  · exact Nat.le_of_lt hr

instance : Std.Refl Later := ⟨Later.refl⟩

instance : IsTrans MutationRecord Later := ⟨fun _ _ _ => Later.trans⟩

open MutationState

lemma Later.eq_of_completed (h : rc.Later r') (hd : rc.state = .completed) : r' = rc := by
  rcases h with hs | ⟨hr, -⟩
  · exact hs
  · have hle := r'.state.rank_le
    rw [hd, rank] at hr
    omega

lemma coherent_persist {i : MutationIntent} {r : MutationRecord} (h : persist i = .ok r) : r.Coherent := by
  unfold persist at h
  cases hvalid : i.validateForPersistence with
  | error e => simp [hvalid, Except.map] at h
  | ok _ =>
    rw [hvalid] at h
    cases h
    rfl

lemma durableState_cases (o : MutationRemoteOutcome) :
    o = .remoteOutcomeUnknown ∧ o.durableState = .remoteOutcomeUnknown
      ∨ o ≠ .remoteOutcomeUnknown ∧ o.durableState = .remoteOutcomeKnown := by
  cases o with
  | remoteOutcomeUnknown => exact .inl ⟨rfl, rfl⟩
  | _ => exact .inr ⟨by simp, rfl⟩

variable {r : MutationRecord}

lemma recordRemoteOutcome_cases (h : r.Coherent) (o : MutationRemoteOutcome) :
    (r.recordRemoteOutcome o).2 = r ∨ (r.recordRemoteOutcome o).2
          = { r with state := o.durableState, remoteOutcome := some o }
        ∧ r.state.rank < o.durableState.rank ∧ ¬ r.HasKnownOutcome := by
  unfold recordRemoteOutcome
  split_ifs with hsame hs
  · exact .inl rfl
  · exact .inl rfl
  · refine .inr ⟨rfl, ?_⟩
    rw [not_and_or, not_not, not_not] at hs
    rcases hs with hs | hs
    · rw [Coherent, hs] at h
      refine ⟨?_, fun ⟨_, hsm, _⟩ => by simp [h] at hsm⟩
      rcases durableState_cases o with ⟨-, hd⟩ | ⟨-, hd⟩
      · simp [hs, hd, rank]
      · simp [hs, hd, rank]
    · rw [Coherent, hs] at h
      refine ⟨?_, fun ⟨_, hsm, hne⟩ => hne (by simpa [h] using hsm.symm)⟩
      rcases durableState_cases o with ⟨rfl, -⟩ | ⟨-, hd⟩
      · simp [h] at hsame
      · simp [hs, hd, rank]

/-- **Every transition leads to a later record**, and keeps it coherent. -/
theorem later_apply (h : r.Coherent) (t : MutationTransition) :
    r.Later (r.apply t).2 ∧ (r.apply t).2.Coherent := by
  have hkept : r.Later r ∧ r.Coherent := ⟨.refl r, h⟩
  cases t with
  | beginRemoteApply =>
    simp only [apply, beginRemoteApply]
    cases hstate : r.state with
    | intentPersisted =>
      rw [Coherent, hstate] at h
      exact ⟨.inr ⟨by simp [hstate, rank], rfl, fun _ => rfl⟩, h⟩
    | _ => exact hkept
  | recordRemoteOutcome o =>
    simp only [apply]
    rcases recordRemoteOutcome_cases h o with hs | ⟨hn, hr, hu⟩
    · rw [hs]
      exact hkept
    · rw [hn]
      refine ⟨.inr ⟨hr, rfl, fun hk => absurd hk hu⟩, ?_⟩
      rcases durableState_cases o with ⟨rfl, hd⟩ | ⟨hne, hd⟩
      · rfl
      · simp only [Coherent, hd]
        exact ⟨o, rfl, hne⟩
  | markPlatformReconciled =>
    simp only [apply, markPlatformReconciled]
    cases hstate : r.state with
    | remoteOutcomeKnown =>
      rw [Coherent, hstate] at h
      exact ⟨.inr ⟨by simp [hstate, rank], rfl, fun _ => rfl⟩, h⟩
    | _ => exact hkept
  | complete =>
    simp only [apply, complete]
    cases hstate : r.state with
    | platformReconciled =>
      rw [Coherent, hstate] at h
      exact ⟨.inr ⟨by simp [hstate, rank], rfl, fun _ => rfl⟩, h⟩
    | _ => exact hkept

lemma validateRecordedOutcome_eq_ok (h : r.validateRecordedOutcome = .ok ()) :
    ∃ o, r.remoteOutcome = some o ∧ o ≠ .remoteOutcomeUnknown
      ∧ validateRemoteOutcome r.intent o = .ok () := by
  unfold validateRecordedOutcome at h
  split at h
  · simp at h
  · simp at h
  case _ o hunk hsome =>
      exact ⟨o, hsome, fun heq => hunk heq, h⟩

end MutationRecord

end AsterForge.Core
