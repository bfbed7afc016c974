import AsterForge.Db.Error
import AsterForge.Library.Table
import AsterForge.Library.Time

/-!
# Scheduled tasks in a database

A scheduled task is a row with the instant of its next firing.  A runtime claims a firing that is due, renews
its claim while the task runs, and completes it, which moves the row on to the next firing.  A claim is a look
at the row and an update on conditions; that a claim is still current is not in a token but in two columns.
-/

namespace AsterForge.Db

open Library

/-! ## Rows and requests -/

/-- A row of `scheduled_tasks`, which its task id is the key of. -/
structure ScheduledTaskModel where
  taskNamespace : Text
  taskName : Text
  displayName : Text
  nextRunAt : ℤ
  claimOwnerId : Option Text
  claimExpiresAt : Option ℤ
  lastClaimedAt : Option ℤ
  lastFinishedAt : Option ℤ
  createdAt : ℤ
  updatedAt : ℤ

abbrev ScheduledTaskTable := Table Text ScheduledTaskModel

structure ScheduledTaskCatalogEntry where
  taskNamespace : Text
  taskName : Text
  displayName : Text
  firstRunAt : ℤ

structure ScheduledTaskClaimRequest where
  taskNamespace : Text
  taskName : Text
  ownerId : Text
  now : ℤ
  claimTtl : ℕ

structure ScheduledTaskClaim where
  taskId : Text
  taskNamespace : Text
  taskName : Text
  ownerId : Text
  scheduledAt : ℤ
  claimedAt : ℤ
  claimExpiresAt : ℤ

structure ScheduledTaskClaimRenewal where
  claim : ScheduledTaskClaim
  now : ℤ
  claimTtl : ℕ

structure ScheduledTaskCompletion where
  claim : ScheduledTaskClaim
  finishedAt : ℤ
  nextRunAt : ℤ

/-! ## Checks -/

def validateClaimTtl (claimTtl : ℕ) : Except DbError Unit :=
  refuse (claimTtl = 0) (.nonRetryable "scheduled task claim TTL must not be zero".toList)

def taskKey (taskNamespace taskName : Text) : Text := taskNamespace ++ ':' :: taskName

def scheduledTaskRowId (taskNamespace taskName : Text) : Except DbError Text := do
  refuse (191 < byteLength (taskKey taskNamespace taskName))
    (.nonRetryable "scheduled task id must be at most 191 bytes".toList)
  return taskKey taskNamespace taskName

variable (entry : ScheduledTaskCatalogEntry)

def validateCatalogEntry : Except DbError Unit := do
  validateNonEmpty "scheduled task namespace".toList entry.taskNamespace
  validateNonEmpty "scheduled task name".toList entry.taskName
  validateNonEmpty "scheduled task display name".toList entry.displayName
  validateMaxLen "scheduled task namespace".toList entry.taskNamespace 64
  validateMaxLen "scheduled task name".toList entry.taskName 128
  validateMaxLen "scheduled task display name".toList entry.displayName 191

def validateClaimRequest (request : ScheduledTaskClaimRequest) : Except DbError Unit := do
  validateNonEmpty "scheduled task owner id".toList request.ownerId
  validateMaxLen "scheduled task owner id".toList request.ownerId 191
  validateMaxLen "scheduled task namespace".toList request.taskNamespace 64
  validateMaxLen "scheduled task name".toList request.taskName 128
  validateClaimTtl request.claimTtl

def validateRenewal (renewal : ScheduledTaskClaimRenewal) : Except DbError Unit := do
  validateNonEmpty "scheduled task owner id".toList renewal.claim.ownerId
  validateMaxLen "scheduled task owner id".toList renewal.claim.ownerId 191
  validateClaimTtl renewal.claimTtl

def validateCompletion (completion : ScheduledTaskCompletion) : Except DbError Unit :=
  refuse (completion.nextRunAt ≤ completion.claim.scheduledAt)
    (.nonRetryable "scheduled task next run must be after the claimed scheduled time".toList)

def claimExpiry (now : ℤ) (claimTtl : ℕ) : Except DbError ℤ := do
  let ttl ← okOr (.nonRetryable "duration is too large for chrono".toList) (checkedSigned claimTtl)
  okOr (.nonRetryable "scheduled task claim expiry overflow".toList) (checkedAddSigned now ttl)

/-! ## Calls -/

inductive ScheduledCall
  | inserting (entry : ScheduledTaskCatalogEntry) (taskId : Text)
  | finding (entry : ScheduledTaskCatalogEntry) (taskId : Text) (insertError : DbErr)
  | updating (entry : ScheduledTaskCatalogEntry) (taskId : Text)
  | rereading (taskId : Text)
  | looking (request : ScheduledTaskClaimRequest) (taskId : Text)
  | claiming (request : ScheduledTaskClaimRequest) (taskId : Text) (existing : ScheduledTaskModel)
      (claimExpiresAt : ℤ)
  | renewing (renewal : ScheduledTaskClaimRenewal) (claimExpiresAt : ℤ)
  | completing (completion : ScheduledTaskCompletion)

/-- What a call of the store returns. -/
inductive ScheduledAnswer
  | ensured (answer : Except DbError ScheduledTaskModel)
  | claimed (answer : Except DbError (Option ScheduledTaskClaim))
  | renewed (answer : Except DbError Bool)
  | completed (answer : Except DbError Bool)

def ensureTask : ScheduledCall ⊕ ScheduledAnswer :=
  match (do
    validateCatalogEntry entry
    scheduledTaskRowId entry.taskNamespace entry.taskName : Except DbError Text) with
  | .ok taskId => .inl (.inserting entry taskId)
  | .error error => .inr (.ensured (.error error))

def claimDue (request : ScheduledTaskClaimRequest) : ScheduledCall ⊕ ScheduledAnswer :=
  match (do
    validateClaimRequest request
    scheduledTaskRowId request.taskNamespace request.taskName : Except DbError Text) with
  | .ok taskId => .inl (.looking request taskId)
  | .error error => .inr (.claimed (.error error))

def renewClaim (renewal : ScheduledTaskClaimRenewal) : ScheduledCall ⊕ ScheduledAnswer :=
  match (do
    validateRenewal renewal
    claimExpiry renewal.now renewal.claimTtl : Except DbError ℤ) with
  | .ok claimExpiresAt => .inl (.renewing renewal claimExpiresAt)
  | .error error => .inr (.renewed (.error error))

def completeClaim (completion : ScheduledTaskCompletion) : ScheduledCall ⊕ ScheduledAnswer :=
  match validateCompletion completion with
  | .ok () => .inl (.completing completion)
  | .error error => .inr (.completed (.error error))

/-! ## Statements -/

section

variable (duplicateKey : Text → DbErr) (table : ScheduledTaskTable)

def ScheduledTaskCatalogEntry.model (entry : ScheduledTaskCatalogEntry) : ScheduledTaskModel :=
  ⟨entry.taskNamespace, entry.taskName, entry.displayName, entry.firstRunAt, none, none, none, none,
    entry.firstRunAt, entry.firstRunAt⟩

/-- `INSERT`; how a database words that a key exists is left open. -/
def insertTask (entry : ScheduledTaskCatalogEntry) (taskId : Text) : ScheduledTaskTable × Except DbErr Unit :=
  match table.insertRow taskId entry.model with
  | some table => (table, .ok ())
  | none => (table, .error (duplicateKey taskId))

def findTask (taskId : Text) : ScheduledTaskTable × Except DbErr (Option ScheduledTaskModel) :=
  (table, .ok (table taskId))

def renameTask (entry : ScheduledTaskCatalogEntry) (taskId : Text) : ScheduledTaskTable × Except DbErr ℕ :=
  let updated := table.updateWhere taskId (fun _ => true) fun model =>
    { model with displayName := entry.displayName, updatedAt := entry.firstRunAt }
  (updated.1, .ok updated.2)

/-- The conditions of the update of a claim: the row is as it was looked at, due, and not claimed. -/
def claimable (request : ScheduledTaskClaimRequest) (existing model : ScheduledTaskModel) : Bool :=
  model.nextRunAt = existing.nextRunAt ∧ model.nextRunAt ≤ request.now ∧
    (model.claimOwnerId = none ∨ model.claimExpiresAt = none ∨
      ∃ expiresAt ∈ model.claimExpiresAt, expiresAt ≤ request.now)

def claimTask (request : ScheduledTaskClaimRequest) (taskId : Text) (existing : ScheduledTaskModel)
    (claimExpiresAt : ℤ) : ScheduledTaskTable × Except DbErr ℕ :=
  let updated := table.updateWhere taskId (claimable request existing) fun model =>
    { model with claimOwnerId := some request.ownerId, claimExpiresAt := some claimExpiresAt
                 lastClaimedAt := some request.now, updatedAt := request.now }
  (updated.1, .ok updated.2)

def currentFor (claim : ScheduledTaskClaim) (model : ScheduledTaskModel) : Bool :=
  model.claimOwnerId = some claim.ownerId ∧ model.lastClaimedAt = some claim.claimedAt

def renewTask (renewal : ScheduledTaskClaimRenewal) (claimExpiresAt : ℤ) :
    ScheduledTaskTable × Except DbErr ℕ :=
  let updated := table.updateWhere renewal.claim.taskId (currentFor renewal.claim) fun model =>
    { model with claimExpiresAt := some claimExpiresAt, updatedAt := renewal.now }
  (updated.1, .ok updated.2)

def completeTask (completion : ScheduledTaskCompletion) : ScheduledTaskTable × Except DbErr ℕ :=
  let updated := table.updateWhere completion.claim.taskId (currentFor completion.claim) fun model =>
    { model with nextRunAt := completion.nextRunAt, claimOwnerId := none, claimExpiresAt := none
                 lastFinishedAt := some completion.finishedAt, updatedAt := completion.finishedAt }
  (updated.1, .ok updated.2)

end

/-! ## What a call goes on with -/

def afterInsertTask (taskId : Text) : Except DbErr Unit → ScheduledCall ⊕ ScheduledAnswer
  | .ok () => .inr (.ensured (.ok entry.model))
  | .error insertError => .inl (.finding entry taskId insertError)

def refreshExistingTask (taskId : Text) (insertError : DbErr) :
    Except DbErr (Option ScheduledTaskModel) → ScheduledCall ⊕ ScheduledAnswer
  | .error error => .inr (.ensured (.error (.ofDbErr error)))
  | .ok none => .inr (.ensured (.error (.ofDbErr insertError)))
  | .ok (some existing) =>
    if existing.displayName = entry.displayName then .inr (.ensured (.ok existing))
    else .inl (.updating entry taskId)

def afterRename (taskId : Text) : Except DbErr ℕ → ScheduledCall ⊕ ScheduledAnswer
  | .error error => .inr (.ensured (.error (.ofDbErr error)))
  | .ok _ => .inl (.rereading taskId)

def afterReread : Except DbErr (Option ScheduledTaskModel) → ScheduledCall ⊕ ScheduledAnswer
  | .error error => .inr (.ensured (.error (.ofDbErr error)))
  | .ok none =>
    .inr (.ensured (.error (.databaseOperation "scheduled task disappeared after update".toList)))
  | .ok (some model) => .inr (.ensured (.ok model))

def isClaimFresh (model : ScheduledTaskModel) (now : ℤ) : Bool :=
  match model.claimOwnerId, model.claimExpiresAt with
  | some _, some expiresAt => now < expiresAt
  | _, _ => false

def afterLook (request : ScheduledTaskClaimRequest) (taskId : Text) :
    Except DbErr (Option ScheduledTaskModel) → ScheduledCall ⊕ ScheduledAnswer
  | .error error => .inr (.claimed (.error (.ofDbErr error)))
  | .ok none => .inr (.claimed (.ok none))
  | .ok (some existing) =>
    if request.now < existing.nextRunAt then .inr (.claimed (.ok none))
    else if isClaimFresh existing request.now then .inr (.claimed (.ok none))
    else match claimExpiry request.now request.claimTtl with
      | .error error => .inr (.claimed (.error error))
      | .ok claimExpiresAt => .inl (.claiming request taskId existing claimExpiresAt)

def claimOf (request : ScheduledTaskClaimRequest) (taskId : Text) (existing : ScheduledTaskModel)
    (claimExpiresAt : ℤ) : ScheduledTaskClaim :=
  ⟨taskId, existing.taskNamespace, existing.taskName, request.ownerId, existing.nextRunAt, request.now,
    claimExpiresAt⟩

def afterClaim (claim : ScheduledTaskClaim) : Except DbErr ℕ → ScheduledCall ⊕ ScheduledAnswer
  | .error error => .inr (.claimed (.error (.ofDbErr error)))
  | .ok rowsAffected => .inr (.claimed (.ok (if rowsAffected = 1 then some claim else none)))

def afterRenewTask : Except DbErr ℕ → ScheduledCall ⊕ ScheduledAnswer
  | .error error => .inr (.renewed (.error (.ofDbErr error)))
  | .ok rowsAffected => .inr (.renewed (.ok (rowsAffected = 1)))

def afterComplete : Except DbErr ℕ → ScheduledCall ⊕ ScheduledAnswer
  | .error error => .inr (.completed (.error (.ofDbErr error)))
  | .ok rowsAffected => .inr (.completed (.ok (rowsAffected = 1)))

def ScheduledCall.run (duplicateKey : Text → DbErr) (table : ScheduledTaskTable) (fate : Fate DbErr) :
    ScheduledCall → ScheduledTaskTable × (ScheduledCall ⊕ ScheduledAnswer)
  | .inserting entry taskId =>
    (fate.apply table (insertTask duplicateKey table entry taskId)).map id (afterInsertTask entry taskId)
  | .finding entry taskId insertError =>
    (fate.apply table (findTask table taskId)).map id (refreshExistingTask entry taskId insertError)
  | .updating entry taskId => (fate.apply table (renameTask table entry taskId)).map id (afterRename taskId)
  | .rereading taskId => (fate.apply table (findTask table taskId)).map id afterReread
  | .looking request taskId =>
    (fate.apply table (findTask table taskId)).map id (afterLook request taskId)
  | .claiming request taskId existing claimExpiresAt =>
    (fate.apply table (claimTask table request taskId existing claimExpiresAt)).map id
      (afterClaim (claimOf request taskId existing claimExpiresAt))
  | .renewing renewal claimExpiresAt =>
    (fate.apply table (renewTask table renewal claimExpiresAt)).map id afterRenewTask
  | .completing completion => (fate.apply table (completeTask table completion)).map id afterComplete

inductive ScheduledCall.GoesOn : ScheduledCall → ScheduledCall → Prop
  | find (entry : ScheduledTaskCatalogEntry) (taskId : Text) (insertError : DbErr) :
      GoesOn (.inserting entry taskId) (.finding entry taskId insertError)
  | rename (entry : ScheduledTaskCatalogEntry) (taskId : Text) (insertError : DbErr) :
      GoesOn (.finding entry taskId insertError) (.updating entry taskId)
  | reread (entry : ScheduledTaskCatalogEntry) (taskId : Text) :
      GoesOn (.updating entry taskId) (.rereading taskId)
  | claim (request : ScheduledTaskClaimRequest) (taskId : Text) (existing : ScheduledTaskModel)
      (claimExpiresAt : ℤ) :
      GoesOn (.looking request taskId) (.claiming request taskId existing claimExpiresAt)

lemma ScheduledCall.run_goesOn {dk : Text → DbErr} {t : ScheduledTaskTable} {f : Fate DbErr}
    {c next : ScheduledCall} (h : (c.run dk t f).2 = .inl next) : c.GoesOn next := by
  cases c with
  | inserting e ti =>
    rw [run, Prod.map_snd] at h
    unfold afterInsertTask at h
    split at h
    case h_1 => cases h
    case h_2 ie _ =>
      cases h
      exact .find e ti ie
  | finding e ti ie =>
    rw [run, Prod.map_snd] at h
    unfold refreshExistingTask at h
    split at h
    case h_1 => cases h
    case h_2 => cases h
    case h_3 =>
      split_ifs at h
      cases h
      exact .rename e ti ie
  | updating e ti =>
    rw [run, Prod.map_snd] at h
    unfold afterRename at h
    split at h
    case h_1 => cases h
    case h_2 =>
      cases h
      exact .reread e ti
  | rereading ti =>
    rw [run, Prod.map_snd] at h
    unfold afterReread at h
    split at h
    case h_1 => cases h
    case h_2 => cases h
    case h_3 => cases h
  | looking r ti =>
    rw [run, Prod.map_snd] at h
    unfold afterLook at h
    split at h
    case h_1 => cases h
    case h_2 => cases h
    case h_3 ex _ =>
      split_ifs at h
      split at h
      case h_1 => cases h
      case h_2 cea _ =>
        cases h
        exact .claim r ti ex cea
  | claiming r ti ex cea =>
    rw [run, Prod.map_snd] at h
    unfold afterClaim at h
    split at h
    case h_1 => cases h
    case h_2 => cases h
  | renewing rn cea =>
    rw [run, Prod.map_snd] at h
    unfold afterRenewTask at h
    split at h
    case h_1 => cases h
    case h_2 => cases h
  | completing cm =>
    rw [run, Prod.map_snd] at h
    unfold afterComplete at h
    split at h
    case h_1 => cases h
    case h_2 => cases h

end AsterForge.Db
