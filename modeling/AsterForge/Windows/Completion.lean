import AsterForge.Core.Capabilities
import AsterForge.Windows.FetchData
import AsterForge.Windows.Identity

/-!
# Native completions

What a callback is answered with.  A fetch is completed with bytes, with a failure for the range it asked
for, or by restarting it; a preflight is acknowledged with a status.  Each of the completing functions ends
in one native operation, and some give up before they get there.

* **`failureRange_eq_none`** — the fetches without a range to fail: those that ask for everything from an
  offset on that is not in the file.
* **`operation_eq_ok`**, **`completePreflight_eq_ok`** — everything else is answered.
-/

namespace AsterForge.Windows

open AsterForge.Core Library

/-! ## Snapshots -/

structure WindowsItemCallbackInfo extends WindowsCallbackInfoSnapshot where
  fileIdentity : WindowsFileIdentity
  fileSize_le : fileSize ≤ i64Max

structure WindowsFetchDataSnapshot where
  info : WindowsItemCallbackInfo
  requiredRange : WindowsCallbackRange

/-- A callback for an operation that waits for an acknowledgement. -/
inductive WindowsPreflightSnapshot
  | validateData (info : WindowsItemCallbackInfo) (range : WindowsCallbackRange)
  | dehydrate (info : WindowsItemCallbackInfo)
  | delete (info : WindowsItemCallbackInfo)
  | rename (info : WindowsItemCallbackInfo)

def WindowsPreflightSnapshot.info : WindowsPreflightSnapshot → WindowsItemCallbackInfo
  | validateData info _ | dehydrate info | delete info | rename info => info

/-! ## Failures and statuses -/

inductive WindowsFetchDataFailure
  | invalidRequest
  | insufficientResources
  | providerTerminated
  | authenticationFailed
  | accessDenied
  | notInSync
  | networkUnavailable
  | notSupported
  | cancelled
  | unsuccessful

def WindowsFetchDataFailure.fromHydrationError : HydrationError → WindowsFetchDataFailure
  | .cancelled => .cancelled
  | .contract _ => .invalidRequest
  | .inFlightLimitExceeded _ => .insufficientResources
  | .backend error =>
    match error.kind with
    | .authenticationRequired => .authenticationFailed
    | .permissionDenied => .accessDenied
    | .notFound | .conflict | .preconditionFailed => .notInSync
    | .invalidRequest => .invalidRequest
    | .rateLimited | .temporarilyUnavailable => .networkUnavailable
    | .unsupported => .notSupported
    | .invalidResponse | .internal => .unsuccessful

/-- The failure a request is completed with after an error, in `finish_request_error`. -/
def WindowsCloudFilesError.failure : WindowsCloudFilesError → WindowsFetchDataFailure
  | .hydration error => .fromHydrationError error
  | _ => .invalidRequest

inductive NtStatus
  | success
  | cloudFileInvalidRequest
  | cloudFileInsufficientResources
  | cloudFileProviderTerminated
  | cloudFileAuthenticationFailed
  | cloudFileAccessDenied
  | cloudFileNotInSync
  | cloudFileNetworkUnavailable
  | cloudFileNotSupported
  | cloudFileRequestCanceled
  | cloudFileUnsuccessful

def failureStatus : WindowsFetchDataFailure → NtStatus
  | .invalidRequest => .cloudFileInvalidRequest
  | .insufficientResources => .cloudFileInsufficientResources
  | .providerTerminated => .cloudFileProviderTerminated
  | .authenticationFailed => .cloudFileAuthenticationFailed
  | .accessDenied => .cloudFileAccessDenied
  | .notInSync => .cloudFileNotInSync
  | .networkUnavailable => .cloudFileNetworkUnavailable
  | .notSupported => .cloudFileNotSupported
  | .cancelled => .cloudFileRequestCanceled
  | .unsuccessful => .cloudFileUnsuccessful

/-! ## Transfers -/

def cfapiTransferAlignmentBytes : ℕ := 4096

def invalidTransfer (reason : String) : WindowsCloudFilesError := .invalidFetchTransfer reason

/-- The logical range of a fetch that a transfer must fill. -/
def hydrationByteRange (range : WindowsCallbackRange) (fileSize : ℕ) :
    Except WindowsCloudFilesError ByteRange := do
  if range.offset % cfapiTransferAlignmentBytes ≠ 0 then
    .error (invalidTransfer "CFAPI transfer offset must be aligned to 4096 bytes")
  else
    let length ←
      match range.length with
      | .exact length => .ok length
      | .toEnd =>
        if range.offset ≤ fileSize then .ok (fileSize - range.offset)
        else .error (invalidTransfer "CF_EOF transfer offset exceeds callback file size")
    if length = 0 then
      .error (invalidTransfer "CFAPI fetch range resolves to an empty successful transfer")
    else if u64Max < range.offset + length then
      .error (invalidTransfer "CFAPI fetch range end exceeds u64")
    else if fileSize < range.offset + length then
      .error (invalidTransfer "CFAPI fetch range exceeds callback file size")
    else if range.offset + length ≠ fileSize ∧ length % cfapiTransferAlignmentBytes ≠ 0 then
      .error (invalidTransfer
        "CFAPI transfer length must be aligned to 4096 bytes unless it reaches end-of-file")
    else (ByteRange.new range.offset length).mapError .core

lemma i64Max_le_u64Max : i64Max ≤ u64Max := by decide

namespace WindowsFetchDataSnapshot

def readRequest (snapshot : WindowsFetchDataSnapshot) (key : CloudItemKey) (revision : ContentRevision)
    (range : ByteRange) : ContentReadRequest :=
  ⟨key, revision, snapshot.info.fileSize, snapshot.info.fileSize_le.trans i64Max_le_u64Max, .range range⟩

def hydrationRequest (snapshot : WindowsFetchDataSnapshot) (revision : ContentRevision)
    (alignment : Core.Alignment) : Outcome WindowsCloudFilesError HydrationRequest := do
  let key ← snapshot.info.fileIdentity.decode
  let range ← .ofExcept (hydrationByteRange snapshot.requiredRange snapshot.info.fileSize)
  let platformAlignment : Core.Alignment := ⟨cfapiTransferAlignmentBytes, by decide, by decide⟩
  let alignment ← fromCore (platformAlignment.intersection alignment)
  return ⟨snapshot.readRequest key revision range, alignment, snapshot.info.generation⟩

end WindowsFetchDataSnapshot

/-- Owned logical bytes ready for one transfer; the source also stores their number. -/
structure WindowsFetchDataTransfer where
  offset : ℕ
  bytes : List UInt8

/-- Validates that a core response exactly satisfies the native required range. -/
def WindowsFetchDataTransfer.fromResponse (snapshot : WindowsFetchDataSnapshot)
    (revision : ContentRevision) (response : ContentReadResponse) :
    Outcome WindowsCloudFilesError WindowsFetchDataTransfer := do
  let expected ← .ofExcept (hydrationByteRange snapshot.requiredRange snapshot.info.fileSize)
  let key ← snapshot.info.fileIdentity.decode
  fromCore ((snapshot.readRequest key revision expected).validateResponse response)
  if response.totalSize ≠ snapshot.info.fileSize then
    .error (invalidTransfer "hydrated response size does not match callback file size")
  else if i64Max < response.offset then
    .error (invalidTransfer "transfer offset exceeds signed CFAPI boundary")
  else if response.bytes = [] then
    .error (invalidTransfer "successful transfer must contain bytes")
  else if i64Max < response.bytes.length then
    .error (invalidTransfer "transfer length exceeds signed CFAPI boundary")
  else return ⟨response.offset, response.bytes⟩

/-! ## Restarts -/

structure WindowsPlaceholderMetadata where
  fileSize : ℤ
  fileAttributes : ℕ
  creation : ℤ
  lastAccess : ℤ
  lastWrite : ℤ
  change : ℤ

structure WindowsRestartHydration where
  metadata : Option WindowsPlaceholderMetadata
  identity : Option WindowsFileIdentity
  markInSync : Bool

def WindowsRestartHydration.validateFor (self : WindowsRestartHydration)
    (info : WindowsItemCallbackInfo) : Outcome WindowsCloudFilesError Unit :=
  match self.identity with
  | none => .ok ()
  | some identity => do
    let replacement ← identity.decode
    let key ← info.fileIdentity.decode
    if replacement ≠ key then .error .identityItemMismatch else return ()

/-! ## Native operations -/

structure OperationKeys where
  connectionKey : ℤ
  transferKey : ℤ
  requestKey : ℤ

def WindowsItemCallbackInfo.keys (info : WindowsItemCallbackInfo) : OperationKeys :=
  ⟨info.connectionKey, info.transferKey, info.requestKey⟩

/-- One call of `CfExecute`. -/
inductive CfOperation
  | transferData (keys : OperationKeys) (status : NtStatus) (buffer : Option (List UInt8)) (offset length : ℕ)
  | restartHydration (keys : OperationKeys) (replacement : WindowsRestartHydration)
  | ackData (keys : OperationKeys) (status : NtStatus) (offset : ℕ) (length : ℤ)
  | ackDehydrate (keys : OperationKeys) (status : NtStatus) (identity : WindowsFileIdentity)
  | ackDelete (keys : OperationKeys) (status : NtStatus)
  | ackRename (keys : OperationKeys) (status : NtStatus)

def failureRange (range : WindowsCallbackRange) (fileSize : ℕ) : Option (ℕ × ℕ) := do
  let offset ← if range.offset ≤ i64Max then some range.offset else none
  let length ←
    match range.length with
    | .exact length => if length ≤ i64Max then some length else none
    | .toEnd =>
      if range.offset ≤ fileSize ∧ fileSize - range.offset ≤ i64Max then some (fileSize - range.offset)
      else none
  if 0 < length then some (offset, length) else none

/-- What follows the decision that a fetch is completed natively. -/
inductive FetchCompletion
  /-- `complete_fetch_success` -/
  | success (transfer : WindowsFetchDataTransfer)
  /-- `complete_fetch_failure` -/
  | failure (failure : WindowsFetchDataFailure)
  /-- `restart_fetch_hydration` -/
  | restart (replacement : WindowsRestartHydration)

/-- The `HRESULT` of the system error for an invalid parameter. -/
def hresultInvalidParameter : ℤ := -2147024809

/-- The native operation of a completion, or the error for which the completing function gives up. -/
def FetchCompletion.operation (snapshot : WindowsFetchDataSnapshot) :
    FetchCompletion → Except WindowsCloudFilesError CfOperation
  | success transfer =>
    .ok (.transferData snapshot.info.keys .success (some transfer.bytes) transfer.offset transfer.bytes.length)
  | failure reason =>
    match failureRange snapshot.requiredRange snapshot.info.fileSize with
    | none => .error (.native hresultInvalidParameter)
    | some (offset, length) =>
      .ok (.transferData snapshot.info.keys (failureStatus reason) none offset length)
  | restart replacement =>
    match replacement.identity with
    | none => .ok (.restartHydration snapshot.info.keys replacement)
    | some identity =>
      if identity.bytes.length ≤ u32Max then .ok (.restartHydration snapshot.info.keys replacement)
      else .error (.fileIdentityTooLarge identity.bytes.length cfapiFileIdentityMaxBytes)

/-- The native operation of an acknowledgement, or the error for which the function gives up. -/
def completePreflight (snapshot : WindowsPreflightSnapshot) (failure : WindowsFetchDataFailure)
    (approved : Bool) : Except WindowsCloudFilesError CfOperation :=
  let status := if approved then NtStatus.success else failureStatus failure
  let keys := snapshot.info.keys
  match snapshot with
  | .validateData _ range =>
    if i64Max < range.offset then
      .error (.invalidCallbackSnapshot "validation offset exceeds i64")
    else
      match range.length with
      | .exact length =>
        if i64Max < length then .error (.invalidCallbackSnapshot "validation length exceeds i64")
        else .ok (.ackData keys status range.offset length)
      | .toEnd => .ok (.ackData keys status range.offset (-1))
  | .dehydrate info => .ok (.ackDehydrate keys status info.fileIdentity)
  | .delete _ => .ok (.ackDelete keys status)
  | .rename _ => .ok (.ackRename keys status)

/-! ## What is answered -/

/-- A fetch whose failure can be reported: it does not ask for everything from an offset on that is not
in the file. -/
def WindowsFetchDataSnapshot.Failable (snapshot : WindowsFetchDataSnapshot) : Prop :=
  snapshot.requiredRange.length = .toEnd → snapshot.requiredRange.offset < snapshot.info.fileSize

/-- **The fetches without a range to fail.** -/
theorem failureRange_eq_none (s : WindowsFetchDataSnapshot) :
    failureRange s.requiredRange s.info.fileSize = none ↔ ¬ s.Failable := by
  have hoff := s.requiredRange.offset_le
  have hsize := s.info.fileSize_le
  rw [WindowsFetchDataSnapshot.Failable, failureRange, if_pos hoff]
  cases hlen : s.requiredRange.length with
  | exact l =>
    obtain ⟨hp, he⟩ := s.requiredRange.end_le l hlen
    have hfits : l ≤ i64Max := by omega
    simp [hfits, hp]
  | toEnd =>
    by_cases hinside : s.requiredRange.offset < s.info.fileSize
    · have hfits : s.requiredRange.offset ≤ s.info.fileSize ∧
          s.info.fileSize - s.requiredRange.offset ≤ i64Max := by omega
      have hp : 0 < s.info.fileSize - s.requiredRange.offset := by omega
      simp [hfits, hp, hinside]
    · have hzero : ¬ 0 < s.info.fileSize - s.requiredRange.offset := by omega
      by_cases hfits : s.requiredRange.offset ≤ s.info.fileSize ∧
          s.info.fileSize - s.requiredRange.offset ≤ i64Max
      · simp [hfits, hzero, hinside]
      · simp [hinside]

variable {s : WindowsFetchDataSnapshot}

/-- **Every completion of a fetch whose failure can be reported** ends in a native operation. -/
theorem operation_eq_ok (h : s.Failable) (c : FetchCompletion) : ∃ o, c.operation s = .ok o := by
  cases c with
  | success t => exact ⟨_, rfl⟩
  | failure rs =>
    rw [FetchCompletion.operation]
    cases hrange : failureRange s.requiredRange s.info.fileSize with
    | none => exact absurd h ((failureRange_eq_none s).mp hrange)
    | some rn => exact ⟨_, rfl⟩
  | restart r =>
    rw [FetchCompletion.operation]
    cases r.identity with
    | none => exact ⟨_, rfl⟩
    | some i => exact ⟨_, if_pos (i.size.trans (by decide))⟩

lemma operation_failure_of_not_failable (h : ¬ s.Failable) (r : WindowsFetchDataFailure) :
    (FetchCompletion.failure r).operation s = .error (.native hresultInvalidParameter) := by
  rw [FetchCompletion.operation, (failureRange_eq_none s).mpr h]

/-- **Every acknowledgement** ends in a native operation. -/
theorem completePreflight_eq_ok (s : WindowsPreflightSnapshot) (f : WindowsFetchDataFailure)
    (a : Bool) : ∃ o, completePreflight s f a = .ok o := by
  cases s with
  | validateData i r =>
    have hoff : ¬ i64Max < r.offset := not_lt.mpr r.offset_le
    rw [completePreflight, if_neg hoff]
    cases hlen : r.length with
    | exact l =>
      have hfits : ¬ i64Max < l := by
        have hend := (r.end_le l hlen).2
        omega
      exact ⟨_, if_neg hfits⟩
    | toEnd => exact ⟨_, rfl⟩
  | dehydrate i => exact ⟨_, rfl⟩
  | delete i => exact ⟨_, rfl⟩
  | rename i => exact ⟨_, rfl⟩

end AsterForge.Windows
