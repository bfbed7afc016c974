import AsterForge.Auth.Refresh
import AsterForge.Library.Succession
import AsterForge.Library.Table

/-!
# The store of refresh sessions

What `RefreshSessionStore` asks of a product: a transaction takes its locks, reads the clock again,
checks the account, decides by `classifyRefresh`, and commits.  A rotation is conditional on the session
still having the credential that was presented, a reuse revokes the session, and anything else changes
nothing.

Transactions on one session may overlap as far as the condition of the rotation allows it.
-/

namespace AsterForge.Auth

open Library

inductive AccountState
  | active
  | unavailable
  | disabled
  | restricted

def AccountState.refusal : AccountState → Option RefreshRejection
  | .active => none
  | .unavailable => some .unavailable
  | .disabled => some .accountDisabled
  | .restricted => some .restricted

inductive RefreshStoreOutcome
  | rotated
  | conflict
  | rejected (reason : RefreshRejection)

inductive StoreMethod
  | rotateRefresh
  | resolveConflict

/-! ## What was committed -/

/-- A rotation, by the call it was made for, with the session as it was before. -/
structure Rotation where
  call : ℕ
  request : RefreshRotationRequest
  session : RefreshSession

/-- A revocation, with the session that the decision was made from, and all the sessions revoked. -/
structure Revocation where
  call : ℕ
  request : RefreshRotationRequest
  session : RefreshSession
  sessions : List SessionId

inductive Committed
  | opened (session : RefreshSession)
  | rotated (rotation : Rotation)
  | revoked (revocation : Revocation)
  | closed (sessionId : SessionId)

def Committed.rotation : Committed → Option Rotation
  | .rotated rotation => some rotation
  | .opened _ | .revoked _ | .closed _ => none

def Committed.revocation : Committed → Option Revocation
  | .revoked revocation => some revocation
  | .opened _ | .rotated _ | .closed _ => none

def rotations (record : List Committed) : List Rotation := record.filterMap Committed.rotation

def revocations (record : List Committed) : List Revocation := record.filterMap Committed.revocation

def Committed.entries : Committed → Succession SessionId RefreshJti
  | .opened session => [.opened session.sessionId session.currentRefreshJti]
  | .rotated rotation =>
    [.replaced rotation.session.sessionId rotation.request.currentRefreshJti rotation.request.nextRefreshJti]
  | .revoked revocation => revocation.sessions.map .closed
  | .closed sessionId => [.closed sessionId]

def succession (record : List Committed) : Succession SessionId RefreshJti :=
  record.flatMap Committed.entries

def ownerOf (sessionId : SessionId) : List Committed → Option Subject
  | [] => none
  | .opened session :: record =>
    if session.sessionId = sessionId then some session.subject else ownerOf sessionId record
  | .rotated _ :: record | .revoked _ :: record | .closed _ :: record => ownerOf sessionId record

/-! ## Transactions -/

/-- The sessions by their identities, and what was committed, the latest first. -/
structure SessionStore where
  rows : Table SessionId RefreshSession
  record : List Committed

/-- What a transaction is about to do, with the session it read. -/
inductive Plan
  | rotate (session : RefreshSession)
  | revoke (session : RefreshSession)
  | reject (reason : RefreshRejection)

def Plan.of (account : AccountState) (request : RefreshRotationRequest) (found : Option RefreshSession) : Plan :=
  match account.refusal with
  | some reason => .reject reason
  | none =>
    match classifyRefresh request found, found with
    | .rotate, some session => .rotate session
    | .reject .reuseDetected, some session => .revoke session
    | .reject reason, _ => .reject reason
    | .rotate, none => .reject .unavailable

inductive Transaction (E : Type)
  | opened
  | decided (request : RefreshRotationRequest) (plan : Plan)
  | answered (answer : Except E RefreshStoreOutcome)

def unmoved (request : RefreshRotationRequest) (session : RefreshSession) : Bool :=
  session.currentRefreshJti = request.currentRefreshJti ∧ session.revoked = false

def RefreshSession.rotate (session : RefreshSession) (request : RefreshRotationRequest) : RefreshSession :=
  { session with
    previousRefreshJti := some session.currentRefreshJti
    currentRefreshJti := request.nextRefreshJti
    refreshExpiresAt := request.nextRefreshExpiresAt
    lastSeenAt := request.now
    client := request.client }

def RefreshSession.close (purge : Bool) (session : RefreshSession) : Option RefreshSession :=
  if purge then none else some { session with revoked := true }

namespace SessionStore

def empty : SessionStore := ⟨fun _ => none, []⟩

variable (store : SessionStore)

def closeRows (sessions : List SessionId) (purge : Bool) : Table SessionId RefreshSession := fun sessionId =>
  if sessions.contains sessionId then (store.rows sessionId).bind (RefreshSession.close purge)
  else store.rows sessionId

def login (session : RefreshSession) : Option SessionStore :=
  if session.revoked then none
  else (store.rows.insertRow session.sessionId session).map fun rows => ⟨rows, .opened session :: store.record⟩

/-- A logout, an expiry sweep or an administrator's revocation. -/
def logout (sessionId : SessionId) (purge : Bool) : Option SessionStore :=
  (store.rows sessionId).map fun _ => ⟨store.closeRows [sessionId] purge, .closed sessionId :: store.record⟩

def rotate (call : ℕ) (request : RefreshRotationRequest) (sessionId : SessionId) : Option SessionStore :=
  ((store.rows sessionId).filter (unmoved request)).map fun session =>
    ⟨Function.update store.rows sessionId (some (session.rotate request)),
      .rotated ⟨call, request, session⟩ :: store.record⟩

def ofAccount (subject : Subject) (sessionId : SessionId) : Bool :=
  (store.rows sessionId).any fun session => session.subject = subject

/-- The atomic revocation. -/
def revoke (call : ℕ) (request : RefreshRotationRequest) (session : RefreshSession) (others : List SessionId)
    (purge : Bool) : SessionStore :=
  let sessions := session.sessionId :: others.filter (store.ofAccount request.subject)
  ⟨store.closeRows sessions purge, .revoked ⟨call, request, session, sessions⟩ :: store.record⟩

/-- What a transaction does when it commits, and what it answers.  Where resolving a conflict finds that
the credential could be rotated, it answers what it wants but does not rotate. -/
def commit {E : Type} (method : StoreMethod) (call : ℕ) (request : RefreshRotationRequest)
    (others : List SessionId) (purge : Bool) (refusal : Except E RefreshRejection) :
    Plan → SessionStore × Except E RefreshStoreOutcome
  | .rotate session =>
    match method with
    | .rotateRefresh =>
      match store.rotate call request session.sessionId with
      | some rotated => (rotated, .ok .rotated)
      | none => (store, .ok .conflict)
    | .resolveConflict => (store, refusal.map .rejected)
  | .revoke session =>
    (store.revoke call request session others purge, .ok (.rejected .reuseDetected))
  | .reject reason => (store, .ok (.rejected reason))

end SessionStore

end AsterForge.Auth
