import AsterForge.Auth.Coordinator
import AsterForge.Auth.RefreshStore
import AsterForge.Library.Runs

/-!
# Refresh calls

`refresh_with_cancellation` verifies the token, queues for the lock of its identity, verifies it again,
issues the candidate, and hands the request to the store; where the store lost a race, it has the conflict
resolved.  Any number of services, each with a coordinator of its own or sharing one, work on one store.
A call can be cancelled, and its future dropped, at any time; a transaction that was begun may then still
commit, and its answer is lost.
-/

namespace AsterForge.Auth

open Library

inductive RefreshError (E : Type)
  | auth (error : AuthError)
  | store (error : E)

inductive RefreshOutcome
  | rotated (pair : AuthTokenPair)
  | rejected (reason : RefreshRejection)

structure RefreshTokenService (κ : Type) where
  signer : JwtSigner
  verifier : JwtVerifier
  policy : RefreshPolicy
  coordinator : κ

/-- What a call reads from the clock and the source of identities once it has the lock. -/
structure Readings where
  verifying : Surroundings
  now : Except AuthError ℤ
  issuing : Surroundings
  nextId : Except AuthError RefreshJti

namespace RefreshTokenService

variable {κ : Type} (jwt : Jsonwebtoken) (service : RefreshTokenService κ)

/-- The beginning of a call. -/
def admitted (around : Surroundings) (token : Text) : Except AuthError (TokenClaims × RefreshJti) := do
  let claims ← service.verifier.verify jwt around token .refresh
  let current ← okOr .missingClaim claims.jti
  return (claims, current)

/-- A call from the lock to the store. -/
def prepared (readings : Readings) (stopped : Bool) (token : Text) (client : ClientContext)
    (claims : TokenClaims) (current : RefreshJti) :
    Except AuthError (RefreshRotationRequest × AuthTokenPair) := do
  let _ ← service.verifier.verify jwt readings.verifying token .refresh
  let now ← readings.now
  let candidate ← service.signer.issue jwt readings.issuing readings.nextId claims.sub claims.sid
    claims.sessionVersion claims.restriction
  refuse (candidate.refreshJti = current) .invalidPolicy
  refuse (stopped = true) .cancelled
  return ({
    subject := claims.sub
    sessionId := claims.sid
    sessionVersion := claims.sessionVersion
    restriction := claims.restriction
    currentRefreshJti := current
    currentRefreshValidUntil := claims.exp + service.verifier.policy.leewaySecs
    nextRefreshJti := candidate.refreshJti
    nextRefreshExpiresAt := candidate.refreshExpiresAt
    client := client
    now := now
    policy := service.policy }, candidate)

end RefreshTokenService

/-! ## Calls -/

/-- Where a call is. -/
inductive RefreshPhase (E : Type)
  | called
  /-- It has a permit, and waits for the lock. -/
  | queued (claims : TokenClaims) (current : RefreshJti)
  | guarded (claims : TokenClaims) (current : RefreshJti)
  | persisting (method : StoreMethod) (request : RefreshRotationRequest) (candidate : AuthTokenPair)
      (transaction : Transaction E)
  | returned (result : Except (RefreshError E) RefreshOutcome)
  | dropped

structure RefreshCall (ι E : Type) where
  service : ι
  token : Text
  client : ClientContext
  cancelled : Bool
  /-- Whether the future is still there to be polled. -/
  listening : Bool
  phase : RefreshPhase E

/-- What a call makes of the store's answer: it returns, or has the conflict resolved. -/
def received {E : Type} (request : RefreshRotationRequest) (candidate : AuthTokenPair) :
    Except E RefreshStoreOutcome → RefreshPhase E
  | .error error => .returned (.error (.store error))
  | .ok (.rejected reason) => .returned (.ok (.rejected reason))
  | .ok .rotated => .returned (.ok (.rotated candidate))
  | .ok .conflict => .persisting .resolveConflict request candidate .opened

def StoreMethod.mayAnswer {E : Type} : StoreMethod → Except E RefreshStoreOutcome → Bool
  | .resolveConflict, .ok .rotated | .resolveConflict, .ok .conflict => false
  | _, _ => true

/-- The coordinators, the store, the calls, and the identities drawn so far. -/
structure AuthSystem (ι κ E : Type) where
  coordinators : κ → RefreshCoordinator
  store : SessionStore
  calls : ℕ → Option (RefreshCall ι E)
  issued : List RefreshJti

inductive AuthEvent (ι κ E : Type)
  | login (session : RefreshSession)
  | logout (sessionId : SessionId) (purge : Bool)
  | call (i : ℕ) (service : ι) (token : Text) (client : ClientContext)
  | start (i : ℕ) (around : Surroundings)
  | register (i : ℕ)
  | grant (i : ℕ)
  | prepare (i : ℕ) (readings : Readings)
  /-- The transaction has its locks, and the time, the account and a session before it. -/
  | read (i : ℕ) (now : ℤ) (account : AccountState) (found : Option SessionId)
  | commit (i : ℕ) (fate : Fate E) (others : List SessionId) (purge : Bool)
      (refusal : Except E RefreshRejection)
  | receive (i : ℕ)
  | cancel (i : ℕ)
  | drop (i : ℕ)
  | sweep (coordinator : κ) (i : ℕ)
  | close (coordinator : κ)

namespace AuthSystem

variable {ι κ E : Type} [DecidableEq κ]

def initial (coordinators : κ → RefreshCoordinator) : AuthSystem ι κ E :=
  ⟨coordinators, .empty, fun _ => none, []⟩

variable (s : AuthSystem ι κ E)

def put (i : ℕ) (call : RefreshCall ι E) : AuthSystem ι κ E :=
  { s with calls := Function.update s.calls i (some call) }

def coordinate (c : κ) (coordinator : RefreshCoordinator) : AuthSystem ι κ E :=
  { s with coordinators := Function.update s.coordinators c coordinator }

/-- The reservation of a call is dropped with it. -/
def release (c : κ) (i : ℕ) : AuthSystem ι κ E := s.coordinate c ((s.coordinators c).release i)

def settle (c : κ) (i : ℕ) (call : RefreshCall ι E) (phase : RefreshPhase E) : AuthSystem ι κ E :=
  match phase with
  | .returned _ => (s.release c i).put i { call with phase := phase }
  | _ => s.put i { call with phase := phase }

/-- An identity that was drawn. -/
def draw : Except AuthError RefreshJti → AuthSystem ι κ E
  | .ok jti => { s with issued := jti :: s.issued }
  | .error _ => s

variable (jwt : Jsonwebtoken) (services : ι → RefreshTokenService κ)

def go (i : ℕ) (call : RefreshCall ι E) : AuthEvent ι κ E → Option (AuthSystem ι κ E)
  | .start _ around =>
    let service := services call.service
    match call.phase with
    | .called =>
      match service.admitted jwt around call.token with
      | .error error => some (s.put i { call with phase := .returned (.error (.auth error)) })
      | .ok (claims, current) =>
        match (s.coordinators service.coordinator).enter i current call.cancelled with
        | .error error => some (s.put i { call with phase := .returned (.error (.auth error)) })
        | .ok coordinator =>
          some ((s.coordinate service.coordinator coordinator).put i
            { call with phase := .queued claims current })
    | _ => none
  | .register _ =>
    let c := (services call.service).coordinator
    ((s.coordinators c).register i).map (s.coordinate c)
  | .grant _ =>
    let c := (services call.service).coordinator
    match call.phase with
    | .queued claims current =>
      match (s.coordinators c).grant i call.cancelled with
      | none => none
      | some (.error error) => some (s.settle c i call (.returned (.error (.auth error))))
      | some (.ok coordinator) =>
        some ((s.coordinate c coordinator).put i { call with phase := .guarded claims current })
    | _ => none
  | .prepare _ readings =>
    let service := services call.service
    match call.phase with
    | .guarded claims current =>
      let stopped := call.cancelled || (s.coordinators service.coordinator).closed
      match service.prepared jwt readings stopped call.token call.client claims current with
      | .error error =>
        some ((s.draw readings.nextId).settle service.coordinator i call (.returned (.error (.auth error))))
      | .ok (request, candidate) =>
        some ((s.draw readings.nextId).put i
          { call with phase := .persisting .rotateRefresh request candidate .opened })
    | _ => none
  | .read _ now account found =>
    match call.phase with
    | .persisting method request candidate .opened =>
      let refreshed := { request with now := now }
      let plan := Plan.of account refreshed (found.bind s.store.rows)
      some (s.put i { call with phase := .persisting method request candidate (.decided refreshed plan) })
    | _ => none
  | .commit _ fate others purge refusal =>
    match call.phase with
    | .persisting method request candidate (.decided refreshed plan) =>
      let committed := fate.apply s.store (s.store.commit method i refreshed others purge refusal plan)
      some ({ s with store := committed.1 }.put i
        { call with phase := .persisting method request candidate (.answered committed.2) })
    | _ => none
  | .receive _ =>
    match call.phase with
    | .persisting method request candidate (.answered answer) =>
      if call.listening ∧ method.mayAnswer answer then
        some (s.settle (services call.service).coordinator i call (received request candidate answer))
      else none
    | _ => none
  | .cancel _ => some (s.put i { call with cancelled := true })
  | .drop _ =>
    let c := (services call.service).coordinator
    match call.phase with
    | .called => some (s.put i { call with listening := false, phase := .dropped })
    | .queued .. | .guarded .. =>
      some ((s.release c i).put i { call with listening := false, phase := .dropped })
    | .persisting .. =>
      if call.listening then some ((s.release c i).put i { call with listening := false }) else none
    | .returned _ | .dropped => none
  | .login _ | .logout .. | .call .. | .sweep .. | .close _ => none

def callOf : AuthEvent ι κ E → Option ℕ
  | .start i _ | .register i | .grant i | .prepare i _ | .read i .. | .commit i .. | .receive i | .cancel i
  | .drop i => some i
  | .login _ | .logout .. | .call .. | .sweep .. | .close _ => none

def next (event : AuthEvent ι κ E) : Option (AuthSystem ι κ E) :=
  match event with
  | .login session =>
    (s.store.login session).map fun store =>
      { s with store := store, issued := session.currentRefreshJti :: s.issued }
  | .logout sessionId purge =>
    (s.store.logout sessionId purge).map fun store => { s with store := store }
  | .call i service token client =>
    match s.calls i with
    | none => some (s.put i ⟨service, token, client, false, true, .called⟩)
    | some _ => none
  | .sweep c i => ((s.coordinators c).sweep i).map (s.coordinate c)
  | .close c => some (s.coordinate c (s.coordinators c).close)
  | event =>
    match callOf event with
    | some i => (s.calls i).bind fun call => s.go jwt services i call event
    | none => none

end AuthSystem

variable {ι κ E : Type} [DecidableEq κ]

def AuthStep (jwt : Jsonwebtoken) (services : ι → RefreshTokenService κ) (s : AuthSystem ι κ E)
    (event : AuthEvent ι κ E) (t : AuthSystem ι κ E) : Prop :=
  s.next jwt services event = some t

/-- Identities that are drawn are new, those of credentials and those of sessions. -/
def FreshIds (s : AuthSystem ι κ E) : AuthEvent ι κ E → Prop
  | .login session =>
    session.currentRefreshJti ∉ s.issued ∧ session.sessionId ∉ (succession s.store.record).registered
  | .prepare _ readings => ∀ jti, readings.nextId = .ok jti → jti ∉ s.issued
  | _ => True

end AsterForge.Auth
