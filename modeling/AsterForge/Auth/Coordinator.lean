import AsterForge.Auth.Identity
import AsterForge.Library.Table

/-!
# The coordinator of refresh requests

Requests on one instance take a permit from a finite budget and then the lock of their refresh identity.
The map of locks holds weak references: a lock lives as long as a reservation has it, and the entry of a
dead lock is replaced by the next request of that identity, or removed by the last reservation dropped.

* `release`, `sweep` — the drop of a reservation, which gives up the lock before it looks at the map.
-/

namespace AsterForge.Auth

open Library

/-- How far a request got, with the lock it has. -/
inductive ReservationStage
  /-- It has its permit, and not looked up its lock yet. -/
  | admitted
  | waiting (lock : ℕ)
  | guarded (lock : ℕ)
  /-- It is being dropped: lock and guard are gone, the permit is not. -/
  | unlocked
  deriving DecidableEq

def ReservationStage.lock : ReservationStage → Option ℕ
  | .waiting lock | .guarded lock => some lock
  | .admitted | .unlocked => none

structure Reservation where
  request : ℕ
  jti : RefreshJti
  stage : ReservationStage

/-- `Inner`: locks are numbered as they are made, and `budget` is what is left of the maximum. -/
structure RefreshCoordinator where
  maximum : ℕ
  budget : ℕ
  locks : Table RefreshJti ℕ
  made : ℕ
  closed : Bool
  reservations : List Reservation

namespace RefreshCoordinator

def fromLimit (maximum : ℕ) : RefreshCoordinator := ⟨maximum, maximum, fun _ => none, 0, false, []⟩

/-- `new`, for a semaphore of at most so many permits. -/
def new (maxPermits maximum : ℕ) : Except AuthError RefreshCoordinator :=
  if maximum = 0 ∨ maxPermits < maximum then .error .invalidPolicy else .ok (fromLimit maximum)

variable (coordinator : RefreshCoordinator)

def close : RefreshCoordinator := { coordinator with closed := true }

def strongCount (lock : ℕ) : ℕ :=
  coordinator.reservations.countP fun reservation => reservation.stage.lock = some lock

def find (request : ℕ) : Option Reservation :=
  coordinator.reservations.find? fun reservation => reservation.request = request

variable (request : ℕ)

def put (stage : ReservationStage) : RefreshCoordinator :=
  { coordinator with
    reservations := coordinator.reservations.map fun reservation =>
      if reservation.request = request then { reservation with stage := stage } else reservation }

/-- `acquire`, to the permit. -/
def enter (jti : RefreshJti) (cancelled : Bool) : Except AuthError RefreshCoordinator :=
  if coordinator.closed ∨ cancelled then .error .cancelled
  else if coordinator.budget = 0 then .error .resourceLimit
  else .ok { coordinator with
    budget := coordinator.budget - 1
    reservations := coordinator.reservations ++ [⟨request, jti, .admitted⟩] }

def liveLock (jti : RefreshJti) : Option ℕ :=
  (coordinator.locks jti).filter fun lock => coordinator.strongCount lock ≠ 0

/-- `acquire`, from the permit to the lock. -/
def register : Option RefreshCoordinator :=
  match coordinator.find request with
  | some ⟨_, jti, .admitted⟩ =>
    match coordinator.liveLock jti with
    | some lock => some (coordinator.put request (.waiting lock))
    | none => some ({ coordinator with
        locks := Function.update coordinator.locks jti (some coordinator.made)
        made := coordinator.made + 1 }.put request (.waiting coordinator.made))
  | _ => none

def held (lock : ℕ) : Bool :=
  coordinator.reservations.any fun reservation => reservation.stage = .guarded lock

/-- The end of `acquire`: cancellation and shutdown come first. -/
def grant (cancelled : Bool) : Option (Except AuthError RefreshCoordinator) :=
  match coordinator.find request with
  | some ⟨_, _, .waiting lock⟩ =>
    if cancelled ∨ coordinator.closed then some (.error .cancelled)
    else if coordinator.held lock then none
    else some (.ok (coordinator.put request (.guarded lock)))
  | _ => none

/-- The drop of a reservation, as far as its guard and its lock. -/
def release : RefreshCoordinator := coordinator.put request .unlocked

/-- The rest of the drop: the entry goes if its lock is dead, and the permit goes last. -/
def sweep : Option RefreshCoordinator :=
  match coordinator.find request with
  | some ⟨_, jti, .unlocked⟩ =>
    some { coordinator with
      budget := coordinator.budget + 1
      locks := if (coordinator.liveLock jti).isSome then coordinator.locks
        else Function.update coordinator.locks jti none
      reservations := coordinator.reservations.filter fun reservation => reservation.request ≠ request }
  | _ => none

end RefreshCoordinator

end AsterForge.Auth
