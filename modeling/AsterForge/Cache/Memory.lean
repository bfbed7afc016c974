import AsterForge.Cache.Reservation
import AsterForge.Library.ExpiringCache

/-!
# The memory cache

The in-process cache keeps its values in a third-party cache that gives every entry a deadline of its
own, and beside it the reservations of the callers that insert a value only if there is none.  Presence
is so recorded twice, and the operations update the two records separately.
-/

namespace AsterForge.Cache

open Library

/-! ## Values -/

structure MemoryCacheValue where
  bytes : List UInt8
  expiresAt : ℕ
  deriving DecidableEq

def MemoryCacheValue.new (limit now : ℕ) (bytes : List UInt8) (ttlSecs : ℕ) : MemoryCacheValue where
  bytes := bytes
  expiresAt := Cache.expiresAt limit now ttlSecs

def MemoryCacheValue.isExpired (self : MemoryCacheValue) (now : ℕ) : Bool :=
  decide (self.expiresAt ≤ now)

/-- The lifetime a value is inserted with: what is left until its deadline, or nothing. -/
def expireAfterCreate (value : MemoryCacheValue) (createdAt : ℕ) : ℕ := value.expiresAt - createdAt

abbrev Moka := ExpiringCache Text MemoryCacheValue

/-- The last instant of the clock, and the time to live of values that are not given one.  The cache
hands its default to its reservation set. -/
structure CacheSettings where
  limit : ℕ
  defaultTtl : ℕ

def CacheSettings.ttl (settings : CacheSettings) (ttlSecs : Option ℕ) : ℕ :=
  ttlSecs.getD settings.defaultTtl

structure MemoryCache (moka : Moka) where
  cache : moka.State
  reservations : ReservationState

/-! ## Operations -/

namespace MemoryCache

variable {moka : Moka} (settings : CacheSettings) (now : ℕ) (self : MemoryCache moka)

def new (moka : Moka) : MemoryCache moka := ⟨moka.empty, .empty⟩

def cacheValue (value : List UInt8) (ttlSecs : Option ℕ) : MemoryCacheValue :=
  .new settings.limit now value (settings.ttl ttlSecs)

variable (key : Text)

def getBytes : MemoryCache moka × Option (List UInt8) :=
  match moka.get self.cache now key with
  | none => (self, none)
  | some value =>
    if value.isExpired now then
      ({ self with reservations := self.reservations.remove key }, none)
    else (self, some value.bytes)

def takeBytes : MemoryCache moka × Option (List UInt8) :=
  let reservations := self.reservations.remove key
  let removed := moka.remove self.cache now key
  match removed.2 with
  | none => (⟨removed.1, reservations⟩, none)
  | some value =>
    if value.isExpired now then (⟨removed.1, reservations⟩, none)
    else (⟨removed.1, reservations⟩, some value.bytes)

def insert (key : Text) (value : MemoryCacheValue) : MemoryCache moka :=
  { self with cache := moka.insert self.cache now key value (expireAfterCreate value now) }

def setBytes (value : List UInt8) (ttlSecs : Option ℕ) : MemoryCache moka :=
  self.insert now key (cacheValue settings now value ttlSecs)

/-- Reserves the key for a guard, which removes the reservation again unless it is committed. -/
def reserveGuarded (ttlSecs : Option ℕ) : MemoryCache moka × Bool :=
  let reserved := self.reservations.reserve now (expiresAt settings.limit now (settings.ttl ttlSecs)) key
  ({ self with reservations := reserved.1 }, reserved.2)

def setBytesIfAbsent (value : List UInt8) (ttlSecs : Option ℕ) : MemoryCache moka × Bool :=
  let first := self.getBytes now key
  if first.2.isSome then (first.1, false)
  else
    let reserved := first.1.reserveGuarded settings now key ttlSecs
    if !reserved.2 then (reserved.1, false)
    else
      let second := reserved.1.getBytes now key
      if second.2.isSome then
        ({ second.1 with reservations := second.1.reservations.remove key }, false)
      else (second.1.insert now key (cacheValue settings now value ttlSecs), true)

def delete : MemoryCache moka where
  cache := (moka.remove self.cache now key).1
  reservations := self.reservations.remove key

def deleteMany (keys : List Text) : MemoryCache moka :=
  keys.foldl (fun self key => self.delete now key) self

def invalidatePrefix (start : Text) : MemoryCache moka where
  cache := ((moka.keys self.cache now).filter fun key => start.isPrefixOf key).foldl
    (fun cache key => (moka.remove cache now key).1) self.cache
  reservations := self.reservations.invalidatePrefix start

end MemoryCache

/-! ## Runs of operations -/

/-- An operation of a sequential run, or the clock going on. -/
inductive CacheOp
  | getBytes (key : Text)
  | takeBytes (key : Text)
  | setBytes (key : Text) (value : List UInt8) (ttlSecs : Option ℕ)
  | setBytesIfAbsent (key : Text) (value : List UInt8) (ttlSecs : Option ℕ)
  | delete (key : Text)
  | deleteMany (keys : List Text)
  | invalidatePrefix (start : Text)
  | wait (duration : ℕ)

inductive CacheAnswer
  | done
  | bytes (value : Option (List UInt8))
  | inserted (answer : Bool)
  deriving DecidableEq

def CacheOp.keys : CacheOp → List Text
  | .getBytes key | .takeBytes key | .setBytes key _ _ | .setBytesIfAbsent key _ _ | .delete key => [key]
  | .deleteMany keys => keys
  | .invalidatePrefix _ | .wait _ => []

def CacheOp.clock (now : ℕ) : CacheOp → ℕ
  | .wait duration => now + duration
  | _ => now

def MemoryCache.apply {moka : Moka} (settings : CacheSettings) (now : ℕ) (self : MemoryCache moka) :
    CacheOp → MemoryCache moka × CacheAnswer
  | .getBytes key => ((self.getBytes now key).1, .bytes (self.getBytes now key).2)
  | .takeBytes key => ((self.takeBytes now key).1, .bytes (self.takeBytes now key).2)
  | .setBytes key value ttlSecs => (self.setBytes settings now key value ttlSecs, .done)
  | .setBytesIfAbsent key value ttlSecs =>
    ((self.setBytesIfAbsent settings now key value ttlSecs).1,
      .inserted (self.setBytesIfAbsent settings now key value ttlSecs).2)
  | .delete key => (self.delete now key, .done)
  | .deleteMany keys => (self.deleteMany now keys, .done)
  | .invalidatePrefix start => (self.invalidatePrefix now start, .done)
  | .wait _ => (self, .done)

def MemoryCache.answers {moka : Moka} (settings : CacheSettings) :
    ℕ → MemoryCache moka → List CacheOp → List CacheAnswer
  | _, _, [] => []
  | now, self, op :: ops =>
    (self.apply settings now op).2 ::
      MemoryCache.answers settings (op.clock now) (self.apply settings now op).1 ops

end AsterForge.Cache
