import AsterForge.Cache.Memory
import Mathlib.Data.Finset.Card
/-!
# The memory cache as a map with times to live
A cache with times to live stands for a map from keys to values with the instants at which they expire.
The memory cache answers like that map as long as no reservation outlives its value, which happens where
`set_bytes` overwrites a value that was inserted under a reservation by one that expires earlier.
Beside that, a time to live beyond the last instant of the clock is taken for none at all.
* `Represents` — how a cache stands for a map, and **`apply_represents`**: an operation that keeps it.
* `Honoured` — the condition on an operation, and **`exists_divergence`**: where it is not met, some
  further run is answered differently.
* **`memoryCache_refines_ttlMap`** — runs of honoured operations are answered as by the reference map.
-/
namespace AsterForge.Cache
open Library ReservationState MemoryCacheValue Function List Option
/-! ## The reference map -/
/-- A map from keys to values with the instants at which they expire. -/
abbrev TtlMap := Text → Option (List UInt8 × ℕ)
namespace TtlMap
variable (settings : CacheSettings) (now : ℕ) (map : TtlMap)
def read (key : Text) : Option (List UInt8) := (unexpired now (map key)).map Prod.fst
def write (key : Text) (value : List UInt8) (ttlSecs : Option ℕ) : TtlMap :=
  update map key (some (value, now + settings.ttl ttlSecs * second))
def erase (key : Text) : TtlMap := update map key none
def apply : CacheOp → TtlMap × CacheAnswer
  | .getBytes key => (map, .bytes (map.read now key))
  | .takeBytes key => (map.erase key, .bytes (map.read now key))
  | .setBytes key value ttlSecs => (map.write settings now key value ttlSecs, .done)
  | .setBytesIfAbsent key value ttlSecs =>
    if (map.read now key).isSome then (map, .inserted false)
    else (map.write settings now key value ttlSecs, .inserted true)
  | .delete key => (map.erase key, .done)
  | .deleteMany keys => (keys.foldl erase map, .done)
  | .invalidatePrefix start =>
    (fun key => if start.isPrefixOf key then none else map key, .done)
  | .wait _ => (map, .done)
def answers : ℕ → TtlMap → List CacheOp → List CacheAnswer
  | _, _, [] => []
  | now, map, op :: ops =>
    (map.apply settings now op).2 :: answers (op.clock now) (map.apply settings now op).1 ops
end TtlMap
/-! ## Representation -/
def toEntry (entry : List UInt8 × ℕ) : MemoryCacheValue × ℕ := (⟨entry.1, entry.2⟩, entry.2)
lemma unexpired_toEntry (now : ℕ) (e : Option (List UInt8 × ℕ)) :
    unexpired now (e.map toEntry) = (unexpired now e).map toEntry := by
  cases e with
  | none => rfl
  | some e =>
    by_cases hlive : now < e.2
    · simp [unexpired, Option.filter, toEntry, hlive]
    · simp [unexpired, Option.filter, toEntry, hlive]
/-- A cache that stands for a map: the same values can be read, the reservations are in order, and every
reservation is for a value that lives at least as long. -/
structure Represents {moka : Moka} (keys : Finset Text) (now : ℕ) (map : TtlMap)
    (memory : MemoryCache moka) : Prop where
  visible : ∀ key, unexpired now (moka.stored memory.cache key) = (unexpired now (map key)).map toEntry
  deadlines : ∀ key value deadline, moka.stored memory.cache key = some (value, deadline) →
    value.expiresAt ≤ deadline
  exact : memory.reservations.Exact
  covered : ∀ key expiry, memory.reservations.entries.lookup key = some expiry → now < expiry →
    ∃ bytes deadline, map key = some (bytes, deadline) ∧ expiry ≤ deadline
  named : ∀ key expiry, memory.reservations.entries.lookup key = some expiry → key ∈ keys
section
variable {m : Moka} {s : CacheSettings} {k : Finset Text} {now l : ℕ} {map : TtlMap}
  {sl : MemoryCache m} {key : Text}
lemma represents_new (mk : Moka) (keys : Finset Text) (now : ℕ) :
    Represents keys now (fun _ => none) (MemoryCache.new mk) where
  visible key := by
    rw [MemoryCache.new, mk.stored_empty]
    rfl
  deadlines key value deadline h := by
    rw [MemoryCache.new, mk.stored_empty] at h
    cases h
  exact := exact_empty
  covered key expiry h := by cases h
  named key expiry h := by cases h
lemma Represents.wait (h : Represents k now map sl) (hl : now ≤ l) : Represents k l map sl where
  visible key := by
    rw [← unexpired_later hl, h.visible, ← unexpired_toEntry, unexpired_later hl, unexpired_toEntry]
  __ := h
  covered key expiry hlook hlive := h.covered key expiry hlook (Nat.lt_of_le_of_lt hl hlive)
lemma Represents.getBytes (h : Represents k now map sl) (key : Text) :
    sl.getBytes now key = (sl, map.read now key) := by
  rw [MemoryCache.getBytes, m.get_eq, h.visible, TtlMap.read]
  cases hread : unexpired now (map key) with
  | none => rfl
  | some e =>
    have hlive : ¬ e.2 ≤ now := Nat.not_le.mpr (unexpired_eq_some.mp hread).2
    simp [toEntry, isExpired, hlive]
open TtlMap
lemma Represents.delete (h : Represents k now map sl) (key : Text) :
    Represents k now (map.erase key) (sl.delete now key) where
  visible other := by
    rw [MemoryCache.delete, m.unexpired_remove le_rfl, h.visible, erase, update_apply]
    split <;> rfl
  deadlines other value d hstor := h.deadlines other value d (m.of_stored_remove hstor)
  exact := h.exact.remove key
  covered other expiry hlook hlive := by
    rw [MemoryCache.delete, lookup_remove] at hlook
    split at hlook
    · cases hlook
    · next hne =>
        obtain ⟨b, d, hm, hle⟩ := h.covered other expiry hlook hlive
        exact ⟨b, d, by rw [erase, update_of_ne hne, hm], hle⟩
  named other expiry hlook := by
    rw [MemoryCache.delete, lookup_remove] at hlook
    split at hlook
    · cases hlook
    · exact h.named other expiry hlook
lemma takeBytes_state (sf : MemoryCache m) (now : ℕ) (key : Text) :
    (sf.takeBytes now key).1 = sf.delete now key := by
  simp only [MemoryCache.takeBytes]
  split
  · rfl
  · split <;> rfl
section
variable (h : Represents k now map sl)
include h
lemma Represents.takeBytes (key : Text) : (sl.takeBytes now key).2 = map.read now key := by
  have hvis := h.visible key
  rw [TtlMap.read]
  simp only [MemoryCache.takeBytes]
  cases hread : unexpired now (map key) with
  | some e =>
    rw [hread, map_some, unexpired_eq_some] at hvis
    have hlive : ¬ e.2 ≤ now := Nat.not_le.mpr hvis.2
    rcases m.removed sl.cache now key with hr | ⟨-, he⟩
    · rw [hr, hvis.1]
      simp [toEntry, isExpired, hlive]
    · rw [hvis.1] at he
      exact absurd (unexpired_eq_none.mp he _ rfl) hlive
  | none =>
    rw [hread] at hvis
    rcases m.removed sl.cache now key with hr | ⟨hr, -⟩
    · rw [hr]
      cases hstor : m.stored sl.cache key with
      | none => rfl
      | some e =>
        have hdead := h.deadlines key e.1 e.2 hstor
        have he := unexpired_eq_none.mp hvis e hstor
        simp [isExpired, hdead.trans he]
    · rw [hr]
      rfl
lemma Represents.insert {v : List UInt8} {ttlSecs : Option ℕ}
    (he : expiresAt s.limit now (s.ttl ttlSecs) = now + s.ttl ttlSecs * second)
    (hr : ∀ e, sl.reservations.entries.lookup key = some e → now < e → e ≤ now + s.ttl ttlSecs * second) :
    Represents k now (map.write s now key v ttlSecs) (sl.setBytes s now key v ttlSecs) where
  visible other := by
    rw [MemoryCache.setBytes, MemoryCache.insert, m.unexpired_insert le_rfl, h.visible, write, update_apply]
    split
    · rw [← unexpired_toEntry]
      simp [toEntry, MemoryCache.cacheValue, new, he, expireAfterCreate]
    · rfl
  deadlines other stored d hstor := by
    rcases m.of_stored_insert hstor with ⟨-, hn⟩ | hl
    · rw [Prod.mk.injEq] at hn
      rw [hn.1, hn.2, expireAfterCreate]
      omega
    · exact h.deadlines other stored d hl
  __ := h
  covered other e hlook hlive := by
    by_cases hkey : other = key
    · subst hkey
      exact ⟨v, _, by rw [write, update_self], hr e hlook hlive⟩
    · obtain ⟨b, d, hm, hle⟩ := h.covered other e hlook hlive
      exact ⟨b, d, by rw [write, update_of_ne hkey, hm], hle⟩
lemma Represents.reserve {e d : ℕ} {b : List UInt8} (hk : key ∈ k) (hm : map key = some (b, d)) (hle : e ≤ d) :
    Represents k now map { sl with reservations := (sl.reservations.reserve now e key).1 } where
  __ := h
  exact := h.exact.reserve now e key
  covered other expiry hlook hlive := by
    rw [lookup_reserve h.exact] at hlook
    split at hlook
    · next hresv =>
        rw [some.injEq] at hlook
        rw [hresv.2]
        exact ⟨b, d, hm, hlook ▸ hle⟩
    · exact h.covered other expiry (eq_some_of_filter_eq_some hlook) hlive
  named other expiry hlook := by
    rw [lookup_reserve h.exact] at hlook
    split at hlook
    · next hresv => exact hresv.2 ▸ hk
    · exact h.named other expiry (eq_some_of_filter_eq_some hlook)
lemma Represents.mapSize_expire_le : mapSize (sl.reservations.expire now).entries ≤ k.card := by
  rw [mapSize_eq_keys, ← toFinset_card_of_nodup (AList.keys_nodup _)]
  refine Finset.card_le_card ?_
  intro key hk
  rw [List.mem_toFinset] at hk
  obtain ⟨e, hl⟩ := isSome_iff_exists.mp (AList.lookup_isSome.mpr hk)
  rw [lookup_expire h.exact] at hl
  exact h.named key e (eq_some_of_filter_eq_some hl)
lemma Represents.free (hr : map.read now key = none) : sl.reservations.Free now key := by
  intro e hl
  by_contra hlive
  obtain ⟨b, d, hm, hle⟩ := h.covered key e hl (Nat.lt_of_not_le hlive)
  have hvis : unexpired now (map key) = some (b, d) :=
    unexpired_eq_some.mpr ⟨hm, Nat.lt_of_lt_of_le (Nat.lt_of_not_le hlive) hle⟩
  rw [TtlMap.read, hvis] at hr
  cases hr
lemma Represents.setBytesIfAbsent_of_present
    (hr : (map.read now key).isSome = true) (v : List UInt8) (ttlSecs : Option ℕ) :
    sl.setBytesIfAbsent s now key v ttlSecs = (sl, false) := by
  rw [MemoryCache.setBytesIfAbsent, h.getBytes key]
  simp [hr]
lemma Represents.setBytesIfAbsent_of_absent
    (hc : k.card < reservationMaxEntries) (hr : map.read now key = none) (value : List UInt8)
    (ttlSecs : Option ℕ) : sl.setBytesIfAbsent s now key value ttlSecs =
      ({ sl.setBytes s now key value ttlSecs with
          reservations := (sl.reservations.reserve now
            (expiresAt s.limit now (s.ttl ttlSecs)) key).1 }, true) := by
  have hresv : (sl.reservations.reserve now (expiresAt s.limit now (s.ttl ttlSecs)) key).2 = true :=
    (reserve_answer h.exact _ _ _).mpr ⟨h.free hr, Nat.lt_of_le_of_lt h.mapSize_expire_le hc⟩
  have hfirst := h.getBytes key
  rw [hr] at hfirst
  -- the second look is at the same values as the first
  have hsnd : ∀ reservations, ({ sl with reservations } : MemoryCache m).getBytes now key =
      ({ sl with reservations }, none) := by
    intro reservations
    have hnone : m.get sl.cache now key = none := by
      rw [m.get_eq, h.visible]
      simpa [TtlMap.read] using hr
    simp only [MemoryCache.getBytes, hnone]
  simp only [MemoryCache.setBytesIfAbsent, hfirst, MemoryCache.reserveGuarded, hresv, hsnd]
  rfl
lemma Represents.deleteMany (n : List Text) : Represents k now (n.foldl erase map) (sl.deleteMany now n) := by
  induction n generalizing map sl with
  | nil => exact h
  | cons key n ih => exact ih (h.delete key)
end
lemma unexpired_foldl_remove (n : List Text) (c : m.State) (now : ℕ) (o : Text) :
    unexpired now (m.stored (n.foldl (fun c key => (m.remove c now key).1) c) o) =
      if o ∈ n then none else unexpired now (m.stored c o) := by
  induction n generalizing c with
  | nil => simp
  | cons key n ih =>
    rw [foldl_cons, ih, m.unexpired_remove le_rfl]
    by_cases hnames : o ∈ n
    · simp [hnames]
    · simp [hnames]
lemma of_stored_foldl_remove (n : List Text) {c : m.State} {now : ℕ} {o : Text} {f : MemoryCacheValue × ℕ}
    (h : m.stored (n.foldl (fun c key => (m.remove c now key).1) c) o = some f) : m.stored c o = some f := by
  induction n generalizing c with
  | nil => exact h
  | cons key n ih => exact m.of_stored_remove (ih h)
lemma Represents.invalidatePrefix (h : Represents k now map sl) (s : Text) :
    Represents k now (fun key => if s.isPrefixOf key then none else map key) (sl.invalidatePrefix now s) where
  visible other := by
    rw [MemoryCache.invalidatePrefix, unexpired_foldl_remove]
    simp only [mem_filter, m.mem_keys, h.visible]
    by_cases hstart : s.isPrefixOf other = true
    · by_cases hvis : unexpired now (map other) = none
      · simp [hstart, hvis]
      · simp [hstart, hvis]
    · simp [hstart]
  deadlines other value d hstor :=
    h.deadlines other value d (of_stored_foldl_remove _ hstor)
  exact := h.exact.invalidatePrefix s
  covered other expiry hlook hlive := by
    rw [MemoryCache.invalidatePrefix, lookup_invalidatePrefix] at hlook
    split at hlook
    · cases hlook
    · next hstart =>
        obtain ⟨b, d, hm, hle⟩ := h.covered other expiry hlook hlive
        exact ⟨b, d, by rw [if_neg hstart, hm], hle⟩
  named other expiry hlook := by
    rw [MemoryCache.invalidatePrefix, lookup_invalidatePrefix] at hlook
    split at hlook
    · cases hlook
    · exact h.named other expiry hlook
end
/-! ## Honoured operations -/
/-- The clock has the instant at which a time to live ends. -/
def Representable (settings : CacheSettings) (now : ℕ) (ttlSecs : Option ℕ) : Prop :=
  settings.ttl ttlSecs = 0 ∨ now + settings.ttl ttlSecs * second ≤ settings.limit
  deriving Decidable
/-- What keeps a cache standing for its map.  A value is not overwritten by one that expires before the
reservation of its key, and the clock has the instants at which times to live end. -/
def Honoured {moka : Moka} (settings : CacheSettings) (now : ℕ) (self : MemoryCache moka) : CacheOp → Prop
  | .setBytes key _ ttlSecs => Representable settings now ttlSecs ∧
      ∀ expiry, self.reservations.entries.lookup key = some expiry → now < expiry →
        expiry ≤ now + settings.ttl ttlSecs * second
  | .setBytesIfAbsent key _ ttlSecs =>
    (self.getBytes now key).2.isSome = true ∨ Representable settings now ttlSecs
  | _ => True
def HonouredRun {moka : Moka} (settings : CacheSettings) : ℕ → MemoryCache moka → List CacheOp → Prop
  | _, _, [] => True
  | now, self, op :: ops => Honoured settings now self op ∧
      HonouredRun settings (op.clock now) (self.apply settings now op).1 ops
lemma expiresAt_of_representable {ss : CacheSettings} {now : ℕ} {ttlSecs : Option ℕ}
    (h : Representable ss now ttlSecs) :
    expiresAt ss.limit now (ss.ttl ttlSecs) = now + ss.ttl ttlSecs * second := by
  rcases h with hz | hle
  · rw [hz, Nat.zero_mul]
    rcases Nat.lt_or_ge ss.limit (now + 0 * second) with hlt | hle
    · exact expiresAt_of_lt hlt
    · rw [expiresAt_of_le hle]
      omega
  · exact expiresAt_of_le hle
/-! ## Steps and runs -/
section
variable {moka : Moka} {st : CacheSettings} {ky : Finset Text} {now : ℕ} {map : TtlMap}
  {self : MemoryCache moka} {op : CacheOp} {ts : Option ℕ}
/-- **One operation.**  An honoured operation answers like the map and keeps the representation. -/
theorem apply_represents (h : Represents ky now map self) (hc : ky.card < reservationMaxEntries)
    (hk : ∀ key ∈ op.keys, key ∈ ky) (hop : Honoured st now self op) :
    (self.apply st now op).2 = (map.apply st now op).2 ∧
      Represents ky (op.clock now) (map.apply st now op).1 (self.apply st now op).1 := by
  cases op with
  | getBytes key =>
    simp only [MemoryCache.apply, TtlMap.apply, h.getBytes key]
    exact ⟨trivial, h⟩
  | takeBytes key =>
    simp only [MemoryCache.apply, TtlMap.apply, h.takeBytes key, takeBytes_state]
    exact ⟨trivial, h.delete key⟩
  | setBytes key v ts =>
    exact ⟨rfl, h.insert (expiresAt_of_representable hop.1) hop.2⟩
  | setBytesIfAbsent key v ts =>
    simp only [MemoryCache.apply, TtlMap.apply]
    cases hread : map.read now key with
    | some f =>
      have hp : (map.read now key).isSome = true := by rw [hread]; rfl
      rw [h.setBytesIfAbsent_of_present hp]
      exact ⟨rfl, h⟩
    | none =>
      have hr : Representable st now ts := by
        rcases hop with hp | hr
        · rw [h.getBytes key, hread] at hp
          cases hp
        · exact hr
      have hexp := expiresAt_of_representable hr
      have hwrit : Represents ky now (map.write st now key v ts)
          (self.setBytes st now key v ts) := h.insert hexp
        (fun e hl hlv => absurd (h.free hread e hl) (Nat.not_le.mpr hlv))
      rw [h.setBytesIfAbsent_of_absent hc hread]
      refine ⟨rfl, hwrit.reserve (hk key (mem_singleton_self key)) (update_self _ _ _) hexp.le⟩
  | delete key => exact ⟨rfl, h.delete key⟩
  | deleteMany n => exact ⟨rfl, h.deleteMany n⟩
  | invalidatePrefix s => exact ⟨rfl, h.invalidatePrefix s⟩
  | wait d => exact ⟨rfl, h.wait (Nat.le_add_right _ _)⟩
def MemoryCache.afterRun (settings : CacheSettings) : ℕ → MemoryCache moka → List CacheOp → MemoryCache moka
  | _, self, [] => self
  | now, self, op :: ops => MemoryCache.afterRun settings (op.clock now) (self.apply settings now op).1 ops
def TtlMap.afterRun (settings : CacheSettings) : ℕ → TtlMap → List CacheOp → TtlMap
  | _, map, [] => map
  | now, map, op :: ops => TtlMap.afterRun settings (op.clock now) (map.apply settings now op).1 ops
def clockAfter : ℕ → List CacheOp → ℕ
  | now, [] => now
  | now, op :: ops => clockAfter (op.clock now) ops
variable (ops m : List CacheOp)
lemma MemoryCache.answers_append (now : ℕ) (sf : MemoryCache moka) :
    MemoryCache.answers st now sf (ops ++ m) = MemoryCache.answers st now sf ops ++
      MemoryCache.answers st (clockAfter now ops) (MemoryCache.afterRun st now sf ops) m := by
  induction ops generalizing now sf with
  | nil => rfl
  | cons op ops ih =>
    rw [cons_append, MemoryCache.answers, ih]
    rfl
lemma TtlMap.answers_append (now : ℕ) (map : TtlMap) : answers st now map (ops ++ m) = answers st now map ops ++
    answers st (clockAfter now ops) (afterRun st now map ops) m := by
  induction ops generalizing now map with
  | nil => rfl
  | cons op ops ih =>
    rw [cons_append, answers, ih]
    rfl
/-- **A run of honoured operations** answers like the map and ends representing it. -/
theorem run_represents (h : Represents ky now map self) (hc : ky.card < reservationMaxEntries)
    {ops : List CacheOp} (hk : ∀ op ∈ ops, ∀ key ∈ op.keys, key ∈ ky) (ho : HonouredRun st now self ops) :
    MemoryCache.answers st now self ops = TtlMap.answers st now map ops ∧
      Represents ky (clockAfter now ops) (TtlMap.afterRun st now map ops)
        (MemoryCache.afterRun st now self ops) := by
  induction ops generalizing now map self with
  | nil => exact ⟨rfl, h⟩
  | cons op ops ih =>
    obtain ⟨hop, ho⟩ := ho
    obtain ⟨has, hs⟩ := apply_represents h hc (hk op mem_cons_self) hop
    obtain ⟨han, ha⟩ := ih hs (fun op hm => hk op (mem_cons_of_mem _ hm)) ho
    refine ⟨?_, ha⟩
    rw [MemoryCache.answers, TtlMap.answers, has, han]
/-! ## Operations that are not honoured -/
variable {key : Text}
lemma getBytes_after_unrepresentable (hu : ¬ Representable st now ts) (value : List UInt8)
    (reservations : ReservationState) :
    (({ self.setBytes st now key value ts with reservations } : MemoryCache moka).getBytes now
      key).2 = none := by
  rw [Representable, not_or, Nat.not_le] at hu
  have hnone : moka.get (self.setBytes st now key value ts).cache now key = none := by
    rw [moka.get_eq, MemoryCache.setBytes, MemoryCache.insert, moka.unexpired_insert le_rfl]
    simp [unexpired, MemoryCache.cacheValue, new, expireAfterCreate, expiresAt_of_lt hu.2]
  simp only [MemoryCache.getBytes, hnone]
lemma read_write (hp : st.ttl ts ≠ 0) (v : List UInt8) : (map.write st now key v ts).read now key = some v := by
  have hlater : now < now + st.ttl ts * second :=
    Nat.lt_add_of_pos_right (Nat.mul_pos (Nat.pos_of_ne_zero hp) (by decide))
  rw [TtlMap.read, TtlMap.write, update_self, unexpired_eq_some.mpr ⟨rfl, hlater⟩]
  rfl
lemma setBytesIfAbsent_of_reserved (hn : moka.get self.cache now key = none) (he : self.reservations.Exact) {e : ℕ}
    (hl : self.reservations.entries.lookup key = some e) (hlv : now < e) {v : List UInt8} :
    (self.setBytesIfAbsent st now key v ts).2 = false := by
  have href : (self.reservations.reserve now (expiresAt st.limit now (st.ttl ts)) key).2 = false := by
    rw [← Bool.not_eq_true, reserve_answer he, not_and_or]
    exact .inl fun hf => absurd (hf e hl) (Nat.not_le.mpr hlv)
  have hfirst : self.getBytes now key = (self, none) := by
    simp only [MemoryCache.getBytes, hn]
  simp only [MemoryCache.setBytesIfAbsent, hfirst, MemoryCache.reserveGuarded, href]
  rfl
/-- **An operation that is not honoured** makes some further run answer differently. -/
theorem exists_divergence (h : Represents ky now map self) (hc : ky.card < reservationMaxEntries)
    (hop : ¬ Honoured st now self op) :
    ∃ more : List CacheOp, (∀ later ∈ more, ∀ key ∈ later.keys, key ∈ op.keys) ∧
      MemoryCache.answers st now self (op :: more) ≠ TtlMap.answers st now map (op :: more) := by
  cases op with
  | setBytes key value ts =>
    by_cases hrepr : Representable st now ts
    · -- the reservation outlives the value: between the two deadlines nothing can be inserted
      obtain ⟨expiry, hl, -, hlong⟩ : ∃ expiry,
          self.reservations.entries.lookup key = some expiry ∧ now < expiry ∧
            now + st.ttl ts * second < expiry := by
        by_contra hnone
        refine hop ⟨hrepr, ?_⟩
        intro expiry hl hlv
        by_contra hlong
        exact hnone ⟨expiry, hl, hlv, Nat.lt_of_not_le hlong⟩
      refine ⟨[.wait (st.ttl ts * second), .setBytesIfAbsent key value ts], ?_, ?_⟩
      · intro later hm name hn
        simp only [mem_cons, not_mem_nil, or_false] at hm
        rcases hm with rfl | rfl
        · cases hn
        · exact hn
      · intro hs
        simp only [MemoryCache.answers, TtlMap.answers, cons.injEq] at hs
        have hlast : CacheAnswer.inserted ((self.setBytes st now key value ts).setBytesIfAbsent
            st (now + st.ttl ts * second) key value ts).2 =
            ((map.write st now key value ts).apply st
              (now + st.ttl ts * second) (.setBytesIfAbsent key value ts)).2 :=
          hs.2.2.1
        have hread : (map.write st now key value ts).read (now + st.ttl ts * second) key = none := by
          simp [TtlMap.read, TtlMap.write, unexpired]
        have hnone : moka.get (self.setBytes st now key value ts).cache
            (now + st.ttl ts * second) key = none := by
          rw [moka.get_eq, MemoryCache.setBytes, MemoryCache.insert,
            moka.unexpired_insert (Nat.le_add_right _ _)]
          simp [unexpired, MemoryCache.cacheValue, new, expireAfterCreate, expiresAt_of_representable hrepr]
        rw [setBytesIfAbsent_of_reserved hnone (h.exact : ReservationState.Exact _) hl hlong,
          TtlMap.apply, hread] at hlast
        cases hlast
    · refine ⟨[.getBytes key], ?_, ?_⟩
      · intro later hm name hn
        rw [mem_singleton] at hm
        subst hm
        exact hn
      · intro hs
        simp only [MemoryCache.answers, TtlMap.answers, cons.injEq] at hs
        have hlast := hs.2.1
        have hpos : st.ttl ts ≠ 0 := fun hz => hrepr (.inl hz)
        simp only [MemoryCache.apply, TtlMap.apply, CacheOp.clock, read_write hpos] at hlast
        rw [getBytes_after_unrepresentable hrepr] at hlast
        cases hlast
  | setBytesIfAbsent key value ts =>
    rw [Honoured, not_or, h.getBytes key, Bool.not_eq_true, isSome_eq_false_iff, isNone_iff_eq_none] at hop
    have hread : map.read now key = none := hop.1
    refine ⟨[.getBytes key], ?_, ?_⟩
    · intro later hm name hn
      rw [mem_singleton] at hm
      subst hm
      exact hn
    · intro hs
      simp only [MemoryCache.answers, TtlMap.answers, cons.injEq] at hs
      have hlast : CacheAnswer.bytes ((self.setBytesIfAbsent st now key value ts).1.getBytes now key).2 =
          .bytes (TtlMap.read now (map.apply st now (.setBytesIfAbsent key value ts)).1 key) :=
        hs.2.1
      have hpos : st.ttl ts ≠ 0 := fun hz => hop.2 (.inl hz)
      have hwrit : (map.apply st now (.setBytesIfAbsent key value ts)).1 = map.write st now key value ts := by
        rw [TtlMap.apply, hread]
        rfl
      rw [h.setBytesIfAbsent_of_absent hc hread, getBytes_after_unrepresentable hop.2, hwrit,
        read_write hpos] at hlast
      cases hlast
  | getBytes key => exact absurd trivial hop
  | takeBytes key => exact absurd trivial hop
  | delete key => exact absurd trivial hop
  | deleteMany names => exact absurd trivial hop
  | invalidatePrefix start => exact absurd trivial hop
  | wait duration => exact absurd trivial hop
end
/-! ## The cache and the map -/
def keysOf (ops : List CacheOp) : Finset Text := (ops.flatMap CacheOp.keys).toFinset
lemma mem_keysOf {ops : List CacheOp} {op : CacheOp} (hop : op ∈ ops) {key : Text} (hk : key ∈ op.keys) :
    key ∈ keysOf ops :=
  mem_toFinset.mpr (mem_flatMap.mpr ⟨op, hop, hk⟩)
/-- **A memory cache is a map with times to live, as long as its operations are honoured.**  A run with
fewer than 65536 keys in which no value is overwritten by one that expires before a live reservation of
its key, and in which the clock has every instant at which a time to live ends, is answered exactly as by
the reference map.  After such a run, an operation that is not so makes some further run on its key
answer differently. -/
theorem memoryCache_refines_ttlMap (moka : Moka) (settings : CacheSettings) (now : ℕ) (ops : List CacheOp)
    (hops : HonouredRun settings now (MemoryCache.new moka) ops) : ((keysOf ops).card < reservationMaxEntries →
      MemoryCache.answers settings now (MemoryCache.new moka) ops =
        TtlMap.answers settings now (fun _ => none) ops) ∧
    ∀ op, (keysOf (ops ++ [op])).card < reservationMaxEntries →
      ¬ Honoured settings (clockAfter now ops) (MemoryCache.afterRun settings now (MemoryCache.new moka) ops)
        op →
      ∃ more : List CacheOp, (∀ later ∈ more, ∀ key ∈ later.keys, key ∈ op.keys) ∧
        MemoryCache.answers settings now (MemoryCache.new moka) (ops ++ op :: more) ≠
          TtlMap.answers settings now (fun _ => none) (ops ++ op :: more) := by
  constructor
  · intro hc
    exact (run_represents (represents_new moka _ now) hc (fun op hop key hk => mem_keysOf hop hk) hops).1
  · intro op hc hn
    obtain ⟨-, ha⟩ := run_represents (represents_new moka _ now) hc
      (fun op hop key hk => mem_keysOf (mem_append_left _ hop) hk) hops
    obtain ⟨more, hm, hd⟩ := exists_divergence ha hc hn
    refine ⟨more, hm, ?_⟩
    rw [MemoryCache.answers_append, TtlMap.answers_append]
    intro hs
    refine hd (append_inj_right hs ?_)
    have hlen : ∀ (ops : List CacheOp) now map (self : MemoryCache moka),
        (MemoryCache.answers settings now self ops).length = (TtlMap.answers settings now map ops).length := by
      intro ops
      induction ops with
      | nil => exact fun _ _ _ => rfl
      | cons op ops ih =>
        intro now map self
        rw [MemoryCache.answers, TtlMap.answers, length_cons, length_cons, ih]
    exact hlen ops now _ _
/-- The clock of a system that counts seconds in 64 bits with sign. -/
def unixSettings : CacheSettings := ⟨2 ^ 63 * second - 1, 60⟩
def nonce : Text := ['n', 'o', 'n', 'c', 'e']
def nonceRun : List CacheOp := [.setBytesIfAbsent nonce [1] (some 60), .wait second, .getBytes nonce]
theorem memoryCache_refines_ttlMap_nonceRun :
    MemoryCache.answers unixSettings 0 (.new (ExpiringCache.table Text MemoryCacheValue)) nonceRun =
      TtlMap.answers unixSettings 0 (fun _ => none) nonceRun := by
  have hhonoured : HonouredRun unixSettings 0 (.new (ExpiringCache.table Text MemoryCacheValue)) nonceRun :=
    ⟨.inr (.inr (by decide)), trivial, trivial, trivial⟩
  exact (memoryCache_refines_ttlMap _ _ _ _ hhonoured).1 (by decide)
/-- A value inserted for a minute and overwritten for a second is gone after the second, and cannot be
inserted again before the minute is over. -/
theorem memoryCache_refines_ttlMap_counterexample :
    ¬ ∀ (moka : Moka) (settings : CacheSettings) (now : ℕ) (ops : List CacheOp),
      (keysOf ops).card < reservationMaxEntries →
        MemoryCache.answers settings now (MemoryCache.new moka) ops =
          TtlMap.answers settings now (fun _ => none) ops := by
  intro h
  have hanss := h (ExpiringCache.table Text MemoryCacheValue) unixSettings 0
    [.setBytesIfAbsent nonce [1] (some 60), .setBytes nonce [2] (some 1), .wait second,
      .setBytesIfAbsent nonce [3] (some 60)] (by decide)
  revert hanss
  decide
end AsterForge.Cache
