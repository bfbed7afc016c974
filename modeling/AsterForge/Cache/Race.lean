import AsterForge.Cache.Memory
import AsterForge.Library.Runs
import AsterForge.Library.Table

/-!
# Concurrent insertions of one key

`set_bytes_if_absent` looks for a value, reserves the key, looks again, and publishes its value before
the reservation is committed.  Here every operation on the value cache or on the reservation set is a
step of its own.

A caller that finds a value and sees a moment later that it is expired removes the reservation of the
key, whoever holds it by then; the next insertion gets a reservation too, and both publish.

* `LeavesReservations` — the condition: no clean-up hits a reservation that is held, and the clock has
  the instants at which reservations end.
* **`one_winner`** — under it, of two calls that both succeed, one published its value only after the
  other's had expired.
-/

namespace AsterForge.Cache

open Library MemoryCache Table ReservationState Function List Option

/-! ## Calls -/

/-- The first look at the values is before the reservation, the second after it. -/
inductive Look
  | first
  | second
  deriving DecidableEq

inductive CallPhase
  | looking (look : Look)
  /-- A value was found; whether it is expired is looked up next. -/
  | found (look : Look) (value : MemoryCacheValue)
  /-- The value was expired; the reservation of its key is removed next. -/
  | cleaning (look : Look)
  | reserving
  | making
  | inserting (value : MemoryCacheValue)
  /-- The value is published, and the guard still in scope. -/
  | committing
  /-- The guard is dropped uncommitted. -/
  | releasing
  | ended (won : Bool)
  deriving DecidableEq

/-- What a call is for: `get_bytes`, or `set_bytes_if_absent` with its arguments. -/
inductive CallKind
  | get
  | setIfAbsent (value : List UInt8) (ttlSecs : Option ℕ)
  deriving DecidableEq

structure InsertCall where
  kind : CallKind
  startedAt : ℕ
  phase : CallPhase
  deriving DecidableEq

def InsertCall.missed (call : InsertCall) : Look → CallPhase
  | .first =>
    match call.kind with
    | .get => .ended false
    | .setIfAbsent _ _ => .reserving
  | .second => .making

def Look.lost : Look → CallPhase
  | .first => .ended false
  | .second => .releasing

def InsertCall.operate {moka : Moka} (settings : CacheSettings) (key : Text) (now : ℕ)
    (memory : MemoryCache moka) (call : InsertCall) : Option (MemoryCache moka × CallPhase) :=
  match call.phase with
  | .looking look =>
    match moka.get memory.cache now key with
    | none => some (memory, call.missed look)
    | some value => some (memory, .found look value)
  | .found look value =>
    some (memory, if value.isExpired now then .cleaning look else look.lost)
  | .cleaning look =>
    some ({ memory with reservations := memory.reservations.remove key }, call.missed look)
  | .reserving =>
    match call.kind with
    | .get => none
    | .setIfAbsent _ ttlSecs =>
      let reserved := memory.reserveGuarded settings now key ttlSecs
      some (reserved.1, if reserved.2 then .looking .second else .ended false)
  | .making =>
    match call.kind with
    | .get => none
    | .setIfAbsent value ttlSecs =>
      some (memory, .inserting (MemoryCache.cacheValue settings now value ttlSecs))
  | .inserting value => some (memory.insert now key value, .committing)
  | .committing => some (memory, .ended true)
  | .releasing =>
    some ({ memory with reservations := memory.reservations.remove key }, .ended false)
  | .ended _ => none

open InsertCall

/-! ## Operations on other keys -/

/-- Single operations on the value cache and on the reservation set. -/
inductive SingleOp
  | insert (key : Text) (value : MemoryCacheValue) (lifetime : ℕ)
  | remove (key : Text)
  | reserve (key : Text) (expires : ℕ)
  | removeReservation (key : Text)
  | invalidateReservations (start : Text)

def SingleOp.apply {moka : Moka} (now : ℕ) (memory : MemoryCache moka) : SingleOp → MemoryCache moka
  | .insert key value lifetime =>
    { memory with cache := moka.insert memory.cache now key value lifetime }
  | .remove key => { memory with cache := (moka.remove memory.cache now key).1 }
  | .reserve key expires =>
    { memory with reservations := (memory.reservations.reserve now expires key).1 }
  | .removeReservation key => { memory with reservations := memory.reservations.remove key }
  | .invalidateReservations start =>
    { memory with reservations := memory.reservations.invalidatePrefix start }

def SingleOp.avoids (key : Text) : SingleOp → Bool
  | .insert other _ _ | .remove other | .reserve other _ | .removeReservation other => other != key
  | .invalidateReservations start => !start.isPrefixOf key

/-! ## Calls on one key -/

/-- A value that was published, by which call and when, with the deadline it was given. -/
structure Publication (ι : Type) where
  call : ι
  publishedAt : ℕ
  deadline : ℕ
  deriving DecidableEq

structure Racing (moka : Moka) (ι : Type) where
  now : ℕ
  memory : MemoryCache moka
  calls : ι → Option InsertCall
  /-- What was published, in order. -/
  published : List (Publication ι)

inductive RaceEvent (ι : Type)
  | start (i : ι) (kind : CallKind)
  | operate (i : ι)
  /-- The call is dropped where it is, and its guard with it. -/
  | drop (i : ι)
  | elsewhere (op : SingleOp)
  | wait (duration : ℕ)

def CallPhase.holds : CallPhase → Bool
  | .looking look | .found look _ | .cleaning look => look == .second
  | .making | .inserting _ | .committing | .releasing => true
  | .reserving | .ended _ => false

def CallPhase.isEnded : CallPhase → Bool
  | .ended _ => true
  | _ => false

def CallPhase.aboutToPublish : CallPhase → Bool
  | .making | .inserting _ => true
  | _ => false

def CallPhase.hasPublished : CallPhase → Bool
  | .committing => true
  | .ended won => won
  | _ => false

def InsertCall.publication {ι : Type} (i : ι) (now : ℕ) (call : InsertCall) : List (Publication ι) :=
  match call.phase with
  | .inserting value => [⟨i, now, now + expireAfterCreate value now⟩]
  | _ => []

namespace Racing

variable {moka : Moka} {ι : Type} [DecidableEq ι]

/-- A call is somewhere else, and has left something. -/
def go (s : Racing moka ι) (i : ι) (call : InsertCall) (memory : MemoryCache moka) (phase : CallPhase)
    (published : List (Publication ι)) : Racing moka ι :=
  { s with
    memory
    calls := update s.calls i (some { call with phase })
    published := s.published ++ published }

def next (settings : CacheSettings) (key : Text) (s : Racing moka ι) : RaceEvent ι → Option (Racing moka ι)
  | .start i kind =>
    if (s.calls i).isNone then
      some { s with calls := update s.calls i (some ⟨kind, s.now, .looking .first⟩) }
    else none
  | .operate i =>
    (s.calls i).bind fun call =>
      (call.operate settings key s.now s.memory).map fun done =>
        s.go i call done.1 done.2 (call.publication i s.now)
  | .drop i =>
    (s.calls i).bind fun call =>
      if call.phase.isEnded then none
      else if call.phase.holds then
        some (s.go i call { s.memory with reservations := s.memory.reservations.remove key }
          (.ended false) [])
      else some (s.go i call s.memory (.ended false) [])
  | .elsewhere op => if op.avoids key then some { s with memory := op.apply s.now s.memory } else none
  | .wait duration => some { s with now := s.now + duration }

/-- Nothing is in progress; what the cache has of the key is arbitrary. -/
def Initial (s : Racing moka ι) : Prop :=
  (∀ i, s.calls i = none) ∧ s.published = [] ∧ s.memory.reservations.Exact

def Step (settings : CacheSettings) (key : Text) (s : Racing moka ι) (event : RaceEvent ι)
    (t : Racing moka ι) : Prop :=
  s.next settings key event = some t

end Racing

/-- The instant at which a call would take as long as the time to live it passes. -/
def InsertCall.dueAt (settings : CacheSettings) (call : InsertCall) : Option ℕ :=
  match call.kind with
  | .get => none
  | .setIfAbsent _ ttlSecs => some (call.startedAt + settings.ttl ttlSecs * second)

section

variable {moka : Moka} {ι : Type} (settings : CacheSettings)

def InTime (s : Racing moka ι) : RaceEvent ι → Prop
  | .start _ kind => ∀ due ∈ InsertCall.dueAt settings ⟨kind, s.now, .looking .first⟩, s.now < due
  | .wait duration => ∀ i, ∀ call ∈ s.calls i, call.phase.isEnded = false →
      ∀ due ∈ call.dueAt settings, s.now + duration < due
  | _ => True

/-- No clean-up removes a reservation that is held, and the clock has the instants at which reservations
end. -/
def LeavesReservations (s : Racing moka ι) : RaceEvent ι → Prop
  | .operate i => ∀ call, s.calls i = some call →
      (∀ look, call.phase = .cleaning look → ∀ j other, s.calls j = some other → other.phase.holds = false) ∧
      ∀ value ttlSecs, call.kind = .setIfAbsent value ttlSecs → call.phase = .reserving →
        s.now + settings.ttl ttlSecs * second ≤ settings.limit
  | _ => True

end

/-- Of two calls that returned true, one published its value only after the other's had expired. -/
def OneWinner {moka : Moka} {ι : Type} (s : Racing moka ι) : Prop :=
  ∀ i j call other, i ≠ j → s.calls i = some call → s.calls j = some other → call.phase = .ended true →
    other.phase = .ended true →
    ∃ mine ∈ s.published, ∃ theirs ∈ s.published, mine.call = i ∧ theirs.call = j ∧
      (mine.deadline ≤ theirs.publishedAt ∨ theirs.deadline ≤ mine.publishedAt)

/-! ## What a step keeps -/

/-- The invariant of the calls on one key.  A call that holds a reservation has one that ends after the
call does, so no other call holds one; and a call that is about to publish knows that no value is
visible, because only it can publish. -/
structure RaceInv {moka : Moka} {ι : Type} (settings : CacheSettings) (key : Text) (s : Racing moka ι) :
    Prop where
  exact : s.memory.reservations.Exact
  started : ∀ i call, s.calls i = some call → call.startedAt ≤ s.now
  inTime : ∀ i call due, s.calls i = some call → call.phase.isEnded = false →
    call.dueAt settings = some due → s.now < due
  reserved : ∀ i call, s.calls i = some call → call.phase.holds = true → ∃ due expiry,
    call.dueAt settings = some due ∧ s.memory.reservations.entries.lookup key = some expiry ∧ due ≤ expiry
  unique : ∀ i j call other, s.calls i = some call → s.calls j = some other → call.phase.holds = true →
    other.phase.holds = true → i = j
  absent : ∀ i call, s.calls i = some call → call.phase.aboutToPublish = true →
    unexpired s.now (moka.stored s.memory.cache key) = none
  ordered : s.published.Pairwise fun earlier later => earlier.deadline ≤ later.publishedAt
  current : ∀ p ∈ s.published, s.now < p.deadline →
    ∃ value, unexpired s.now (moka.stored s.memory.cache key) = some (value, p.deadline)
  winners : ∀ i call, s.calls i = some call → call.phase.hasPublished = true → ∃ p ∈ s.published, p.call = i

lemma CallPhase.isEnded_of_holds {phase : CallPhase} (h : phase.holds = true) : phase.isEnded = false := by
  cases phase with
  | ended won => cases h
  | _ => rfl

lemma raceInv_initial {m : Moka} {ι : Type} {ss : CacheSettings} {key : Text}
    {s : Racing m ι} (h : s.Initial) : RaceInv ss key s := by
  obtain ⟨hc, hpb, he⟩ := h
  have hnone : ∀ i call, s.calls i ≠ some call := by
    intro i call hcall
    rw [hc] at hcall
    cases hcall
  refine ⟨he, ?_, ?_, ?_, ?_, ?_, ?_, ?_, ?_⟩
  · exact fun i call hcall => absurd hcall (hnone i call)
  · exact fun i call due hcall => absurd hcall (hnone i call)
  · exact fun i call hcall => absurd hcall (hnone i call)
  · exact fun i j call o hcall => absurd hcall (hnone i call)
  · exact fun i call hcall => absurd hcall (hnone i call)
  · rw [hpb]
    exact List.Pairwise.nil
  · rw [hpb]
    exact fun p hp => absurd hp not_mem_nil
  · exact fun i call hcall => absurd hcall (hnone i call)

lemma CallPhase.holds_of_aboutToPublish {phase : CallPhase} (h : phase.aboutToPublish = true) :
    phase.holds = true := by
  cases phase with
  | making => rfl
  | inserting v => rfl
  | _ => cases h

lemma InsertCall.missed_first (call : InsertCall) :
    (call.missed .first).holds = false ∧ (call.missed .first).aboutToPublish = false ∧
      (call.missed .first).hasPublished = false := by
  rw [missed]
  split
  · exact ⟨rfl, rfl, rfl⟩
  · exact ⟨rfl, rfl, rfl⟩

lemma Look.lost_nothing (l : Look) : l.lost.aboutToPublish = false ∧ l.lost.hasPublished = false := by
  cases l with
  | first => exact ⟨rfl, rfl⟩
  | second => exact ⟨rfl, rfl⟩

lemma RaceInv.others_hold_nothing {m : Moka} {ι : Type} {ss : CacheSettings} {key : Text}
    {s : Racing m ι} {i : ι} {call : InsertCall} (h : RaceInv ss key s)
    (hcall : s.calls i = some call) (hh : call.phase.holds = true) :
    ∀ j o, j ≠ i → s.calls j = some o → o.phase.holds = false := by
  intro j o hj ho
  by_contra hother'
  exact hj (h.unique i j call o hcall ho hh (Bool.of_not_eq_false hother')).symm

section

variable {mk : Moka} {ι : Type} [DecidableEq ι] {st : CacheSettings} {key : Text}
  {s : Racing mk ι} {i : ι} {c : InsertCall}

variable {ph : CallPhase}

section

variable (h : RaceInv st key s) (hcl : s.calls i = some c)
include h hcl

/-- **A call goes on without publishing.**  What it leaves may have lost a reservation that nobody
holds. -/
lemma RaceInv.go (ha : c.phase.isEnded = false) {m : MemoryCache mk}
    (he : m.reservations.Exact) (hc : m.cache = s.memory.cache)
    (hkp : ∀ j o, j ≠ i → s.calls j = some o → o.phase.holds = true → ∀ e,
      s.memory.reservations.entries.lookup key = some e → s.now < e →
        m.reservations.entries.lookup key = some e)
    (hr : ph.holds = true → ∃ due e, c.dueAt st = some due ∧
      m.reservations.entries.lookup key = some e ∧ due ≤ e)
    (hu : ph.holds = true → ∀ j o, j ≠ i → s.calls j = some o → o.phase.holds = false)
    (hab : ph.aboutToPublish = true → unexpired s.now (mk.stored s.memory.cache key) = none)
    (hw : ph.hasPublished = true → ∃ p ∈ s.published, p.call = i) :
    RaceInv st key (s.go i c m ph []) where
  exact := he
  started := forall_update (h.started i c hcl) fun j o _ => h.started j o
  inTime j o due ho hnot hd := by
    rcases update_eq_iff.mp ho with ⟨-, ⟨⟩⟩ | ⟨-, ho⟩
    · exact h.inTime i c due hcl ha hd
    · exact h.inTime j o due ho hnot hd
  reserved j o ho hholds := by
    rcases update_eq_iff.mp ho with ⟨-, ⟨⟩⟩ | ⟨hj, ho⟩
    · exact hr hholds
    · obtain ⟨due, e, hd, hl, hle⟩ := h.reserved j o ho hholds
      have hlive : s.now < e := Nat.lt_of_lt_of_le
        (h.inTime j o due ho (CallPhase.isEnded_of_holds hholds) hd) hle
      exact ⟨due, e, hd, hkp j o hj ho hholds e hl hlive, hle⟩
  unique j k o third ho ht hholds hholds' := by
    rcases update_eq_iff.mp ho with ⟨hj, ⟨⟩⟩ | ⟨hj, ho⟩
    · rcases update_eq_iff.mp ht with ⟨hk, -⟩ | ⟨hk, ht⟩
      · exact hj.trans hk.symm
      · rw [hu hholds k third hk ht] at hholds'
        cases hholds'
    · rcases update_eq_iff.mp ht with ⟨hk, ⟨⟩⟩ | ⟨hk, ht⟩
      · rw [hu hholds' j o hj ho] at hholds
        cases hholds
      · exact h.unique j k o third ho ht hholds hholds'
  absent j o ho hphase := by
    show unexpired s.now (mk.stored m.cache key) = none
    rw [hc]
    exact forall_update hab (fun j o _ => h.absent j o) j o ho hphase
  ordered := by
    show (s.published ++ []).Pairwise _
    rw [append_nil]
    exact h.ordered
  current p hp hlive := by
    show ∃ v, unexpired s.now (mk.stored m.cache key) = some (v, p.deadline)
    rw [hc]
    exact h.current p (by simpa [Racing.go] using hp) hlive
  winners j o ho hphase := by
    show ∃ p ∈ s.published ++ [], p.call = j
    rw [append_nil]
    exact forall_update hw (fun j o _ => h.winners j o) j o ho hphase

lemma RaceInv.go_silently (hac : c.phase.isEnded = false) (hh : ph.holds = true → c.phase.holds = true)
    (ha : ph.aboutToPublish = true → unexpired s.now (mk.stored s.memory.cache key) = none)
    (hw : ph.hasPublished = true → ∃ p ∈ s.published, p.call = i) : RaceInv st key (s.go i c s.memory ph []) := by
  refine h.go hcl hac h.exact rfl (fun _ _ _ _ _ _ hl _ => hl) ?_ ?_ ha hw
  · intro hp
    exact h.reserved i c hcl (hh hp)
  · intro hp
    exact h.others_hold_nothing hcl (hh hp)

lemma RaceInv.go_removing (hac : c.phase.isEnded = false)
    (ho : ∀ j o, j ≠ i → s.calls j = some o → o.phase.holds = false)
    (hhl : ph.holds = false) (ha : ph.aboutToPublish = false) (hw : ph.hasPublished = false) :
    RaceInv st key (s.go i c { s.memory with reservations := s.memory.reservations.remove key } ph []) := by
  refine h.go hcl hac (h.exact.remove key) rfl ?_ ?_ ?_ ?_ ?_
  · intro j o hj hot hh
    rw [ho j o hj hot] at hh
    cases hh
  · intro hh
    rw [hhl] at hh
    cases hh
  · intro hh
    rw [hhl] at hh
    cases hh
  · intro hn
    rw [ha] at hn
    cases hn
  · intro hn
    rw [hw] at hn
    cases hn

lemma RaceInv.go_reserving {v : List UInt8} {ts : Option ℕ} (hk : c.kind = .setIfAbsent v ts)
    (hp : c.phase = .reserving) (hc : s.now + st.ttl ts * second ≤ st.limit) :
    RaceInv st key (s.go i c (s.memory.reserveGuarded st s.now key ts).1
      (if (s.memory.reserveGuarded st s.now key ts).2 then .looking .second else .ended false) []) := by
  have hact : c.phase.isEnded = false := by rw [hp]; rfl
  have hexp : expiresAt st.limit s.now (st.ttl ts) = s.now + st.ttl ts * second := expiresAt_of_le hc
  have hl := lookup_reserve h.exact s.now (expiresAt st.limit s.now (st.ttl ts)) key key
  have hexact : (s.memory.reserveGuarded st s.now key ts).1.reservations.Exact :=
    h.exact.reserve _ _ _
  cases hresv : (s.memory.reserveGuarded st s.now key ts).2 with
  | true =>
    have hans : (s.memory.reservations.reserve s.now
        (expiresAt st.limit s.now (st.ttl ts)) key).2 = true := hresv
    have hfree := ((reserve_answer h.exact _ _ _).mp hans).1
    -- a reservation that is held would not have left the key free
    have hnone : ∀ j o, s.calls j = some o → o.phase.holds = false := by
      intro j o ho
      by_contra hh
      rw [Bool.not_eq_false] at hh
      obtain ⟨due, e, hd, hl, hle⟩ := h.reserved j o ho hh
      have hintime := h.inTime j o due ho (CallPhase.isEnded_of_holds hh) hd
      exact absurd (hfree e hl) (Nat.not_le.mpr (Nat.lt_of_lt_of_le hintime hle))
    refine h.go hcl hact hexact rfl ?_ ?_ ?_ ?_ ?_
    · intro j o hj ho hh
      rw [hnone j o ho] at hh
      cases hh
    · intro _
      rw [hans, if_pos ⟨rfl, rfl⟩] at hl
      refine ⟨c.startedAt + st.ttl ts * second, _, ?_, hl, ?_⟩
      · rw [dueAt, hk]
      · rw [hexp]
        exact Nat.add_le_add_right (h.started i c hcl) _
    · exact fun _ j o _ ho => hnone j o ho
    · nofun
    · nofun
  | false =>
    have hans : ¬ ((s.memory.reservations.reserve s.now
        (expiresAt st.limit s.now (st.ttl ts)) key).2 = true ∧ key = key) := by
      rw [not_and]
      intro hy
      have hno : (s.memory.reservations.reserve s.now
        (expiresAt st.limit s.now (st.ttl ts)) key).2 = false := hresv
      rw [hno] at hy
      cases hy
    rw [if_neg hans] at hl
    refine h.go hcl hact hexact rfl ?_ ?_ ?_ ?_ ?_
    · intro j o hj ho hh e hb hlv
      have hkept : (s.memory.reservations.reserve s.now
          (expiresAt st.limit s.now (st.ttl ts)) key).1.entries.lookup key = some e := by
        rw [hl, hb]
        simp [hlv]
      exact hkept
    · nofun
    · nofun
    · nofun
    · nofun

/-- **A call publishes its value.**  Whatever was published before has expired. -/
lemma RaceInv.go_inserting {v : MemoryCacheValue} (hph : c.phase = .inserting v) :
    RaceInv st key (s.go i c (s.memory.insert s.now key v) .committing
      [⟨i, s.now, s.now + expireAfterCreate v s.now⟩]) := by
  have hheld : c.phase.holds = true := by rw [hph]; rfl
  have hact : c.phase.isEnded = false := by rw [hph]; rfl
  have hothers := h.others_hold_nothing hcl hheld
  have hexp : ∀ p ∈ s.published, p.deadline ≤ s.now := by
    intro p hp
    by_contra hl
    obtain ⟨o, hv⟩ := h.current p hp (Nat.lt_of_not_le hl)
    rw [h.absent i c hcl (by rw [hph]; rfl)] at hv
    cases hv
  constructor
  · exact h.exact
  · exact forall_update (h.started i c hcl) fun j o _ => h.started j o
  · intro j o due ho hnt hd
    rcases update_eq_iff.mp ho with ⟨-, ⟨⟩⟩ | ⟨-, ho⟩
    · exact h.inTime i c due hcl hact hd
    · exact h.inTime j o due ho hnt hd
  · exact forall_update (fun _ => h.reserved i c hcl hheld) fun j o _ => h.reserved j o
  · intro j k o th ho ht hh hh'
    rcases update_eq_iff.mp ho with ⟨hj, -⟩ | ⟨hj, ho⟩
    · rcases update_eq_iff.mp ht with ⟨hk, -⟩ | ⟨hk, ht⟩
      · exact hj.trans hk.symm
      · rw [hothers k th hk ht] at hh'
        cases hh'
    · rw [hothers j o hj ho] at hh
      cases hh
  · intro j o ho hn
    rcases update_eq_iff.mp ho with ⟨-, ⟨⟩⟩ | ⟨hj, ho⟩
    · cases hn
    · have hh := CallPhase.holds_of_aboutToPublish hn
      rw [hothers j o hj ho] at hh
      cases hh
  · refine pairwise_append.mpr ⟨h.ordered, pairwise_singleton _ _, ?_⟩
    intro p hp q hq
    rw [mem_singleton] at hq
    rw [hq]
    exact hexp p hp
  · intro p hp hl
    rcases mem_append.mp hp with hp | hp
    · exact absurd (hexp p hp) (Nat.not_le.mpr hl)
    · rw [mem_singleton] at hp
      subst hp
      refine ⟨v, ?_⟩
      show unexpired s.now (mk.stored (mk.insert s.memory.cache s.now key v _) key) = _
      rw [mk.unexpired_insert le_rfl, if_pos rfl]
      exact unexpired_eq_some.mpr ⟨rfl, hl⟩
  · intro j o ho hn
    rcases update_eq_iff.mp ho with ⟨hj, -⟩ | ⟨-, ho⟩
    · exact ⟨_, mem_append_right _ (mem_singleton_self _), hj.symm⟩
    · obtain ⟨p, hp, hpj⟩ := h.winners j o ho hn
      exact ⟨p, mem_append_left _ hp, hpj⟩

end

/-! ## Every step -/

variable {t : Racing mk ι}

lemma RaceInv.operate (h : RaceInv st key s)
    (hf : LeavesReservations st s (.operate i)) (hs : s.next st key (.operate i) = some t) : RaceInv st key t := by
  simp only [Racing.next, bind_eq_some_iff, map_eq_some_iff] at hs
  obtain ⟨c, hcall, ⟨m, ph⟩, hop, rfl⟩ := hs
  obtain ⟨hcl, hc⟩ := hf c hcall
  rw [operate] at hop
  rw [publication]
  have hact : c.phase.isEnded = false := by
    cases hphase : c.phase with
    | ended won => simp [hphase] at hop
    | _ => rfl
  cases hphase : c.phase with
  | looking l =>
    simp only [hphase] at hop
    cases hget : mk.get s.memory.cache s.now key with
    | none =>
      rw [hget] at hop
      cases hop
      have hvis : unexpired s.now (mk.stored s.memory.cache key) = none := by
        rwa [mk.get_eq, map_eq_none_iff] at hget
      cases l with
      | first =>
        obtain ⟨hhl, -, hw⟩ := c.missed_first
        refine h.go_silently hcall hact ?_ (fun _ => hvis) ?_
        · intro hh
          rw [hhl] at hh
          cases hh
        · intro hn
          rw [hw] at hn
          cases hn
      | second =>
        refine h.go_silently hcall hact (fun _ => by rw [hphase]; rfl) (fun _ => hvis) ?_
        intro hn
        cases hn
    | some v =>
      rw [hget] at hop
      cases hop
      refine h.go_silently hcall hact ?_ ?_ ?_
      · rw [hphase]
        exact id
      · nofun
      · nofun
  | found l v =>
    rw [hphase] at hop
    cases hop
    split
    · refine h.go_silently hcall hact ?_ ?_ ?_
      · rw [hphase]
        exact id
      · nofun
      · nofun
    · obtain ⟨ha, hw⟩ := l.lost_nothing
      refine h.go_silently hcall hact ?_ ?_ ?_
      · rw [hphase]
        cases l with
        | first => exact fun hh => by cases hh
        | second => exact fun _ => rfl
      · intro hn
        rw [ha] at hn
        cases hn
      · intro hn
        rw [hw] at hn
        cases hn
  | cleaning l =>
    rw [hphase] at hop
    cases hop
    have hnone := hcl l hphase
    cases l with
    | first =>
      obtain ⟨hhl, ha, hw⟩ := c.missed_first
      exact h.go_removing hcall hact (fun j o _ ho => hnone j o ho) hhl ha hw
    | second =>
      -- the call holds a reservation itself
      have hh := hnone i c hcall
      rw [hphase] at hh
      cases hh
  | reserving =>
    cases hkind : c.kind with
    | get => simp [hphase, hkind] at hop
    | setIfAbsent v ts =>
      rw [hphase, hkind] at hop
      cases hop
      exact h.go_reserving hcall hkind hphase (hc v ts hkind hphase)
  | making =>
    cases hkind : c.kind with
    | get => simp [hphase, hkind] at hop
    | setIfAbsent v ts =>
      rw [hphase, hkind] at hop
      cases hop
      refine h.go_silently hcall hact (fun _ => by rw [hphase]; rfl) ?_ ?_
      · exact fun _ => h.absent i c hcall (by rw [hphase]; rfl)
      · nofun
  | inserting v =>
    rw [hphase] at hop
    cases hop
    exact h.go_inserting hcall hphase
  | committing =>
    rw [hphase] at hop
    cases hop
    refine h.go_silently hcall hact ?_ ?_ ?_
    · nofun
    · nofun
    · exact fun _ => h.winners i c hcall (by rw [hphase]; rfl)
  | releasing =>
    rw [hphase] at hop
    cases hop
    exact h.go_removing hcall hact (h.others_hold_nothing hcall (by rw [hphase]; rfl)) rfl rfl rfl
  | ended won => simp [hphase] at hop

lemma RaceInv.start (h : RaceInv st key s) {kn : CallKind} (htm : InTime st s (.start i kn)) :
    RaceInv st key { s with calls := update s.calls i (some ⟨kn, s.now, .looking .first⟩) } := by
  constructor
  · exact h.exact
  · exact forall_update (Nat.le_refl s.now) fun j o _ => h.started j o
  · intro j o due ho hnt hd
    rcases update_eq_iff.mp ho with ⟨-, ⟨⟩⟩ | ⟨-, ho⟩
    · exact htm due hd
    · exact h.inTime j o due ho hnt hd
  · exact forall_update (fun hh => by cases hh) fun j o _ => h.reserved j o
  · intro j k o th ho ht hh hh'
    rcases update_eq_iff.mp ho with ⟨-, ⟨⟩⟩ | ⟨-, ho⟩
    · cases hh
    · rcases update_eq_iff.mp ht with ⟨-, ⟨⟩⟩ | ⟨-, ht⟩
      · cases hh'
      · exact h.unique j k o th ho ht hh hh'
  · exact forall_update (fun hn => by cases hn) fun j o _ => h.absent j o
  · exact h.ordered
  · exact h.current
  · exact forall_update (fun hn => by cases hn) fun j o _ => h.winners j o

lemma RaceInv.drop (h : RaceInv st key s) (hs : s.next st key (.drop i) = some t) : RaceInv st key t := by
  obtain ⟨c, hcall, hd⟩ := bind_eq_some_iff.mp hs
  split at hd
  · cases hd
  · next hended =>
      have hact : c.phase.isEnded = false := Bool.not_eq_true _ ▸ hended
      split at hd
      · next hh =>
          rw [some.injEq] at hd
          exact hd ▸ h.go_removing hcall hact (h.others_hold_nothing hcall hh) rfl rfl rfl
      · rw [some.injEq] at hd
        refine hd ▸ h.go_silently hcall hact ?_ ?_ ?_
        · nofun
        · nofun
        · nofun

lemma SingleOp.apply_avoids {m : MemoryCache mk} (now : ℕ) (he : m.reservations.Exact)
    {op : SingleOp} (h : op.avoids key = true) :
    (op.apply now m).reservations.Exact ∧ unexpired now (mk.stored (op.apply now m).cache key) =
        unexpired now (mk.stored m.cache key) ∧
      ∀ e, m.reservations.entries.lookup key = some e → now < e →
        (op.apply now m).reservations.entries.lookup key = some e := by
  cases op with
  | insert o v l =>
    have hne : key ≠ o := (bne_iff_ne.mp h).symm
    refine ⟨he, ?_, fun _ hl _ => hl⟩
    rw [SingleOp.apply, mk.unexpired_insert le_rfl, if_neg hne]
  | remove o =>
    have hne : key ≠ o := (bne_iff_ne.mp h).symm
    refine ⟨he, ?_, fun _ hl _ => hl⟩
    rw [SingleOp.apply, mk.unexpired_remove le_rfl, if_neg hne]
  | reserve o ex =>
    have hne : key ≠ o := (bne_iff_ne.mp h).symm
    refine ⟨he.reserve _ _ _, rfl, ?_⟩
    intro e hl hlv
    rw [SingleOp.apply, lookup_reserve he, if_neg (fun h => hne h.2), hl]
    simp [hlv]
  | removeReservation o =>
    have hne : key ≠ o := (bne_iff_ne.mp h).symm
    refine ⟨he.remove o, rfl, ?_⟩
    intro e hl _
    rw [SingleOp.apply, lookup_remove, if_neg hne, hl]
  | invalidateReservations st =>
    have hne : st.isPrefixOf key = false := by simpa [SingleOp.avoids] using h
    refine ⟨he.invalidatePrefix st, rfl, ?_⟩
    intro e hl _
    rw [SingleOp.apply, lookup_invalidatePrefix, hne, hl]
    rfl

omit [DecidableEq ι] in
lemma RaceInv.elsewhere (h : RaceInv st key s) {op : SingleOp} (hop : op.avoids key = true) :
    RaceInv st key { s with memory := op.apply s.now s.memory } := by
  obtain ⟨he, hv, hk⟩ := SingleOp.apply_avoids s.now h.exact hop
  constructor
  · exact he
  · exact h.started
  · exact h.inTime
  · intro j o ho hh
    obtain ⟨due, e, hd, hlk, hle⟩ := h.reserved j o ho hh
    have hl : s.now < e := Nat.lt_of_lt_of_le (h.inTime j o due ho (CallPhase.isEnded_of_holds hh) hd) hle
    exact ⟨due, e, hd, hk e hlk hl, hle⟩
  · exact h.unique
  · intro j o ho hn
    exact hv.trans (h.absent j o ho hn)
  · exact h.ordered
  · intro p hp hl
    obtain ⟨v, hvl⟩ := h.current p hp hl
    exact ⟨v, hv.trans hvl⟩
  · exact h.winners

omit [DecidableEq ι] in
lemma RaceInv.wait (h : RaceInv st key s) {d : ℕ} (ht : InTime st s (.wait d : RaceEvent ι)) :
    RaceInv st key { s with now := s.now + d } := by
  have hlater : s.now ≤ s.now + d := Nat.le_add_right _ _
  constructor
  · exact h.exact
  · exact fun j o ho => (h.started j o ho).trans hlater
  · exact fun j o due ho hn hd => ht j o ho hn due hd
  · exact h.reserved
  · exact h.unique
  · intro j o ho hnw
    show unexpired (s.now + d) _ = none
    rw [← unexpired_later hlater, h.absent j o ho hnw]
    rfl
  · exact h.ordered
  · intro p hp hl
    obtain ⟨v, hv⟩ := h.current p hp (Nat.lt_of_le_of_lt hlater hl)
    refine ⟨v, ?_⟩
    show unexpired (s.now + d) _ = _
    rw [← unexpired_later hlater, hv]
    exact unexpired_eq_some.mpr ⟨rfl, hl⟩
  · exact h.winners

/-- **One step** in time that leaves the reservations that are held. -/
theorem RaceInv.step (h : RaceInv st key s) {e : RaceEvent ι}
    (ht : InTime st s e) (hl : LeavesReservations st s e) (hs : s.Step st key e t) : RaceInv st key t := by
  rw [Racing.Step] at hs
  cases e with
  | start i k =>
    simp only [Racing.next] at hs
    split at hs
    · rw [some.injEq] at hs
      exact hs ▸ h.start ht
    · cases hs
  | operate i => exact h.operate hl hs
  | drop i => exact h.drop hs
  | elsewhere op =>
    simp only [Racing.next] at hs
    split at hs
    · next hop =>
        rw [some.injEq] at hs
        exact hs ▸ h.elsewhere hop
    · cases hs
  | wait d =>
    rw [Racing.next, some.injEq] at hs
    exact hs ▸ h.wait ht

omit [DecidableEq ι] in
lemma RaceInv.oneWinner (h : RaceInv st key s) : OneWinner s := by
  intro i j c o hne hcall ho hw hw'
  obtain ⟨m, hm, hmi⟩ := h.winners i c hcall (by rw [hw]; rfl)
  obtain ⟨th, ht, htj⟩ := h.winners j o ho (by rw [hw']; rfl)
  refine ⟨m, hm, th, ht, hmi, htj, ?_⟩
  have hsymmetric : s.published.Pairwise fun p q =>
      p.deadline ≤ q.publishedAt ∨ q.deadline ≤ p.publishedAt :=
    h.ordered.imp fun hle => .inl hle
  have : Std.Symm fun p q : Publication ι =>
      p.deadline ≤ q.publishedAt ∨ q.deadline ≤ p.publishedAt := ⟨fun p q h => h.symm⟩
  refine hsymmetric.forall hm ht ?_
  rintro rfl
  exact hne (hmi.symm.trans htj)

end

/-- **One winner.**  In a run of calls on one key in which every call takes less time than the time to live
it passes, no clean-up removes a reservation that is held, and the clock has the instants at which
reservations end: of two calls that returned true, one published its value only after the other's had
expired. -/
theorem one_winner {moka : Moka} {ι : Type} [DecidableEq ι] (settings : CacheSettings) (key : Text)
    {s t : Racing moka ι} {events : List (RaceEvent ι)} (hinitial : s.Initial)
    (hrun : Run (Guarded (fun s event => InTime settings s event ∧ LeavesReservations settings s event)
      (Racing.Step settings key)) s events t) : OneWinner t := by
  have hinv : RaceInv settings key t := by
    refine hrun.invariant ?_ (raceInv_initial hinitial)
    intro s event t h hs
    exact h.step hs.1.1 hs.1.2 hs.2
  exact hinv.oneWinner

/-! ## Runs -/

/-- A clock that counts seconds in 64 bits with sign. -/
def raceSettings : CacheSettings := ⟨2 ^ 63 * second - 1, 60⟩

def raceKey : Text := ['n', 'o', 'n', 'c', 'e']

abbrev TableRace := Racing (ExpiringCache.table Text MemoryCacheValue) (Fin 4)

instance {moka : Moka} (s : Racing moka (Fin 4)) : ∀ event, Decidable (InTime raceSettings s event)
  | .start _ kind => inferInstanceAs
      (Decidable (∀ due ∈ InsertCall.dueAt raceSettings ⟨kind, s.now, .looking .first⟩, s.now < due))
  | .wait duration => inferInstanceAs (Decidable (∀ i, ∀ call ∈ s.calls i, call.phase.isEnded = false →
      ∀ due ∈ call.dueAt raceSettings, s.now + duration < due))
  | .operate _ => inferInstanceAs (Decidable True)
  | .drop _ => inferInstanceAs (Decidable True)
  | .elsewhere _ => inferInstanceAs (Decidable True)

def quiet : TableRace where
  now := 0
  memory := .new _
  calls _ := none
  published := []

lemma quiet_initial : quiet.Initial := ⟨fun _ => rfl, rfl, exact_empty⟩

/-- Whether a step leaves the reservations that are held. -/
def leavesReservations (s : TableRace) : RaceEvent (Fin 4) → Bool
  | .operate i => (s.calls i).all fun call =>
    (match call.phase with
      | .cleaning _ => decide (∀ j, ∀ other ∈ s.calls j, other.phase.holds = false)
      | _ => true) &&
    match call.kind with
      | .get => true
      | .setIfAbsent _ ttlSecs => decide (s.now + raceSettings.ttl ttlSecs * second ≤ raceSettings.limit)
  | _ => true

lemma leavesReservations_sound (s : TableRace) (e : RaceEvent (Fin 4)) (h : leavesReservations s e = true) :
    LeavesReservations raceSettings s e := by
  cases e with
  | operate i =>
    intro c hc
    rw [leavesReservations, hc, all_some, Bool.and_eq_true] at h
    refine ⟨fun look hl j o ho => ?_, fun v ts hk _ => ?_⟩
    · rw [hl] at h
      exact of_decide_eq_true h.1 j o ho
    · rw [hk] at h
      exact of_decide_eq_true h.2
  | _ => trivial

/-- A value is published for a second (call 0).  A reader (call 1) finds it, and cleans up once it is expired;
then another insertion (call 2) publishes its value. -/
def oneAfterTheOther : List (RaceEvent (Fin 4)) :=
  [.start 0 (.setIfAbsent [1] (some 1)), .operate 0, .operate 0, .operate 0, .operate 0, .operate 0, .operate 0,
    .start 1 .get, .operate 1, .wait second, .operate 1, .operate 1, .start 2 (.setIfAbsent [2] (some 60)),
    .operate 2, .operate 2, .operate 2, .operate 2, .operate 2, .operate 2]

/-- Two winners, one after the other's value. -/
theorem one_winner_oneAfterTheOther : ∃ t : TableRace, OneWinner t ∧
    t.published = [⟨0, 0, second⟩, ⟨2, second, 61 * second⟩] ∧
    t.calls 0 = some ⟨.setIfAbsent [1] (some 1), 0, .ended true⟩ ∧
    t.calls 2 = some ⟨.setIfAbsent [2] (some 60), second, .ended true⟩ := by
  have hobs : (execute (restricted (fun s e => decide (InTime raceSettings s e) && leavesReservations s e)
      (Racing.next raceSettings raceKey)) quiet oneAfterTheOther).map
        (fun t => (t.published, t.calls 0, t.calls 2)) =
      some ([⟨0, 0, second⟩, ⟨2, second, 61 * second⟩],
        some ⟨.setIfAbsent [1] (some 1), 0, .ended true⟩,
        some ⟨.setIfAbsent [2] (some 60), second, .ended true⟩) := by
    decide +kernel
  obtain ⟨t, he, hsn⟩ := map_eq_some_iff.mp hobs
  simp only [Prod.mk.injEq] at hsn
  refine ⟨t, one_winner raceSettings raceKey quiet_initial (run_of_execute_restricted ?_ he), hsn⟩
  intro s e h
  rw [Bool.and_eq_true] at h
  exact ⟨of_decide_eq_true h.1, leavesReservations_sound s e h.2⟩

/-- A value is published for a second (call 0) and found by a reader (call 1).  After the second, an
insertion (call 2) reserves the key and looks a second time; then the reader cleans up, and another
insertion (call 3) reserves the key too. -/
def lateCleanup : List (RaceEvent (Fin 4)) :=
  [.start 0 (.setIfAbsent [1] (some 1)), .operate 0, .operate 0, .operate 0, .operate 0, .operate 0, .operate 0,
    .start 1 .get, .operate 1, .wait second, .operate 1, .start 2 (.setIfAbsent [2] (some 60)),
    .operate 2, .operate 2, .operate 2, .operate 1, .start 3 (.setIfAbsent [3] (some 60)), .operate 3,
    .operate 3, .operate 3, .operate 2, .operate 2, .operate 2, .operate 3, .operate 3, .operate 3]

/-- Both insertions return true within the same second, each with a value for a minute. -/
theorem one_winner_counterexample :
    ¬ ∀ (moka : Moka) (settings : CacheSettings) (key : Text) (s t : Racing moka (Fin 4))
      (events : List (RaceEvent (Fin 4))), s.Initial →
        Run (Guarded (InTime settings) (Racing.Step settings key)) s events t → OneWinner t := by
  intro h
  have hobs : (execute (restricted (fun s e => decide (InTime raceSettings s e)) (Racing.next raceSettings raceKey))
      quiet lateCleanup).map (fun t => (t.published, t.calls 2, t.calls 3)) =
      some ([⟨0, 0, second⟩, ⟨2, second, 61 * second⟩, ⟨3, second, 61 * second⟩],
        some ⟨.setIfAbsent [2] (some 60), second, .ended true⟩,
        some ⟨.setIfAbsent [3] (some 60), second, .ended true⟩) := by
    decide +kernel
  obtain ⟨t, he, hsn⟩ := map_eq_some_iff.mp hobs
  obtain ⟨hpubl, htwo, hthree⟩ :
      t.published = [⟨0, 0, second⟩, ⟨2, second, 61 * second⟩, ⟨3, second, 61 * second⟩] ∧
      t.calls 2 = some ⟨.setIfAbsent [2] (some 60), second, .ended true⟩ ∧
      t.calls 3 = some ⟨.setIfAbsent [3] (some 60), second, .ended true⟩ := by
    simpa only [Prod.mk.injEq] using hsn
  have hrun : Run (Guarded (InTime raceSettings) (Racing.Step raceSettings raceKey)) quiet lateCleanup t :=
    run_of_execute_restricted (fun s e => of_decide_eq_true) he
  obtain ⟨m, hm, th, ht, hmi, htj, hex⟩ :=
    h _ _ _ _ _ _ quiet_initial hrun 2 3 _ _ (by decide) htwo hthree rfl rfl
  rw [hpubl] at hm ht
  revert m th
  decide

end AsterForge.Cache
