import AsterForge.Library.Containers
import AsterForge.Library.Text
import AsterForge.Library.Time
import Mathlib.Data.Char
import Mathlib.Data.List.Lex
import Mathlib.Data.Prod.Lex

/-!
# The reservation set

A caller that inserts a value only if its key is absent reserves the key first.  Reservations have a
deadline of their own and are bounded in number; the set keeps them under their keys and, beside that,
in the order of their deadlines.

* **`lookup_expire`** — what is left by `expire`, and **`reserve_answer`** — what `reserve` answers.
* **`reservation_indices_agree`** — the keys and the deadlines agree after whatever calls.
-/

namespace AsterForge.Cache

open Library List

/-! ## Instants -/

/-- Addition on a clock with a last instant. -/
def checkedAdd (limit now duration : ℕ) : Option ℕ :=
  if now + duration ≤ limit then some (now + duration) else none

/-- The instant `ttlSecs` seconds from now.  An instant that the clock does not have is replaced by now. -/
def expiresAt (limit now ttlSecs : ℕ) : ℕ := (checkedAdd limit now (ttlSecs * second)).getD now

lemma expiresAt_of_le {l now ts : ℕ} (h : now + ts * second ≤ l) : expiresAt l now ts = now + ts * second := by
  rw [expiresAt, checkedAdd, if_pos h, Option.getD_some]

lemma expiresAt_of_lt {l now ts : ℕ} (h : l < now + ts * second) : expiresAt l now ts = now := by
  rw [expiresAt, checkedAdd, if_neg (Nat.not_le.mpr h), Option.getD_none]

/-! ## The set -/

def reservationMaxEntries : ℕ := 64 * 1024

structure ReservationState where
  entries : AList fun _ : Text => ℕ
  expirations : OrderedSet (ℕ ×ₗ Text)

namespace ReservationState

variable (self : ReservationState)

def empty : ReservationState := ⟨∅, OrderedSet.empty⟩

def remove (key : Text) : ReservationState :=
  match self.entries.lookup key with
  | none => self
  | some expiry => ⟨self.entries.erase key, self.expirations.erase (toLex (expiry, key))⟩

/-- The deadline has come. -/
def due (now : ℕ) (expiration : ℕ ×ₗ Text) : Bool := decide ((ofLex expiration).1 ≤ now)

/-- Pops the first expirations as long as they are due, and removes their keys. -/
def expire (now : ℕ) : ReservationState where
  entries := (self.expirations.toList.takeWhile (due now)).foldl
    (fun entries expiration => entries.erase (ofLex expiration).2) self.entries
  expirations :=
    ⟨self.expirations.toList.dropWhile (due now), self.expirations.sorted.sublist (dropWhile_sublist _)⟩

def reserve (now expires : ℕ) (key : Text) : ReservationState × Bool :=
  let state := self.expire now
  if (state.entries.lookup key).isSome || reservationMaxEntries ≤ mapSize state.entries then
    (state, false)
  else
    (⟨state.entries.insert key expires, state.expirations.insert (toLex (expires, key))⟩, true)

def invalidatePrefix (start : Text) : ReservationState :=
  (self.entries.keys.filter fun key => start.isPrefixOf key).foldl remove self

/-! ## The two indices -/

/-- The reservations in the order of their deadlines are those under their keys. -/
def Exact : Prop :=
  ∀ expiry key, toLex (expiry, key) ∈ self.expirations ↔ self.entries.lookup key = some expiry

variable {self}

lemma exact_empty : empty.Exact := by
  intro e key
  simp [empty]

lemma remove_of_none {key : Text} (h : self.entries.lookup key = none) : self.remove key = self := by
  simp only [remove, h]

lemma remove_of_some {key : Text} {e : ℕ} (h : self.entries.lookup key = some e) :
    self.remove key = ⟨self.entries.erase key, self.expirations.erase (toLex (e, key))⟩ := by
  simp only [remove, h]

lemma lookup_remove (key o : Text) : (self.remove key).entries.lookup o =
    if o = key then none else self.entries.lookup o := by
  cases hlook : self.entries.lookup key with
  | none =>
    rw [remove_of_none hlook]
    split
    · next hkey => rw [hkey, hlook]
    · rfl
  | some e =>
    rw [remove_of_some hlook]
    exact lookup_erase_eq _ _ _

lemma Exact.remove (h : self.Exact) (key : Text) : (self.remove key).Exact := by
  cases hlook : self.entries.lookup key with
  | none =>
    rw [remove_of_none hlook]
    exact h
  | some d =>
    intro e o
    rw [remove_of_some hlook]
    simp only [OrderedSet.mem_erase, h e o, ne_eq, EmbeddingLike.apply_eq_iff_eq, Prod.mk.injEq, not_and]
    by_cases hkey : o = key
    · subst hkey
      simp [hlook, eq_comm]
    · simp [hkey]

lemma due_pairwise (now : ℕ) :
    self.expirations.toList.Pairwise fun first l => due now l = true → due now first = true := by
  refine self.expirations.sorted.imp ?_
  intro first l hlt hd
  have hle : (ofLex first).1 ≤ (ofLex l).1 := Prod.Lex.monotone_fst _ _ hlt.le
  simp only [due, decide_eq_true_eq] at hd ⊢
  exact hle.trans hd

lemma lookup_foldl_erase (ex : List (ℕ ×ₗ Text)) (en : AList fun _ : Text => ℕ) (key : Text) :
    (ex.foldl (fun en e => en.erase (ofLex e).2) en).lookup
        key = if ∃ e ∈ ex, (ofLex e).2 = key then none
          else en.lookup key := by
  induction ex generalizing en with
  | nil => simp
  | cons e ex ih =>
    rw [foldl_cons, ih]
    by_cases hlater : ∃ e ∈ ex, (ofLex e).2 = key
    · rw [if_pos hlater, if_pos]
      obtain ⟨l, hm, hk⟩ := hlater
      exact ⟨l, mem_cons_of_mem _ hm, hk⟩
    · rw [if_neg hlater, lookup_erase_eq]
      by_cases hk : key = (ofLex e).2
      · rw [if_pos hk, if_pos]
        exact ⟨e, mem_cons_self, hk.symm⟩
      · rw [if_neg hk, if_neg]
        rintro ⟨o, hm, ho⟩
        rcases mem_cons.mp hm with rfl | hm
        · exact hk ho.symm
        · exact hlater ⟨o, hm, ho⟩

/-- **Expiry**: the reservations that are due are gone, and the others stay. -/
theorem lookup_expire (h : self.Exact) (now : ℕ) (key : Text) :
    (self.expire now).entries.lookup key = (self.entries.lookup key).filter fun e => now < e := by
  have hd : (∃ ex ∈ self.expirations.toList.takeWhile (due now),
      (ofLex ex).2 = key) ↔ ∃ e, self.entries.lookup key = some e ∧ e ≤ now := by
    constructor
    · rintro ⟨ex, hm, hk⟩
      obtain ⟨hm, hd⟩ := (mem_takeWhile_of_pairwise (due_pairwise now)).mp hm
      subst hk
      exact ⟨(ofLex ex).1, (h _ _).mp hm, by simpa [due] using hd⟩
    · rintro ⟨e, hl, he⟩
      refine ⟨toLex (e, key), (mem_takeWhile_of_pairwise (due_pairwise now)).mpr ⟨?_, ?_⟩, rfl⟩
      · exact (h _ _).mpr hl
      · exact decide_eq_true he
  rw [expire, lookup_foldl_erase]
  simp only [hd]
  cases hl : self.entries.lookup key with
  | none => simp
  | some e =>
    by_cases he : e ≤ now
    · simp [he, Option.filter]
    · have hlive : now < e := Nat.lt_of_not_le he
      simp [he, hlive, Option.filter]

lemma Exact.expire (h : self.Exact) (now : ℕ) : (self.expire now).Exact := by
  intro e key
  rw [lookup_expire h, Option.filter_eq_some_iff, ← h e key, decide_eq_true_eq]
  have hmem := mem_dropWhile_of_pairwise (a := toLex (e, key)) (self.due_pairwise now)
  have hdue : due now (toLex (e, key)) = false ↔ now < e := by
    rw [due, decide_eq_false_iff_not]
    exact Nat.not_le
  rw [hdue] at hmem
  exact hmem

/-! ## Reserving -/

def Free (self : ReservationState) (now : ℕ) (key : Text) : Prop :=
  ∀ expiry, self.entries.lookup key = some expiry → expiry ≤ now

lemma lookup_expire_isSome (h : self.Exact) (now : ℕ) (key : Text) :
    ((self.expire now).entries.lookup key).isSome = false ↔ self.Free now key := by
  rw [lookup_expire h, Option.isSome_eq_false_iff, Option.isNone_iff_eq_none]
  simp [Free]

/-- What `reserve` answers. -/
theorem reserve_answer (h : self.Exact) (now e : ℕ) (key : Text) : (self.reserve now e key).2 = true ↔
    self.Free now key ∧ mapSize (self.expire now).entries < reservationMaxEntries := by
  rw [← lookup_expire_isSome h, reserve]
  cases hlook : ((self.expire now).entries.lookup key).isSome with
  | true => simp
  | false =>
    by_cases hfull : reservationMaxEntries ≤ mapSize (self.expire now).entries
    · simp [hfull]
    · have hroom : mapSize (self.expire now).entries < reservationMaxEntries :=
        Nat.lt_of_not_le hfull
      simp [hroom, Nat.not_le.mpr hroom]

/-- And what it leaves: the key is reserved if the answer is yes, and what is due is gone. -/
theorem lookup_reserve (h : self.Exact) (now e : ℕ) (key o : Text) :
    (self.reserve now e key).1.entries.lookup o = if (self.reserve now e key).2 = true ∧ o = key then some e
      else (self.entries.lookup o).filter fun ex => now < ex := by
  rw [← lookup_expire h, reserve]
  split
  · simp
  · simp [lookup_insert_eq]

lemma Exact.reserve (h : self.Exact) (now e : ℕ) (key : Text) : (self.reserve now e key).1.Exact := by
  rw [ReservationState.reserve]
  split
  · exact h.expire now
  · next hfree =>
      intro ex o
      rw [lookup_insert_eq, OrderedSet.mem_insert, h.expire now ex o, EmbeddingLike.apply_eq_iff_eq]
      have hnone : (self.expire now).entries.lookup key = none := by
        simp only [Bool.or_eq_true, not_or, Bool.not_eq_true, Option.isSome_eq_false_iff,
          Option.isNone_iff_eq_none] at hfree
        exact hfree.1
      split
      · next hkey =>
          rw [hkey, hnone]
          simp [eq_comm]
      · next hkey => simp [hkey]

/-! ## Invalidation -/

lemma lookup_foldl_remove (k : List Text) (o : Text) : (k.foldl remove self).entries.lookup o =
    if o ∈ k then none else self.entries.lookup o := by
  induction k generalizing self with
  | nil => simp
  | cons key k ih =>
    rw [foldl_cons, ih, lookup_remove]
    by_cases hkeys : o ∈ k
    · simp [hkeys]
    · simp [hkeys]

lemma Exact.invalidatePrefix (h : self.Exact) (s : Text) : (self.invalidatePrefix s).Exact := by
  unfold ReservationState.invalidatePrefix
  generalize (self.entries.keys.filter fun key => s.isPrefixOf key) = k
  induction k generalizing self with
  | nil => exact h
  | cons key k ih => exact ih (h.remove key)

/-- **Invalidation** removes the reservations of the keys with the prefix. -/
theorem lookup_invalidatePrefix (s o : Text) : (self.invalidatePrefix s).entries.lookup o =
    if s.isPrefixOf o then none else self.entries.lookup o := by
  rw [ReservationState.invalidatePrefix, lookup_foldl_remove]
  cases hlook : self.entries.lookup o with
  | none => simp
  | some e =>
    have hmem : o ∈ self.entries.keys := AList.lookup_isSome.mp (by rw [hlook]; rfl)
    simp [hmem]

end ReservationState

/-! ## A set in use -/

/-- What callers do with the set, and at which instant. -/
inductive ReservationCall
  | reserve (now : ℕ) (key : Text) (ttlSecs : Option ℕ)
  | reserveGuarded (now : ℕ) (key : Text) (ttlSecs : Option ℕ)
  | commit (guard : ℕ)
  | drop (guard : ℕ)
  | remove (key : Text)
  | invalidatePrefix (start : Text)

/-- The set, and the keys of the guards that callers hold. -/
structure ReservationUse where
  state : ReservationState
  guards : List Text

namespace ReservationUse

variable (limit defaultTtl : ℕ)

def next (use : ReservationUse) : ReservationCall → ReservationUse
  | .reserve now key ttlSecs =>
    { use with state := (use.state.reserve now (expiresAt limit now (ttlSecs.getD defaultTtl)) key).1 }
  | .reserveGuarded now key ttlSecs =>
    let (state, reserved) := use.state.reserve now (expiresAt limit now (ttlSecs.getD defaultTtl)) key
    ⟨state, if reserved then key :: use.guards else use.guards⟩
  | .commit guard => { use with guards := use.guards.eraseIdx guard }
  | .drop guard =>
    -- the guard removes its key, whoever reserved it last
    ⟨use.guards[guard]?.elim use.state use.state.remove, use.guards.eraseIdx guard⟩
  | .remove key => { use with state := use.state.remove key }
  | .invalidatePrefix start => { use with state := use.state.invalidatePrefix start }

end ReservationUse

namespace ReservationState

variable {self : ReservationState}

/-- What is left by `expire` are the entries whose deadline is later. -/
lemma mapSize_expire (h : self.Exact) (now : ℕ) :
    mapSize (self.expire now).entries = self.entries.entries.countP fun entry => now < entry.2 := by
  have hlive := self.entries.nodupKeys.sublist (filter_sublist (p := fun entry => now < entry.2))
  rw [countP_eq_length_filter]
  refine (lookup_ext (self.expire now).entries.nodupKeys hlive fun key e => ?_).length_eq
  rw [mem_dlookup_iff hlive, mem_filter, ← mem_dlookup_iff self.entries.nodupKeys]
  show e ∈ (self.expire now).entries.lookup key ↔ _
  rw [lookup_expire h, Option.mem_filter_iff]
  rfl

/-- The two indices agree, and there are no more entries than the set may have. -/
structure Sound (state : ReservationState) : Prop where
  exact : state.Exact
  bounded : mapSize state.entries ≤ reservationMaxEntries

lemma Sound.remove (h : self.Sound) (key : Text) : (self.remove key).Sound := by
  refine ⟨h.exact.remove key, ?_⟩
  cases hlook : self.entries.lookup key with
  | none => exact (remove_of_none hlook).symm ▸ h.bounded
  | some e =>
    rw [remove_of_some hlook]
    exact (mapSize_erase_le _ key).trans h.bounded

lemma Sound.invalidatePrefix (h : self.Sound) (s : Text) : (self.invalidatePrefix s).Sound := by
  unfold ReservationState.invalidatePrefix
  induction self.entries.keys.filter fun key => s.isPrefixOf key generalizing self with
  | nil => exact h
  | cons key k ih => exact ih (h.remove key)

lemma Sound.reserve (h : self.Sound) (now e : ℕ) (key : Text) : (self.reserve now e key).1.Sound := by
  refine ⟨h.exact.reserve now e key, ?_⟩
  have hle : mapSize (self.expire now).entries ≤ reservationMaxEntries := by
    rw [mapSize_expire h.exact]
    exact countP_le_length.trans h.bounded
  rw [ReservationState.reserve]
  split
  · exact hle
  · next hfree =>
      simp only [Bool.or_eq_true, decide_eq_true_eq, not_or, Bool.not_eq_true, Option.isSome_eq_false_iff,
        Option.isNone_iff_eq_none, not_le] at hfree
      show mapSize ((self.expire now).entries.insert key e) ≤ _
      rw [mapSize_insert e hfree.1]
      exact hfree.2

end ReservationState

/-- One call keeps the set sound. -/
lemma ReservationUse.sound_next {limit defaultTtl : ℕ} {use : ReservationUse} (h : use.state.Sound)
    (call : ReservationCall) : (use.next limit defaultTtl call).state.Sound := by
  cases call with
  | reserve now key ttlSecs | reserveGuarded now key ttlSecs => exact h.reserve _ _ _
  | commit guard => exact h
  | drop guard =>
    show (use.guards[guard]?.elim use.state use.state.remove).Sound
    cases use.guards[guard]? with
    | none => exact h
    | some key => exact h.remove key
  | remove key => exact h.remove key
  | invalidatePrefix start => exact h.invalidatePrefix start

/-- **The two indices agree and stay bounded**, after all calls at whatever instants; and a key is reserved
exactly where no entry of it has a later deadline and there is room among the entries that have one. -/
theorem reservation_indices_agree (limit defaultTtl : ℕ) (calls : List ReservationCall) :
    let state := (calls.foldl (ReservationUse.next limit defaultTtl) ⟨.empty, []⟩).state
    (∀ expiry key, toLex (expiry, key) ∈ state.expirations ↔ state.entries.lookup key = some expiry) ∧
      mapSize state.entries ≤ reservationMaxEntries ∧
      ∀ now key ttlSecs, (state.reserve now (expiresAt limit now ttlSecs) key).2 = true ↔
        (∀ expiry, state.entries.lookup key = some expiry → ¬ now < expiry) ∧
          (state.entries.entries.countP fun entry => now < entry.2) < reservationMaxEntries := by
  have hrun : ∀ (calls : List ReservationCall) (use : ReservationUse), use.state.Sound →
      (calls.foldl (ReservationUse.next limit defaultTtl) use).state.Sound := by
    intro calls
    induction calls with
    | nil => exact fun use h => h
    | cons call calls ih => exact fun use h => ih _ (ReservationUse.sound_next h call)
  intro state
  have h : state.Sound := hrun calls _ ⟨ReservationState.exact_empty, Nat.zero_le _⟩
  refine ⟨h.exact, h.bounded, fun now key ttlSecs => ?_⟩
  rw [ReservationState.reserve_answer h.exact, ReservationState.mapSize_expire h.exact]
  simp [ReservationState.Free]

end AsterForge.Cache
