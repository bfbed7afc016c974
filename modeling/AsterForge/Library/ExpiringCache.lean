import AsterForge.Library.Containers

/-!
# Caches with a deadline for each entry

A cache that gives every entry a lifetime of its own when it is inserted, hides the entry from the
instant the lifetime is over, and drops nothing earlier.  When an entry that is hidden is dropped for
good is up to the cache: it may be gone after any operation, and until then a removal may still hand
it out.

* **`ExpiringCache.unexpired_insert`**, **`ExpiringCache.unexpired_remove`** — what is visible, then and
  later, after an insertion and after a removal.
-/

namespace AsterForge.Library

open Function Option

variable {κ ν : Type}

def unexpired (now : ℕ) (entry : Option (ν × ℕ)) : Option (ν × ℕ) :=
  entry.filter fun entry => now < entry.2

variable {entry : Option (ν × ℕ)} {found : ν × ℕ}

lemma unexpired_eq_some {now : ℕ} :
    unexpired now entry = some found ↔ entry = some found ∧ now < found.2 := by
  simp [unexpired, filter_eq_some_iff]

lemma unexpired_eq_none {now : ℕ} :
    unexpired now entry = none ↔ ∀ found, entry = some found → found.2 ≤ now := by
  simp [unexpired, filter_eq_none_iff]

@[simp] lemma unexpired_none (now : ℕ) : unexpired now (none : Option (ν × ℕ)) = none := rfl

lemma unexpired_later {now later : ℕ} (h : now ≤ later) (e : Option (ν × ℕ)) :
    unexpired later (unexpired now e) = unexpired later e := by
  ext found
  simp only [unexpired_eq_some]
  constructor
  · rintro ⟨⟨he, -⟩, hl⟩
    exact ⟨he, hl⟩
  · rintro ⟨he, hl⟩
    exact ⟨⟨he, Nat.lt_of_le_of_lt h hl⟩, hl⟩

def ForgetsExpired (now : ℕ) (before after : κ → Option (ν × ℕ)) : Prop :=
  ∀ key, after key = before key ∨ (after key = none ∧ unexpired now (before key) = none)

variable {b a : κ → Option (ν × ℕ)}

lemma ForgetsExpired.unexpired_eq {now later : ℕ} (h : ForgetsExpired now b a) (hl : now ≤ later) (key : κ) :
    unexpired later (a key) = unexpired later (b key) := by
  rcases h key with hs | ⟨hg, he⟩
  · rw [hs]
  · rw [hg, ← unexpired_later hl (b key), he]

lemma ForgetsExpired.eq_of_some {now : ℕ} (h : ForgetsExpired now b a) {key : κ}
    (hf : a key = some found) : b key = some found := by
  rcases h key with hs | ⟨hg, -⟩
  · rw [← hs, hf]
  · rw [hg] at hf
    cases hf

/-- A cache with a deadline for each entry: its operations, with the instants they are called at, and
what a user relies on. -/
structure ExpiringCache (κ ν : Type) [DecidableEq κ] where
  State : Type
  /-- The entries that are kept, with their deadlines. -/
  stored : State → κ → Option (ν × ℕ)
  empty : State
  get : State → ℕ → κ → Option ν
  insert : State → ℕ → κ → ν → ℕ → State
  remove : State → ℕ → κ → State × Option ν
  keys : State → ℕ → List κ
  stored_empty : ∀ key, stored empty key = none
  /-- An entry is found exactly until its deadline. -/
  get_eq : ∀ state now key, get state now key = (unexpired now (stored state key)).map Prod.fst
  /-- The lifetime of an entry starts with its insertion. -/
  stored_insert : ∀ state now key value lifetime,
    ForgetsExpired now (update (stored state) key (some (value, now + lifetime)))
      (stored (insert state now key value lifetime))
  stored_remove : ∀ state now key,
    ForgetsExpired now (update (stored state) key none) (stored (remove state now key).1)
  /-- A removal hands out the entry; whether it does so for one that is expired is left open. -/
  removed : ∀ state now key, (remove state now key).2 = (stored state key).map Prod.fst ∨
    ((remove state now key).2 = none ∧ unexpired now (stored state key) = none)
  /-- Iteration visits what can be found. -/
  mem_keys : ∀ state now key, key ∈ keys state now ↔ unexpired now (stored state key) ≠ none

namespace ExpiringCache

variable [DecidableEq κ] (c : ExpiringCache κ ν) {s : c.State} {now lr : ℕ} {key : κ}

/-- What is visible after an insertion. -/
theorem unexpired_insert (h : now ≤ lr) (v : ν) (l : ℕ) (o : κ) :
    unexpired lr (c.stored (c.insert s now key v l) o) = if o = key then unexpired lr (some (v, now + l))
      else unexpired lr (c.stored s o) := by
  rw [(c.stored_insert s now key v l).unexpired_eq h]
  split
  · next hkey => rw [hkey, update_self]
  · next hkey => rw [update_of_ne hkey]

/-- What is visible after a removal. -/
theorem unexpired_remove (h : now ≤ lr) (o : κ) : unexpired lr (c.stored (c.remove s now key).1 o) =
    if o = key then none else unexpired lr (c.stored s o) := by
  rw [(c.stored_remove s now key).unexpired_eq h]
  split
  · next hkey => rw [hkey, update_self, unexpired_none]
  · next hkey => rw [update_of_ne hkey]

variable {other : κ} {found : ν × ℕ}

lemma of_stored_insert {v : ν} {l : ℕ} (h : c.stored (c.insert s now key v l) other = some found) :
    (other = key ∧ found = (v, now + l)) ∨ c.stored s other = some found := by
  have hbef := (c.stored_insert s now key v l).eq_of_some h
  by_cases hkey : other = key
  · rw [hkey, update_self, some.injEq] at hbef
    exact .inl ⟨hkey, hbef.symm⟩
  · rw [update_of_ne hkey] at hbef
    exact .inr hbef

lemma of_stored_remove (h : c.stored (c.remove s now key).1 other = some found) :
    c.stored s other = some found := by
  have hbef := (c.stored_remove s now key).eq_of_some h
  by_cases hkey : other = key
  · rw [hkey, update_self] at hbef
    cases hbef
  · rwa [update_of_ne hkey] at hbef

def table (κ ν : Type) [DecidableEq κ] : ExpiringCache κ ν where
  State := AList fun _ : κ => ν × ℕ
  stored entries key := entries.lookup key
  empty := ∅
  get entries now key := (unexpired now (entries.lookup key)).map Prod.fst
  insert entries now key value lifetime := entries.insert key (value, now + lifetime)
  remove entries _ key := (entries.erase key, (entries.lookup key).map Prod.fst)
  keys entries now := entries.keys.filter fun key => (unexpired now (entries.lookup key)).isSome
  stored_empty key := AList.lookup_empty key
  get_eq _ _ _ := rfl
  stored_insert entries now key value lifetime other := by
    refine .inl ?_
    simp only [lookup_insert_eq, update_apply]
  stored_remove entries now key other := by
    refine .inl ?_
    simp only [lookup_erase_eq, update_apply]
  removed _ _ _ := .inl rfl
  mem_keys entries now key := by
    rw [List.mem_filter, ← isSome_iff_ne_none]
    refine and_iff_right_of_imp ?_
    intro hsome
    obtain ⟨found, hfound⟩ := isSome_iff_exists.mp hsome
    have hentry := (unexpired_eq_some.mp hfound).1
    exact AList.lookup_isSome.mp (by rw [hentry]; rfl)

end ExpiringCache

end AsterForge.Library
