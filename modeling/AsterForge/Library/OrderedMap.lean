import Mathlib.Data.Char
import Mathlib.Data.List.Lex
import Mathlib.Data.List.Pairwise
import Mathlib.Order.Lattice

/-!
# Ordered maps

A map that is iterated in the order of its keys is kept as the list of its entries, with strictly
increasing keys.  The order is a field, so every operation hands out a map that has it.
-/

namespace AsterForge.Library

variable {κ ν : Type*} [LinearOrder κ]

def insertEntry (key : κ) (value : ν) : List (κ × ν) → List (κ × ν)
  | [] => [(key, value)]
  | entry :: entries =>
    if key < entry.1 then (key, value) :: entry :: entries
    else if key = entry.1 then (key, value) :: entries
    else entry :: insertEntry key value entries

lemma mem_insertEntry {key : κ} {v : ν} {en : κ × ν} {e : List (κ × ν)}
    (h : en ∈ insertEntry key v e) : en = (key, v) ∨ en ∈ e := by
  induction e with
  | nil => exact .inl (List.mem_singleton.mp h)
  | cons first e ih =>
    rw [insertEntry] at h
    split at h
    · exact List.mem_cons.mp h
    · split at h
      · exact (List.mem_cons.mp h).imp id (List.mem_cons_of_mem _)
      · rcases List.mem_cons.mp h with rfl | h
        · exact .inr List.mem_cons_self
        · exact (ih h).imp id (List.mem_cons_of_mem _)

lemma sorted_insertEntry (key : κ) (v : ν) {e : List (κ × ν)} (h : e.Pairwise fun left right => left.1 < right.1) :
    (insertEntry key v e).Pairwise fun left right => left.1 < right.1 := by
  induction h with
  | nil => exact List.pairwise_singleton _ _
  | @cons first e hf he ih =>
    rw [insertEntry]
    split
    case isTrue hless =>
      refine List.pairwise_cons.mpr ⟨?_, List.pairwise_cons.mpr ⟨hf, he⟩⟩
      intro en hm
      rcases List.mem_cons.mp hm with rfl | hm
      · exact hless
      · exact hless.trans (hf en hm)
    case isFalse hless =>
      split
      case isTrue hsame =>
        subst hsame
        exact List.pairwise_cons.mpr ⟨hf, he⟩
      case isFalse hsame =>
        refine List.pairwise_cons.mpr ⟨?_, ih⟩
        intro en hm
        rcases mem_insertEntry hm with rfl | hm
        · exact lt_of_le_of_ne (not_lt.mp hless) (Ne.symm hsame)
        · exact hf en hm

structure OrderedMap (κ ν : Type*) [LinearOrder κ] where
  entries : List (κ × ν)
  /-- Every key has one entry, and iteration visits them in order. -/
  sorted : entries.Pairwise fun left right => left.1 < right.1

open List Option

namespace OrderedMap

variable (map : OrderedMap κ ν)

def empty : OrderedMap κ ν := ⟨[], .nil⟩

def lookup (key : κ) : Option ν := (map.entries.find? fun entry => entry.1 = key).map Prod.snd

def insert (key : κ) (value : ν) : OrderedMap κ ν :=
  ⟨insertEntry key value map.entries, sorted_insertEntry key value map.sorted⟩

/-- The value is taken where the key has none. -/
def orInsert (key : κ) (value : ν) : OrderedMap κ ν :=
  if (map.lookup key).isSome then map else map.insert key value

variable {map} {key k : κ} {value v : ν}

lemma lookup_insert : (map.insert key value).lookup k = if k = key then some value else map.lookup k := by
  have hfind : ∀ e : List (κ × ν), ((insertEntry key value e).find? (·.1 = k)).map Prod.snd =
      if k = key then some value else (e.find? (·.1 = k)).map Prod.snd := by
    intro e
    induction e with
    | nil => by_cases hk : key = k <;> simp [insertEntry, hk, eq_comm]
    | cons first e ih =>
      rw [insertEntry]
      rcases lt_trichotomy key first.1 with hlt | hsame | hgt
      · rw [if_pos hlt]
        by_cases hk : key = k
        · simp [hk]
        · simp [find?_cons_of_neg (l := first :: e), hk, Ne.symm hk]
      · rw [if_neg hsame.not_lt, if_pos hsame, find?_cons, find?_cons, ← hsame]
        by_cases hk : key = k
        · simp [hk]
        · simp [hk, Ne.symm hk]
      · rw [if_neg hgt.asymm, if_neg hgt.ne', find?_cons, find?_cons]
        by_cases hk : first.1 = k
        · simp [hk, (hk ▸ hgt.ne : k ≠ key)]
        · simpa [hk] using ih
  exact hfind map.entries

lemma lookup_orInsert : (map.orInsert key value).lookup k =
    (map.lookup k).or (if k = key then some value else none) := by
  unfold orInsert
  split_ifs with hkey hk hk
  · rw [← hk] at hkey
    rw [or_of_isSome hkey]
  · rw [or_none]
  · rw [lookup_insert, if_pos hk, hk, not_isSome_iff_eq_none.mp hkey, none_or]
  · rw [lookup_insert, if_neg hk, or_none]

lemma mem_entries : (k, value) ∈ map.entries ↔ map.lookup k = some value := by
  have hfind : ∀ {e : List (κ × ν)}, (e.Pairwise fun left right => left.1 < right.1) →
      ((k, value) ∈ e ↔ (e.find? (·.1 = k)).map Prod.snd = some value) := by
    intro e he
    induction he with
    | nil => simp
    | @cons first e hf _ ih =>
      rw [mem_cons, ih, find?_cons]
      by_cases hk : first.1 = k
      · have hnone : e.find? (·.1 = k) = none :=
          find?_eq_none.mpr fun en hen => by simpa [← hk] using (hf en hen).ne'
        rw [hnone, decide_eq_true hk, Prod.ext_iff]
        simp [hk, eq_comm]
      · have hne : (k, value) ≠ first := fun h => hk (h ▸ rfl)
        simp [hk, hne]
  exact hfind map.sorted

lemma eq_of_lookup {other : OrderedMap κ ν} (h : ∀ k, map.lookup k = other.lookup k) : map = other := by
  have hnodup (m : OrderedMap κ ν) : m.entries.Nodup := m.sorted.imp fun hlt h => hlt.ne (congrArg _ h)
  have hperm : map.entries ~ other.entries := by
    refine (perm_ext_iff_of_nodup (hnodup map) (hnodup other)).mpr fun ⟨k, v⟩ => ?_
    rw [mem_entries, mem_entries, h]
  have heq : map.entries = other.entries :=
    hperm.eq_of_pairwise (fun a b _ _ hab hba => absurd hba hab.asymm) map.sorted other.sorted
  cases map
  cases other
  simpa using heq

end OrderedMap

end AsterForge.Library
