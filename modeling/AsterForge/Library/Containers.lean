import Mathlib.Data.List.Sort
import Mathlib.Data.List.AList

/-!
# Ordered sets and counted maps

Two containers of the modelled programs, with the few facts their proofs rest on.

* `OrderedSet` — a set kept as the strictly increasing list of its elements, so that iterating it
  visits them in order.  The order is a field, so every operation hands out a set that has it.
* `AList` — a hash map is modelled by Mathlib's association list.  What is added here is how an
  entry is found, and how many there are, after an update.
-/

namespace AsterForge.Library

open List

/-! ## Ordered sets -/

structure OrderedSet (α : Type*) [LinearOrder α] where
  /-- The elements in iteration order. -/
  toList : List α
  /-- Iteration visits every element once, in increasing order. -/
  sorted : toList.Pairwise (· < ·)

namespace OrderedSet

variable {α : Type*} [LinearOrder α]

instance : Membership α (OrderedSet α) := ⟨fun s a => a ∈ s.toList⟩

instance (s : OrderedSet α) (a : α) : Decidable (a ∈ s) := inferInstanceAs (Decidable (a ∈ s.toList))

variable {s : OrderedSet α} {a : α}

def empty : OrderedSet α := ⟨[], .nil⟩

@[simp] lemma not_mem_empty : a ∉ (empty : OrderedSet α) := not_mem_nil

lemma nodup (s : OrderedSet α) : s.toList.Nodup :=
  s.sorted.imp fun h => h.ne

/-- The number of elements. -/
def size (s : OrderedSet α) : ℕ := s.toList.length

lemma sorted_orderedInsert {l : List α} (h : l.Pairwise (· < ·)) (ha : a ∉ l) :
    (l.orderedInsert (· ≤ ·) a).Pairwise (· < ·) := by
  have hle : (l.orderedInsert (· ≤ ·) a).Pairwise (· ≤ ·) :=
    List.Pairwise.orderedInsert a l (h.imp fun h => h.le)
  have hnodup : (l.orderedInsert (· ≤ ·) a).Nodup :=
    (perm_orderedInsert (· ≤ ·) a l).nodup_iff.mpr (nodup_cons.mpr ⟨ha, h.imp fun h => h.ne⟩)
  exact hle.imp₂ (fun _ _ h h' => lt_of_le_of_ne h h') hnodup

def insert (s : OrderedSet α) (a : α) : OrderedSet α :=
  if h : a ∈ s.toList then s
  else ⟨s.toList.orderedInsert (· ≤ ·) a, sorted_orderedInsert s.sorted h⟩

@[simp] lemma mem_insert {b : α} : b ∈ s.insert a ↔ b = a ∨ b ∈ s := by
  unfold insert
  split
  case isTrue h => exact ⟨Or.inr, fun hb => hb.elim (fun hb => hb ▸ h) id⟩
  case isFalse h => exact mem_orderedInsert (· ≤ ·)

lemma size_insert (h : a ∉ s) : (s.insert a).size = s.size + 1 := by
  have hlist : a ∉ s.toList := h
  simp only [insert, size, dif_neg hlist]
  exact orderedInsert_length (· ≤ ·) _ _

lemma size_insert_le (s : OrderedSet α) (a : α) : (s.insert a).size ≤ s.size + 1 := by
  by_cases h : a ∈ s
  · have hsame : s.insert a = s := dif_pos h
    rw [hsame]
    exact Nat.le_succ _
  · exact (size_insert h).le

def erase (s : OrderedSet α) (a : α) : OrderedSet α :=
  ⟨s.toList.erase a, s.sorted.sublist List.erase_sublist⟩

@[simp] lemma mem_erase {b : α} : b ∈ s.erase a ↔ b ≠ a ∧ b ∈ s :=
  s.nodup.mem_erase_iff

def isEmpty (s : OrderedSet α) : Bool := s.toList.isEmpty

lemma isEmpty_iff : s.isEmpty = true ↔ ∀ a, a ∉ s := by
  unfold isEmpty
  rw [List.isEmpty_iff]
  exact List.eq_nil_iff_forall_not_mem

end OrderedSet

/-- Along a list on which `p` is downward closed, `takeWhile p` keeps every element with `p`. -/
lemma mem_takeWhile_of_pairwise {β : Type*} {p : β → Bool} {a : β} :
    ∀ {l : List β}, l.Pairwise (fun b c => p c = true → p b = true) → (a ∈ l.takeWhile p ↔ a ∈ l ∧ p a = true)
  | [], _ => by simp
  | b :: l, h => by
    obtain ⟨hb, hl⟩ := pairwise_cons.mp h
    have ih := mem_takeWhile_of_pairwise (a := a) hl
    by_cases hpb : p b = true
    · simp only [takeWhile_cons, hpb, if_true, mem_cons, ih]
      constructor
      · rintro (rfl | ⟨hm, hpa⟩)
        · exact ⟨Or.inl rfl, hpb⟩
        · exact ⟨Or.inr hm, hpa⟩
      · rintro ⟨rfl | hm, hpa⟩
        · exact Or.inl rfl
        · exact Or.inr ⟨hm, hpa⟩
    · simp only [takeWhile_cons, hpb, mem_cons]
      constructor
      · simp
      · rintro ⟨rfl | hm, hpa⟩
        · exact absurd hpa hpb
        · exact absurd (hb a hm hpa) hpb

/-- And `dropWhile p` keeps every element without `p`. -/
lemma mem_dropWhile_of_pairwise {β : Type*} {p : β → Bool} {a : β} :
    ∀ {l : List β}, l.Pairwise (fun b c => p c = true → p b = true) →
      (a ∈ l.dropWhile p ↔ a ∈ l ∧ p a = false)
  | [], _ => by simp
  | b :: l, h => by
    obtain ⟨hb, hl⟩ := pairwise_cons.mp h
    by_cases hpb : p b = true
    · simp only [dropWhile_cons, hpb, if_true, mem_cons, mem_dropWhile_of_pairwise hl]
      constructor
      · rintro ⟨hm, hpa⟩
        exact ⟨Or.inr hm, hpa⟩
      · rintro ⟨rfl | hm, hpa⟩
        · simp [hpa] at hpb
        · exact ⟨hm, hpa⟩
    · have hall : ∀ c ∈ b :: l, p c = false := by
        intro c hc
        rcases mem_cons.mp hc with rfl | hc
        · exact Bool.eq_false_iff.mpr hpb
        · exact Bool.eq_false_iff.mpr fun hpc => hpb (hb c hc hpc)
      simp only [dropWhile_cons, hpb, if_false, Bool.false_eq_true]
      exact ⟨fun hm => ⟨hm, hall a hm⟩, fun hm => hm.1⟩

/-! ## Association lists as maps -/

section

variable {κ ν : Type*}

def mapSize (m : AList fun _ : κ => ν) : ℕ := m.entries.length

lemma mapSize_eq_keys (m : AList fun _ : κ => ν) : mapSize m = m.keys.length := by
  simp [mapSize, AList.keys, keys]

variable [DecidableEq κ]

open AList

lemma lookup_insert_eq (m : AList fun _ : κ => ν) (k k' : κ) (v : ν) :
    (m.insert k v).lookup k' = if k' = k then some v else m.lookup k' := by
  split
  case isTrue h => rw [h, lookup_insert]
  case isFalse h => exact lookup_insert_ne h

lemma lookup_erase_eq (m : AList fun _ : κ => ν) (k k' : κ) :
    (m.erase k).lookup k' = if k' = k then none else m.lookup k' := by
  split
  case isTrue h => rw [h, lookup_erase]
  case isFalse h => exact lookup_erase_ne h

lemma erase_insert_empty (k : κ) (v : ν) : ((∅ : AList fun _ : κ => ν).insert k v).erase k = ∅ := by
  refine ext ?_
  exact kerase_cons_eq rfl

lemma mapSize_insert {m : AList fun _ : κ => ν} {k : κ} (v : ν) (h : m.lookup k = none) :
    mapSize (m.insert k v) = mapSize m + 1 := by
  have hk : k ∉ m.keys := fun hm => lookup_eq_none.mp h (mem_keys.mpr hm)
  rw [mapSize_eq_keys, keys_insert, length_cons, erase_of_not_mem hk, mapSize_eq_keys]

lemma mapSize_insert_of_lookup {m : AList fun _ : κ => ν} {k : κ} (v : ν) {w : ν}
    (h : m.lookup k = some w) : mapSize (m.insert k v) = mapSize m := by
  have hk : k ∈ m.keys := mem_keys.mp (lookup_isSome.mp (by rw [h]; rfl))
  have hpos : 0 < m.keys.length := length_pos_of_mem hk
  rw [mapSize_eq_keys, keys_insert, length_cons, length_erase_of_mem hk, mapSize_eq_keys]
  omega

lemma countP_insert {m : AList fun _ : κ => ν} {k : κ} (v : ν) (h : m.lookup k = none)
    (p : Sigma (fun _ : κ => ν) → Bool) :
    (m.insert k v).entries.countP p = m.entries.countP p + if p ⟨k, v⟩ = true then 1 else 0 := by
  rw [entries_insert_of_notMem (lookup_eq_none.mp h), countP_cons]

lemma countP_erase {m : AList fun _ : κ => ν} {k : κ} {v : ν} (h : m.lookup k = some v)
    (p : Sigma (fun _ : κ => ν) → Bool) :
    m.entries.countP p = (m.erase k).entries.countP p + if p ⟨k, v⟩ = true then 1 else 0 := by
  have hk : k ∈ m.entries.keys := AList.mem_keys.mp (AList.lookup_isSome.mp (by rw [h]; rfl))
  obtain ⟨w, l₁, l₂, hf, hs, he⟩ := exists_of_kerase hk
  -- the entry that is removed is the one the lookup finds
  have hlook : m.lookup k = some w := by
    rw [AList.lookup, hs, dlookup_append, dlookup_eq_none.mpr hf]
    simp
  obtain rfl : w = v := Option.some.inj (hlook.symm.trans h)
  have hkept : (m.erase k).entries = l₁ ++ l₂ := he
  rw [hs, hkept]
  simp only [countP_append, countP_cons]
  omega

lemma mapSize_erase_le (m : AList fun _ : κ => ν) (k : κ) : mapSize (m.erase k) ≤ mapSize m := by
  rw [mapSize_eq_keys, mapSize_eq_keys, keys_erase]
  exact erase_sublist.length_le

/-- What holds of every entry of a map. -/
def AllEntries (p : κ → ν → Prop) (m : AList fun _ : κ => ν) : Prop :=
  ∀ k v, m.lookup k = some v → p k v

section

variable {p : κ → ν → Prop} {m : AList fun _ : κ => ν} {k : κ} {v : ν}

lemma AllEntries.mono {q : κ → ν → Prop} (h : AllEntries p m) (hs : ∀ k v, p k v → q k v) : AllEntries q m :=
  fun k v hl => hs k v (h k v hl)

lemma allEntries_empty : AllEntries p ∅ := by
  intro k v h
  simp at h

lemma AllEntries.insert (h : AllEntries p m) (hv : p k v) : AllEntries p (m.insert k v) := by
  intro k' v' hl
  rw [lookup_insert_eq] at hl
  split at hl
  · rename_i hkey
    cases hl
    exact hkey ▸ hv
  · exact h k' v' hl

lemma AllEntries.erase (h : AllEntries p m) : AllEntries p (m.erase k) := by
  intro k' v' hl
  rw [lookup_erase_eq] at hl
  split at hl
  · cases hl
  · exact h k' v' hl

end

end

end AsterForge.Library
