import AsterForge.Library.Containers

/-!
# Secondary indices

A table keeps its rows under a primary key, and an index finds a row by something the row itself
says.  Here both are partial maps, so nothing depends on how they are stored.  An index is exact when
its entries are the images of the rows; removing and placing rows keep it so, each under the condition
that the index has nothing else where it is touched.

* **`Indexes.remove`**, **`Indexes.place`**, **`Indexes.replace`** — the updates.
-/

namespace AsterForge.Library

open Function Option

variable {ι κ ν : Type*}

def Indexes (f : ν → Option ι) (rows : κ → Option ν) (index : ι → Option κ) : Prop :=
  ∀ i k, index i = some k ↔ ∃ v, rows k = some v ∧ f v = some i

namespace Indexes

variable {f : ν → Option ι} {r : κ → Option ν} {ix : ι → Option κ} {i : ι} {k : κ}

lemma of_row (h : Indexes f r ix) {v : ν} (hr : r k = some v) (hv : f v = some i) : ix i = some k :=
  (h i k).mpr ⟨v, hr, hv⟩

variable [DecidableEq ι] [DecidableEq κ]

/-- **Removing a row** with its index entry: the row has no other image, and the entry was of no other
row. -/
theorem remove (h : Indexes f r ix) (hi : ∀ v, r k = some v → f v = some i)
    (he : ∀ k', ix i = some k' → k' = k) : Indexes f (update r k none) (update ix i none) := by
  intro j l
  constructor
  · intro hlk
    by_cases hj : j = i
    · rw [hj, update_self] at hlk
      cases hlk
    · rw [update_of_ne hj] at hlk
      obtain ⟨v, hr, hv⟩ := (h j l).mp hlk
      have hl : l ≠ k := by
        rintro rfl
        exact hj (some.inj (hv.symm.trans (hi v hr)))
      exact ⟨v, by rw [update_of_ne hl, hr], hv⟩
  · rintro ⟨v, hr, hv⟩
    by_cases hl : l = k
    · rw [hl, update_self] at hr
      cases hr
    · rw [update_of_ne hl] at hr
      have hlk := h.of_row hr hv
      have hj : j ≠ i := by
        rintro rfl
        exact hl (he l hlk)
      rw [update_of_ne hj, hlk]

/-- **Placing a row** where neither its key nor its image was taken. -/
theorem place (h : Indexes f r ix) {v : ν} (hr : r k = none) (hv : f v = some i) (he : ix i = none) :
    Indexes f (update r k (some v)) (update ix i (some k)) := by
  intro j l
  constructor
  · intro hlk
    by_cases hj : j = i
    · subst hj
      rw [update_self] at hlk
      cases hlk
      exact ⟨v, update_self _ _ _, hv⟩
    · rw [update_of_ne hj] at hlk
      obtain ⟨w, hw, hfw⟩ := (h j l).mp hlk
      have hl : l ≠ k := by
        rintro rfl
        cases hr.symm.trans hw
      exact ⟨w, by rw [update_of_ne hl, hw], hfw⟩
  · rintro ⟨w, hw, hfw⟩
    by_cases hl : l = k
    · subst hl
      rw [update_self] at hw
      cases hw
      cases hv.symm.trans hfw
      exact update_self _ _ _
    · rw [update_of_ne hl] at hw
      have hlk := h.of_row hw hfw
      have hj : j ≠ i := by
        rintro rfl
        cases he.symm.trans hlk
      rw [update_of_ne hj, hlk]

/-- **Replacing a row**: its old image was at `i`, which no other row had, and its new one is at `j`,
which is free by then. -/
theorem replace (h : Indexes f r ix) {v : ν} {j : ι}
    (hi : ∀ v, r k = some v → f v = some i) (he : ∀ k', ix i = some k' → k' = k)
    (hv : f v = some j) (hf : ∀ k', ix j = some k' → k' = k) :
    Indexes f (update r k (some v)) (update (update ix i none) j (some k)) := by
  have hfree' : update ix i none j = none := by
    by_cases hj : j = i
    · rw [hj, update_self]
    · rw [update_of_ne hj, eq_none_iff_forall_ne_some]
      intro k' hk'
      cases hf k' hk'
      obtain ⟨w, hr, hw⟩ := (h j k).mp hk'
      exact hj (some.inj (hw.symm.trans (hi w hr)))
  have hplac := (h.remove hi he).place (update_self _ _ _) hv hfree'
  rwa [update_idem] at hplac

end Indexes

/-! ## Association lists as partial maps -/

section

variable [DecidableEq κ] (m : AList fun _ : κ => ν)

lemma lookup_insert_fun (k : κ) (v : ν) :
    (fun k' => (m.insert k v).lookup k') = update (fun k' => m.lookup k') k (some v) := by
  funext k'
  rw [lookup_insert_eq, update_apply]

lemma lookup_erase_fun (k : κ) :
    (fun k' => (m.erase k).lookup k') = update (fun k' => m.lookup k') k none := by
  funext k'
  rw [lookup_erase_eq, update_apply]

end

end AsterForge.Library
