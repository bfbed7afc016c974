import Mathlib.Algebra.Order.Ring.Nat
import Mathlib.Data.List.Pairwise

/-!
# Sweeping over half-open intervals

An interval is a pair `(start, stop)` that stands for the positions `start ≤ x < stop`.

* `gaps` — with the intervals in list order, the parts of `[cursor, hi)` that none of them covers.
* **`gaps_cover`** — intervals and gaps together cover everything; no order is needed.
* **`gaps_disjoint`** — for intervals sorted by their start, no gap meets an interval, and
  `gaps_pairwise` says the gaps do not meet each other.
* `Tiles` — non-empty intervals that follow each other without a gap, with **`Tiles.mem_iff`** — they
  cover exactly what lies between the two ends — and `Tiles.pairwise` — without meeting each other.
* `slice` — the part of a list between two positions: adjacent slices append, and a slice of a slice is
  a slice.
-/

namespace AsterForge.Library

open List

/-! ## Gaps -/

/-- The parts of `[cursor, hi)` that a sweep over the intervals leaves uncovered. -/
def gaps (hi : ℕ) : ℕ → List (ℕ × ℕ) → List (ℕ × ℕ)
  | cursor, [] => if cursor < hi then [(cursor, hi)] else []
  | cursor, (start, stop) :: rest =>
    let later := gaps hi (max cursor (min stop hi)) rest
    if cursor < min start hi then (cursor, min start hi) :: later else later

/-- Every gap is a non-empty part of what was swept. -/
theorem gaps_bounds {hi : ℕ} {g : ℕ × ℕ} : ∀ {i : List (ℕ × ℕ)} {c : ℕ}, g ∈ gaps hi c i →
      c ≤ g.1 ∧ g.1 < g.2 ∧ g.2 ≤ hi
  | [], c, h => by
    simp only [gaps] at h
    split at h
    · simp only [mem_singleton] at h
      subst h
      exact ⟨le_rfl, by assumption, le_rfl⟩
    · simp at h
  | (start, stop) :: rest, c, h => by
    have hlater : g ∈ gaps hi (max c (min stop hi)) rest → c ≤ g.1 ∧ g.1 < g.2 ∧ g.2 ≤ hi := fun hg => by
      have hb := gaps_bounds hg
      omega
    simp only [gaps] at h
    split at h
    case isTrue hlt =>
      rcases mem_cons.mp h with rfl | hg
      · exact ⟨le_rfl, hlt, Nat.min_le_right _ _⟩
      · exact hlater hg
    case isFalse => exact hlater h

/-- The gaps come in increasing order and do not meet each other. -/
theorem gaps_pairwise (hi : ℕ) : ∀ {it : List (ℕ × ℕ)} (c : ℕ), (∀ i ∈ it, i.1 ≤ i.2) →
      (gaps hi c it).Pairwise fun g h => g.2 ≤ h.1
  | [], c, _ => by
    simp only [gaps]
    split <;> simp
  | (start, stop) :: rest, c, hwf => by
    have hhead : start ≤ stop := hwf (start, stop) mem_cons_self
    have hlater := gaps_pairwise hi (max c (min stop hi)) fun i hm => hwf i (mem_cons_of_mem _ hm)
    simp only [gaps]
    split
    case isTrue =>
      refine pairwise_cons.mpr ⟨fun g hg => ?_, hlater⟩
      have hb := gaps_bounds hg
      omega
    case isFalse => exact hlater

/-- **No gap meets an interval**, when the intervals are sorted by where they start. -/
theorem gaps_disjoint {hi : ℕ} {g : ℕ × ℕ} : ∀ {it : List (ℕ × ℕ)} {c : ℕ},
      it.Pairwise (fun i j => i.1 ≤ j.1) → g ∈ gaps hi c it → ∀ i ∈ it, i.2 ≤ g.1 ∨ g.2 ≤ i.1
  | [], _, _, _ => by simp
  | (start, stop) :: rest, c, hsorted, hg => by
    obtain ⟨hf, hr⟩ := pairwise_cons.mp hsorted
    have hlater : g ∈ gaps hi (max c (min stop hi)) rest →
        ∀ i ∈ (start, stop) :: rest, i.2 ≤ g.1 ∨ g.2 ≤ i.1 := fun hg i hm => by
      rcases mem_cons.mp hm with rfl | hm
      · have hb := gaps_bounds hg
        omega
      · exact gaps_disjoint hr hg i hm
    simp only [gaps] at hg
    split at hg
    case isTrue =>
      rcases mem_cons.mp hg with rfl | hg
      · intro i hm
        right
        rcases mem_cons.mp hm with rfl | hm
        · exact Nat.min_le_left _ _
        · exact (Nat.min_le_left _ _).trans (hf i hm)
      · exact hlater hg
    case isFalse => exact hlater hg

/-- **Intervals and gaps cover the swept range.**  A position that no interval covers lies in one
of the gaps. -/
theorem gaps_cover {hi x : ℕ} (hx : x < hi) : ∀ (it : List (ℕ × ℕ)) {c : ℕ}, c ≤ x →
      ∃ i ∈ it ++ gaps hi c it, i.1 ≤ x ∧ x < i.2
  | [], c, hc => by
    refine ⟨(c, hi), ?_, hc, hx⟩
    simp [gaps, if_pos (hc.trans_lt hx)]
  | (start, stop) :: rest, c, hc => by
    by_cases hgap : x < start
    · refine ⟨(c, min start hi), ?_, hc, lt_min hgap hx⟩
      have hlt : c < min start hi := hc.trans_lt (lt_min hgap hx)
      simp only [gaps, if_pos hlt]
      exact mem_append_right _ mem_cons_self
    by_cases hin : x < stop
    · exact ⟨(start, stop), by simp, Nat.le_of_not_lt hgap, hin⟩
    have hnext : max c (min stop hi) ≤ x := by omega
    obtain ⟨i, hm, hcv⟩ := gaps_cover hx rest hnext
    refine ⟨i, ?_, hcv⟩
    rcases mem_append.mp hm with hm | hm
    · simp [hm]
    · simp only [gaps]
      split <;> simp [hm]

/-! ## Slices -/

/-- The positions `start ≤ x < stop` of a list. -/
def slice {α : Type*} (l : List α) (start stop : ℕ) : List α :=
  (l.drop start).take (stop - start)

variable {α : Type*} {l : List α}

@[simp] lemma slice_self (s : ℕ) : slice l s s = [] := by simp [slice]

lemma length_slice_le (s st : ℕ) : (slice l s st).length ≤ st - s :=
  length_take_le _ _

lemma slice_append {a b c : ℕ} (hab : a ≤ b) (hbc : b ≤ c) : slice l a b ++ slice l b c = slice l a c := by
  have hdrop : l.drop b = (l.drop a).drop (b - a) := by
    rw [drop_drop, Nat.add_sub_cancel' hab]
  have hlen : c - a = (b - a) + (c - b) := by omega
  rw [slice, slice, slice, hdrop, hlen, take_add]

lemma slice_slice {s st a b : ℕ} (ha : s ≤ a) (hab : a ≤ b) (hb : b ≤ st) :
    slice (slice l s st) (a - s) (b - s) = slice l a b := by
  rw [slice, slice, drop_take, drop_drop, take_take, Nat.add_sub_cancel' ha]
  congr 1
  omega

/-! ## Tilings -/

section

variable {ι : Type*} (lo hi : ι → ℕ)

/-- The intervals of a list are non-empty and follow each other without a gap from `a` to `b`. -/
def Tiles : List ι → ℕ → ℕ → Prop
  | [], a, b => a = b
  | i :: l, a, b => lo i = a ∧ lo i < hi i ∧ Tiles l (hi i) b

variable {lo hi}

lemma Tiles.snoc {i : ι} : ∀ {l : List ι} {a b : ℕ}, Tiles lo hi l a b → lo i = b → lo i < hi i →
    Tiles lo hi (l ++ [i]) a (hi i)
  | [], _, _, rfl, hstart, hlt => ⟨hstart, hlt, rfl⟩
  | _ :: _, _, _, ⟨hstart, hlt, hrest⟩, hnext, hnextLt =>
    ⟨hstart, hlt, hrest.snoc hnext hnextLt⟩

lemma Tiles.le : ∀ {l : List ι} {a b : ℕ}, Tiles lo hi l a b → a ≤ b
  | [], _, _, h => Nat.le_of_eq h
  | _ :: _, _, _, ⟨hstart, hlt, hrest⟩ => by
    have hle := Tiles.le hrest
    omega

/-- The intervals of a tiling cover exactly what lies between its ends. -/
theorem Tiles.mem_iff {x : ℕ} : ∀ {l : List ι} {a b : ℕ}, Tiles lo hi l a b →
    ((∃ i ∈ l, lo i ≤ x ∧ x < hi i) ↔ a ≤ x ∧ x < b)
  | [], a, b, h => by
    obtain rfl : a = b := h
    simp only [not_mem_nil, false_and, exists_false, false_iff]
    omega
  | i :: l, a, b, ⟨hstart, hlt, hrest⟩ => by
    have hle := hrest.le
    have ih := Tiles.mem_iff (x := x) hrest
    simp only [mem_cons, exists_eq_or_imp, ih]
    omega

lemma Tiles.bounds {i : ι} : ∀ {l : List ι} {a b : ℕ}, Tiles lo hi l a b → i ∈ l → a ≤ lo i ∧ hi i ≤ b
  | j :: l, a, b, ⟨hstart, hlt, hrest⟩, hm => by
    have hle := hrest.le
    rcases mem_cons.mp hm with rfl | hm
    · omega
    · have ih := Tiles.bounds hrest hm
      omega

/-- The intervals of a tiling do not meet each other. -/
theorem Tiles.pairwise : ∀ {l : List ι} {a b : ℕ}, Tiles lo hi l a b → l.Pairwise fun i j => hi i ≤ lo j
  | [], _, _, _ => .nil
  | _ :: _, _, _, ⟨_, _, hrest⟩ =>
    pairwise_cons.mpr ⟨fun _ hm => (hrest.bounds hm).1, Tiles.pairwise hrest⟩

end

end AsterForge.Library
