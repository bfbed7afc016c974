import AsterForge.Library.Containers
import Mathlib.Order.MinMax

/-!
# Coverage by separated intervals

A sparse set of positions is kept as a list of half-open intervals, in ascending order and with at least
one uncovered position between any two.  The intervals are elements of any type with a lower and an
upper end.

* **`covered_merge`** — splitting a separated list at an interval and replacing what it touches by the
  merged extent adds exactly that interval; **`separated_merge`** — and keeps the normal form.
* **`subset_covered_iff`** — in normal form, an interval is covered as a whole exactly when the first
  interval that ends after its start contains it.
* **`eq_of_covered_eq`** — the normal form is unique.
-/

namespace AsterForge.Library

open List

variable {ι : Type*} (lo hi : ι → ℕ)

/-! ## Meaning and normal form -/

def covered (l : List ι) : Set ℕ := {x | ∃ i ∈ l, lo i ≤ x ∧ x < hi i}

/-- Ascending intervals with a gap between any two. -/
def Separated (l : List ι) : Prop := l.Pairwise fun i j => hi i < lo j

/-- The extent of an interval `[a, b)` and everything in a list that it is merged with. -/
def mergeExtent (a b : ℕ) : List ι → ℕ × ℕ
  | [] => (a, b)
  | i :: l => mergeExtent (min a (lo i)) (max b (hi i)) l

variable {lo hi} (hlt : ∀ i : ι, lo i < hi i)

/-! ## Merging -/

lemma lt_mergeExtent_fst {y : ℕ} : ∀ {l : List ι} {a b : ℕ},
    y < (mergeExtent lo hi a b l).1 ↔ y < a ∧ ∀ i ∈ l, y < lo i
  | [], a, b => by simp [mergeExtent]
  | i :: l, a, b => by
    rw [mergeExtent, lt_mergeExtent_fst, lt_min_iff]
    simp [and_assoc]

lemma mergeExtent_snd_lt {y : ℕ} : ∀ {l : List ι} {a b : ℕ},
    (mergeExtent lo hi a b l).2 < y ↔ b < y ∧ ∀ i ∈ l, hi i < y
  | [], a, b => by simp [mergeExtent]
  | i :: l, a, b => by
    rw [mergeExtent, mergeExtent_snd_lt, max_lt_iff]
    simp [and_assoc]

/-- When every interval of the list touches `[a, b)`, the merged extent covers exactly the
positions of `[a, b)` and of the list. -/
lemma mem_mergeExtent {x : ℕ} : ∀ {l : List ι} {a b : ℕ}, (∀ i ∈ l, a ≤ hi i ∧ lo i ≤ b) →
    ((mergeExtent lo hi a b l).1 ≤ x ∧ x < (mergeExtent lo hi a b l).2 ↔
      (a ≤ x ∧ x < b) ∨ x ∈ covered lo hi l)
  | [], a, b, _ => by simp [mergeExtent, covered]
  | i :: l, a, b, htouch => by
    obtain ⟨hi₁, hi₂⟩ := htouch i mem_cons_self
    have hrest : ∀ j ∈ l, min a (lo i) ≤ hi j ∧ lo j ≤ max b (hi i) := fun j hj => by
      have hj := htouch j (mem_cons_of_mem _ hj)
      omega
    rw [mergeExtent, mem_mergeExtent hrest]
    have hmem : x ∈ covered lo hi (i :: l) ↔ (lo i ≤ x ∧ x < hi i) ∨ x ∈ covered lo hi l := by
      simp [covered]
    rw [hmem, ← or_assoc]
    refine or_congr_left ?_
    omega

/-- The intervals that end before `a`. -/
def before (hi : ι → ℕ) (a : ℕ) (l : List ι) : List ι := l.takeWhile fun i => decide (hi i < a)

/-- The intervals that touch `[a, b]`, among those that do not end before `a`. -/
def touching (lo hi : ι → ℕ) (a b : ℕ) (l : List ι) : List ι :=
  (l.dropWhile fun i => decide (hi i < a)).takeWhile fun i => decide (lo i ≤ b)

/-- The intervals that start after `b`. -/
def after (lo hi : ι → ℕ) (a b : ℕ) (l : List ι) : List ι :=
  (l.dropWhile fun i => decide (hi i < a)).dropWhile fun i => decide (lo i ≤ b)

lemma split_eq (a b : ℕ) (l : List ι) : before hi a l ++ (touching lo hi a b l ++ after lo hi a b l) = l := by
  rw [touching, after, takeWhile_append_dropWhile, before, takeWhile_append_dropWhile]

lemma length_merge_le (l : List ι) (a b : ℕ) (c : ι) :
    (before hi a l ++ c :: after lo hi a b l).length ≤ l.length + 1 := by
  have hsplit := congrArg length (@split_eq ι lo hi a b l)
  simp only [length_append, length_cons] at hsplit ⊢
  omega

section

include hlt

variable {l : List ι} {a b : ℕ}

lemma Separated.mono_hi (h : Separated lo hi l) (a : ℕ) :
    l.Pairwise fun i j => decide (hi j < a) = true → decide (hi i < a) = true := by
  refine h.imp fun {i j} hij => ?_
  have := hlt j
  simp only [decide_eq_true_eq]
  omega

lemma Separated.mono_lo (h : Separated lo hi l) (b : ℕ) :
    l.Pairwise fun i j => decide (lo j ≤ b) = true → decide (lo i ≤ b) = true := by
  refine h.imp fun {i j} hij => ?_
  have := hlt i
  simp only [decide_eq_true_eq]
  omega

lemma mem_touching (h : Separated lo hi l) {i : ι} : i ∈ touching lo hi a b l ↔ i ∈ l ∧ a ≤ hi i ∧ lo i ≤ b := by
  have hdrop := h.sublist (dropWhile_sublist fun i => decide (hi i < a))
  rw [touching, mem_takeWhile_of_pairwise (Separated.mono_lo hlt hdrop b),
    mem_dropWhile_of_pairwise (h.mono_hi hlt a)]
  simp [and_assoc]

lemma mem_after (h : Separated lo hi l) {i : ι} (hi' : i ∈ after lo hi a b l) : b < lo i := by
  have hdrop := h.sublist (dropWhile_sublist fun i => decide (hi i < a))
  rw [after, mem_dropWhile_of_pairwise (Separated.mono_lo hlt hdrop b)] at hi'
  simpa using hi'.2

variable {c : ι}

/-- **Merging adds exactly the interval.** -/
theorem covered_merge (h : Separated lo hi l) (hc : (lo c, hi c) = mergeExtent lo hi a b (touching lo hi a b l)) :
    covered lo hi (before hi a l ++ c :: after lo hi a b l) = covered lo hi l ∪ {x | a ≤ x ∧ x < b} := by
  have hlo : lo c = (mergeExtent lo hi a b (touching lo hi a b l)).1 := congrArg Prod.fst hc
  have hhi : hi c = (mergeExtent lo hi a b (touching lo hi a b l)).2 := congrArg Prod.snd hc
  have htouch : ∀ i ∈ touching lo hi a b l, a ≤ hi i ∧ lo i ≤ b := fun i hi' =>
    ((mem_touching hlt h).mp hi').2
  have happend : ∀ l₁ l₂ : List ι, covered lo hi (l₁ ++ l₂) = covered lo hi l₁ ∪ covered lo hi l₂ := by
    intro l₁ l₂
    ext x
    simp [covered, or_and_right, exists_or]
  have hcons : covered lo hi (c :: after lo hi a b l) =
      ({x | a ≤ x ∧ x < b} ∪ covered lo hi (touching lo hi a b l)) ∪ covered lo hi (after lo hi a b l) := by
    ext x
    have hmem := mem_mergeExtent (x := x) htouch
    rw [← hlo, ← hhi] at hmem
    simp only [covered, mem_cons, exists_eq_or_imp, Set.mem_ofPred_eq, Set.mem_union] at hmem ⊢
    rw [hmem]
  have hsplit := @split_eq ι lo hi a b l
  conv_rhs => rw [← hsplit]
  rw [happend, happend, happend, hcons]
  ext x
  simp only [Set.mem_union]
  tauto

lemma length_merge_le_iff (h : Separated lo hi l) :
    (before hi a l ++ c :: after lo hi a b l).length ≤ l.length ↔ ∃ i ∈ l, a ≤ hi i ∧ lo i ≤ b := by
  have hsplit := congrArg length (@split_eq ι lo hi a b l)
  simp only [length_append, length_cons] at hsplit ⊢
  have hpos : 0 < (touching lo hi a b l).length ↔ ∃ i ∈ l, a ≤ hi i ∧ lo i ≤ b := by
    rw [length_pos_iff_exists_mem]
    exact exists_congr fun i => mem_touching hlt h
  rw [← hpos]
  omega

/-- **Merging keeps the normal form.** -/
theorem separated_merge (h : Separated lo hi l)
    (hc : (lo c, hi c) = mergeExtent lo hi a b (touching lo hi a b l)) :
    Separated lo hi (before hi a l ++ c :: after lo hi a b l) := by
  have hlo : lo c = (mergeExtent lo hi a b (touching lo hi a b l)).1 := congrArg Prod.fst hc
  have hhi : hi c = (mergeExtent lo hi a b (touching lo hi a b l)).2 := congrArg Prod.snd hc
  have hsplit := h
  rw [← split_eq a b l, Separated, pairwise_append] at hsplit
  obtain ⟨hb, hr, hcr⟩ := hsplit
  obtain ⟨-, ha, hcr'⟩ := pairwise_append.mp hr
  refine pairwise_append.mpr ⟨hb, pairwise_cons.mpr ⟨fun j hj => ?_, ha⟩, ?_⟩
  · rw [hhi, mergeExtent_snd_lt]
    exact ⟨mem_after hlt h hj, fun i hi' => hcr' i hi' j hj⟩
  · intro i hi' j hj
    rcases mem_cons.mp hj with rfl | hj
    · rw [hlo, lt_mergeExtent_fst]
      refine ⟨?_, fun t ht => hcr i hi' t (mem_append_left _ ht)⟩
      have hends := ((mem_takeWhile_of_pairwise (h.mono_hi hlt a)).mp hi').2
      simpa using hends
    · exact hcr i hi' j (mem_append_right _ hj)

end

/-- **Covering an interval** in normal form: the first interval that ends after its start contains
all of it. -/
theorem subset_covered_iff {a b : ℕ} (hab : a < b) : ∀ {l : List ι}, Separated lo hi l →
    ({x | a ≤ x ∧ x < b} ⊆ covered lo hi l ↔
      ∃ i, (l.dropWhile fun i => decide (hi i ≤ a)).head? = some i ∧ lo i ≤ a ∧ b ≤ hi i)
  | [], _ => by
    refine ⟨fun h => ?_, by simp⟩
    obtain ⟨i, hm, -⟩ := h ⟨le_rfl, hab⟩
    exact absurd hm not_mem_nil
  | i :: l, h => by
    obtain ⟨hf, hl⟩ := pairwise_cons.mp h
    by_cases hends : hi i ≤ a
    · have hcover : {x | a ≤ x ∧ x < b} ⊆ covered lo hi (i :: l) ↔ {x | a ≤ x ∧ x < b} ⊆ covered lo hi l := by
        refine ⟨fun h x hx => ?_, fun h x hx => ?_⟩
        · obtain ⟨j, hm, hj⟩ := h hx
          rcases mem_cons.mp hm with rfl | hm
          · have hlow : a ≤ x := hx.1
            omega
          · exact ⟨j, hm, hj⟩
        · obtain ⟨j, hm, hj⟩ := h hx
          exact ⟨j, mem_cons_of_mem _ hm, hj⟩
      rw [hcover, subset_covered_iff hab hl, dropWhile_cons_of_pos (by simpa using hends)]
    · rw [dropWhile_cons_of_neg (by simpa using hends)]
      simp only [head?_cons, Option.some.injEq, exists_eq_left']
      constructor
      · intro h
        have hs : lo i ≤ a := by
          obtain ⟨j, hm, hj⟩ := h (show a ∈ {x | a ≤ x ∧ x < b} from ⟨le_rfl, hab⟩)
          rcases mem_cons.mp hm with rfl | hm
          · exact hj.1
          · have hgap := hf j hm
            omega
        refine ⟨hs, Nat.le_of_not_lt fun hsh => ?_⟩
        -- the gap right after the interval would have to be covered
        obtain ⟨j, hm, hj⟩ := h (show hi i ∈ {x | a ≤ x ∧ x < b} from ⟨by omega, hsh⟩)
        rcases mem_cons.mp hm with rfl | hm
        · omega
        · have hgap := hf j hm
          omega
      · rintro ⟨hs, he⟩ x ⟨hx, hx'⟩
        exact ⟨i, mem_cons_self, hs.trans hx, hx'.trans_le he⟩

/-! ## Uniqueness -/

variable {l m : List ι}

lemma exists_container (h : Separated lo hi l) {a b : ℕ} (hab : a < b)
    (hs : {x | a ≤ x ∧ x < b} ⊆ covered lo hi l) : ∃ i ∈ l, lo i ≤ a ∧ b ≤ hi i := by
  obtain ⟨i, hm, he⟩ := (subset_covered_iff hab h).mp hs
  exact ⟨i, (dropWhile_sublist _).mem (mem_of_head? hm), he⟩

variable (hinj : ∀ i j, lo i = lo j → hi i = hi j → i = j)

include hlt hinj

/-- An interval is contained in one of the other list, and that one in one of its own. -/
lemma mem_of_covered_eq (hl : Separated lo hi l) (hm : Separated lo hi m)
    (h : covered lo hi l = covered lo hi m) {i : ι} (hi' : i ∈ l) : i ∈ m := by
  obtain ⟨j, hj, hjl, hjh⟩ := exists_container hm (hlt i) (h ▸ fun x hx => ⟨i, hi', hx⟩)
  obtain ⟨k, hk, hkl, hkh⟩ := exists_container hl (hlt j) (h ▸ fun x hx => ⟨j, hj, hx⟩)
  have hpos := hlt i
  have hsame : i = k := by
    by_contra hne
    have : Std.Symm fun i j => hi i < lo j ∨ hi j < lo i := ⟨fun _ _ => Or.symm⟩
    have hapart := (hl.imp (S := fun i j => hi i < lo j ∨ hi j < lo i) .inl).forall hi' hk hne
    omega
  subst hsame
  rwa [hinj i j (by omega) (by omega)]

/-- **The normal form is unique**: lists that cover the same are the same. -/
theorem eq_of_covered_eq (hl : Separated lo hi l) (hm : Separated lo hi m)
    (h : covered lo hi l = covered lo hi m) : l = m := by
  have hne : ∀ {i j}, hi i < lo j → i ≠ j := by
    rintro i _ hij rfl
    exact absurd hij (hlt i).asymm
  have hp : l.Perm m := (perm_ext_iff_of_nodup (hl.imp hne) (hm.imp hne)).mpr fun i =>
    ⟨mem_of_covered_eq hlt hinj hl hm h, mem_of_covered_eq hlt hinj hm hl h.symm⟩
  refine hp.eq_of_pairwise ?_ hl hm
  intro i j _ _ hij hji
  have hi' := hlt i
  have hj' := hlt j
  omega

end AsterForge.Library
