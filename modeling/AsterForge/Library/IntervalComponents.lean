import Mathlib.Data.List.Pairwise
import Mathlib.Data.Set.Basic
import Mathlib.Order.MinMax
import Mathlib.Tactic.Common

/-!
# Connected components of intervals

Closed intervals of natural numbers that overlap, or are separated by no more than a gap, belong
together.  What a list of intervals has to satisfy to be the list of the connected components of a set
is said in terms that an algorithm can keep as an invariant.

* `Near` — two intervals overlap or the gap between them is small; `Linked` — this as a relation on a
  set.
* `Filled` — an interval that consists of intervals of a set and of small gaps between them;
  **`Filled.join`** — two of them that are near fill their hull, and **`Filled.connected`** — whatever
  lies within one of them is connected.
* **`Components.together_iff`** — two intervals lie in one component exactly if they are connected;
  **`Components.unique`** — the components depend on the set alone.
-/

namespace AsterForge.Library

/-- The intervals `[a, b]` and `[c, d]` overlap, or no more than the gap is between them. -/
def Near (gap a b c d : ℕ) : Prop := c ≤ b + 1 + gap ∧ a ≤ d + 1 + gap

lemma Near.symm {gap a b c d : ℕ} (h : Near gap a b c d) : Near gap c d a b := ⟨h.2, h.1⟩

variable {ι : Type*} (lo hi : ι → ℕ) (gap : ℕ) (S : Set ι)

/-- An interval lies within `[a, b]`. -/
def Inside (i : ι) (a b : ℕ) : Prop := a ≤ lo i ∧ hi i ≤ b

def Linked (i j : ι) : Prop := i ∈ S ∧ j ∈ S ∧ Near gap (lo i) (hi i) (lo j) (hi j)

/-- **A filled interval**: every position belongs to an interval of the set that lies within it, or to a gap
between two of them that is no larger than permitted. -/
structure Filled (a b : ℕ) : Prop where
  ordered : a ≤ b
  position : ∀ x, a ≤ x → x ≤ b → (∃ i ∈ S, Inside lo hi i a b ∧ lo i ≤ x ∧ x ≤ hi i) ∨
      ∃ l ∈ S, ∃ r ∈ S, Inside lo hi l a b ∧ Inside lo hi r a b ∧ hi l < x ∧ x < lo r ∧ lo r - hi l - 1 ≤ gap

variable {lo hi gap S}

lemma Inside.trans {i : ι} {a b c d : ℕ} (h : Inside lo hi i a b) (hca : c ≤ a) (hbd : b ≤ d) :
    Inside lo hi i c d :=
  ⟨hca.trans h.1, h.2.trans hbd⟩

section

variable (hle : ∀ i : ι, lo i ≤ hi i)

include hle

variable {i j : ι} {a b c d : ℕ}

omit hle in
lemma Inside.near (hi' : Inside lo hi i a b) (hj : Inside lo hi j c d)
    (h : Near gap (lo i) (hi i) (lo j) (hi j)) : Near gap a b c d := by
  obtain ⟨hai, hib⟩ := hi'
  obtain ⟨hcj, hjd⟩ := hj
  obtain ⟨hl, hh⟩ := h
  exact ⟨by omega, by omega⟩

lemma Inside.common (hi' : Inside lo hi i a b) (hj : Inside lo hi i c d) : Near gap a b c d :=
  hi'.near hj ⟨by have := hle i; omega, by have := hle i; omega⟩

lemma Filled.first (h : Filled lo hi gap S a b) : ∃ i ∈ S, Inside lo hi i a b ∧ lo i = a := by
  rcases h.position a le_rfl h.ordered with ⟨i, hm, hin, hlw, -⟩ | ⟨l, -, r, -, hl, -, hb, -⟩
  · exact ⟨i, hm, hin, Nat.le_antisymm hlw hin.1⟩
  · have hll := hle l
    have hal := hl.1
    omega

lemma Filled.last (h : Filled lo hi gap S a b) : ∃ i ∈ S, Inside lo hi i a b ∧ hi i = b := by
  rcases h.position b h.ordered le_rfl with ⟨i, hm, hin, -, hh⟩ | ⟨l, -, r, -, -, hr, -, ha, -⟩
  · exact ⟨i, hm, hin, Nat.le_antisymm hin.2 hh⟩
  · have hrr := hle r
    have hrb := hr.2
    omega

lemma Filled.single (hm : i ∈ S) : Filled lo hi gap S (lo i) (hi i) :=
  ⟨hle i, fun _ hl hh => .inl ⟨i, hm, ⟨le_rfl, le_rfl⟩, hl, hh⟩⟩

omit hle in
lemma Filled.mono {T : Set ι} (hs : S ⊆ T) (h : Filled lo hi gap S a b) : Filled lo hi gap T a b := by
  refine ⟨h.ordered, fun x hlw hh => ?_⟩
  rcases h.position x hlw hh with ⟨i, hm, hrs⟩ | ⟨l, hl, r, hr, hrs⟩
  · exact .inl ⟨i, hs hm, hrs⟩
  · exact .inr ⟨l, hs hl, r, hs hr, hrs⟩

/-- **Two filled intervals that are near fill their hull.** -/
theorem Filled.join (h : Filled lo hi gap S a b) (h' : Filled lo hi gap S c d)
    (hn : Near gap a b c d) : Filled lo hi gap S (min a c) (max b d) := by
  have hwide : ∀ {i : ι}, Inside lo hi i a b → Inside lo hi i (min a c) (max b d) := fun hin =>
    hin.trans (min_le_left a c) (le_max_left b d)
  have hwide' : ∀ {i : ι}, Inside lo hi i c d → Inside lo hi i (min a c) (max b d) := fun hin =>
    hin.trans (min_le_right a c) (le_max_right b d)
  have hcd := h'.ordered
  refine ⟨by omega, fun x hlw hh => ?_⟩
  by_cases hx : a ≤ x ∧ x ≤ b
  · rcases h.position x hx.1 hx.2 with ⟨i, hm, hin, hrs⟩ | ⟨l, hl, r, hr, hil, hir, hrs⟩
    · exact .inl ⟨i, hm, hwide hin, hrs⟩
    · exact .inr ⟨l, hl, r, hr, hwide hil, hwide hir, hrs⟩
  by_cases hx' : c ≤ x ∧ x ≤ d
  · rcases h'.position x hx'.1 hx'.2 with ⟨i, hm, hin, hrs⟩ | ⟨l, hl, r, hr, hil, hir, hrs⟩
    · exact .inl ⟨i, hm, hwide' hin, hrs⟩
    · exact .inr ⟨l, hl, r, hr, hwide' hil, hwide' hir, hrs⟩
  -- the position is between the two, where the gap is small
  obtain ⟨hg, hg'⟩ := hn
  by_cases hleft : b < x
  · obtain ⟨l, hl, hil, hls⟩ := h.last hle
    obtain ⟨r, hr, hir, hf⟩ := h'.first hle
    exact .inr ⟨l, hl, r, hr, hwide hil, hwide' hir, by omega, by omega, by omega⟩
  · obtain ⟨l, hl, hil, hls⟩ := h'.last hle
    obtain ⟨r, hr, hir, hf⟩ := h.first hle
    exact .inr ⟨l, hl, r, hr, hwide' hil, hwide hir, by omega, by omega, by omega⟩

lemma Filled.connected_up (h : Filled lo hi gap S a b) (hj : j ∈ S)
    (hinj : Inside lo hi j a b) : ∀ (n : ℕ) {i : ι}, i ∈ S → Inside lo hi i a b → lo i ≤ lo j →
      lo j - hi i ≤ n → Relation.ReflTransGen (Linked lo hi gap S) i j := by
  intro n
  induction n with
  | zero =>
    intro i hi' hin hij hd
    have hjj := hle j
    exact .single ⟨hi', hj, by omega, by omega⟩
  | succ n ih =>
    intro i hi' hin hij hd
    have hii := hle i
    have hjj := hle j
    by_cases hnear : lo j ≤ hi i + 1 + gap
    · exact .single ⟨hi', hj, hnear, by omega⟩
    -- the position right after `i` is covered, or in a small gap
    rcases h.position (hi i + 1) (by have := hin.1; omega) (by have := hinj.2; omega) with
        ⟨k, hk, hink, hklow, hkhigh⟩ | ⟨l, hl, r, hr, hinl, hinr, hbef, hafter, hsmall⟩
    · exact .head ⟨hi', hk, by omega, by omega⟩ (ih hk hink (by omega) (by omega))
    · have hrr := hle r
      have hlink : Linked lo hi gap S i r := ⟨hi', hr, by omega, by omega⟩
      exact .head hlink (ih hr hinr (by omega) (by omega))

/-- **What lies within a filled interval is connected.** -/
theorem Filled.connected (h : Filled lo hi gap S a b) (hi' : i ∈ S)
    (hin : Inside lo hi i a b) (hj : j ∈ S) (hinj : Inside lo hi j a b) :
    Relation.ReflTransGen (Linked lo hi gap S) i j := by
  have hsymm : Std.Symm (Linked lo hi gap S) := ⟨fun _ _ hl => ⟨hl.2.1, hl.1, hl.2.2.symm⟩⟩
  rcases Nat.le_total (lo i) (lo j) with hij | hji
  · exact h.connected_up hle hj hinj _ hi' hin hij le_rfl
  · exact symm_of (Relation.ReflTransGen (Linked lo hi gap S))
      (h.connected_up hle hi' hin _ hj hinj hji le_rfl)

end

/-! ## Components -/

/-- **The components of a set of intervals**, as a list of intervals. -/
structure Components (lo hi : ι → ℕ) (gap : ℕ) (S : Set ι) (components : List ι) : Prop where
  apart : components.Pairwise fun i j => ¬Near gap (lo i) (hi i) (lo j) (hi j)
  filled : ∀ component ∈ components, Filled lo hi gap S (lo component) (hi component)
  total : ∀ i ∈ S, ∃ component ∈ components, Inside lo hi i (lo component) (hi component)

namespace Components

variable {cp c' : List ι} {i : ι}

lemma eq_of_near (h : Components lo hi gap S cp) {j : ι} (hi' : i ∈ cp)
    (hj : j ∈ cp) (hn : Near gap (lo i) (hi i) (lo j) (hi j)) : i = j := by
  by_contra hne
  have hsymm : Std.Symm fun i j : ι => ¬Near gap (lo i) (hi i) (lo j) (hi j) :=
    ⟨fun _ _ hnt hn => hnt hn.symm⟩
  exact h.apart.forall hi' hj hne hn

variable (hle : ∀ i : ι, lo i ≤ hi i)

include hle

/-- **Every interval lies within exactly one component.** -/
theorem existsUnique (h : Components lo hi gap S cp) (hm : i ∈ S) :
    ∃! cm, cm ∈ cp ∧ Inside lo hi i (lo cm) (hi cm) := by
  obtain ⟨cm, hc, hin⟩ := h.total i hm
  refine ⟨cm, ⟨hc, hin⟩, fun o ho => ?_⟩
  exact h.eq_of_near ho.1 hc (ho.2.common hle hin)

/-- **Two intervals lie in one component exactly if they are connected.** -/
theorem together_iff (h : Components lo hi gap S cp) {j : ι} (hi' : i ∈ S) (hj : j ∈ S) :
    (∃ cm ∈ cp, Inside lo hi i (lo cm) (hi cm) ∧ Inside lo hi j (lo cm) (hi cm)) ↔
      Relation.ReflTransGen (Linked lo hi gap S) i j := by
  constructor
  · rintro ⟨cm, hc, hini, hij⟩
    exact (h.filled cm hc).connected hle hi' hini hj hij
  · intro hp
    induction hp with
    | refl =>
      obtain ⟨cm, hc, hin⟩ := h.total i hi'
      exact ⟨cm, hc, hin, hin⟩
    | tail _ hl ih =>
      obtain ⟨hk, hj, hn⟩ := hl
      obtain ⟨cm, hc, hini, hik⟩ := ih hk
      obtain ⟨o, ho, hij⟩ := h.total _ hj
      obtain rfl := h.eq_of_near hc ho (hik.near hij hn)
      exact ⟨cm, hc, hini, hij⟩

/-- **The components depend on the set alone.** -/
theorem unique (h : Components lo hi gap S cp) (h' : Components lo hi gap S c') {cm : ι} (hc : cm ∈ cp) :
    ∃ o ∈ c', lo o = lo cm ∧ hi o = hi cm := by
  have hfilled := h.filled cm hc
  obtain ⟨first, hf, hif, hlw⟩ := hfilled.first hle
  obtain ⟨l, hl, hil, hh⟩ := hfilled.last hle
  obtain ⟨o, ho, hif', hil'⟩ := (h'.together_iff hle hf hl).mpr (hfilled.connected hle hf hif hl hil)
  have hfilled' := h'.filled o ho
  -- the ends of the other component are ends of intervals that are connected to these two
  have hback : ∀ {i : ι}, i ∈ S → Inside lo hi i (lo o) (hi o) → Inside lo hi i (lo cm) (hi cm) := by
    intro i hm hin
    obtain ⟨fn, hfn, hinf, hinf'⟩ := (h.together_iff hle hf hm).mpr (hfilled'.connected hle hf hif' hm hin)
    obtain rfl := h.eq_of_near hfn hc (hinf.common hle hif)
    exact hinf'
  obtain ⟨f', hm, hin, hlw'⟩ := hfilled'.first hle
  obtain ⟨l', hm', hin', hh'⟩ := hfilled'.last hle
  have hlowBack := (hback hm hin).1
  have hhighBack := (hback hm' hin').2
  have hlowThere := hif'.1
  have hhighThere := hil'.2
  exact ⟨o, ho, by omega, by omega⟩

end Components

end AsterForge.Library
