import Mathlib.Data.List.Perm.Basic
import Mathlib.Data.Option.Basic

/-!
# Partial operations in any order

A binary operation that may fail is folded over several values, and the question is how much the result
depends on the order and on the grouping.

* `OrderIndependent` — every order and every grouping of three values has one outcome.
* **`orderIndependent_iff`** — for a commutative operation three of the twelve ways are enough.
* `checked` — a total operation restricted to the results that pass a test; where a result passes only
  if its operands do, it stays commutative and associative (`checked_comm`, **`checked_assoc`**).
* `ifPresent` — the operation on values that may be absent, where an absent operand makes the result
  absent *without* applying the operation; **`leftGrouping_ifPresent_eq_none`** says exactly where a
  grouping of it fails.
-/

namespace AsterForge.Library

open List Option

variable {α β : Type*}

/-! ## Three values -/

/-- The first two values are combined first. -/
def leftGrouping (op : α → α → Option α) (a b c : α) : Option α :=
  (op a b).bind fun ab => op ab c

/-- The last two values are combined first. -/
def rightGrouping (op : α → α → Option α) (a b c : α) : Option α :=
  (op b c).bind fun bc => op a bc

/-- Every order and every grouping of three values has the same outcome. -/
def OrderIndependent (op : α → α → Option α) (a b c : α) : Prop :=
  ∀ x y z, [x, y, z].Perm [a, b, c] → leftGrouping op x y z = leftGrouping op a b c ∧
      rightGrouping op x y z = leftGrouping op a b c

lemma perm_three_iff {x y z a b c : α} : [x, y, z].Perm [a, b, c] ↔
    (x = a ∧ [y, z].Perm [b, c]) ∨ (x = b ∧ [y, z].Perm [a, c]) ∨ (x = c ∧ [y, z].Perm [a, b]) := by
  constructor
  · intro h
    have hx : x ∈ [a, b, c] := h.subset mem_cons_self
    simp only [mem_cons, not_mem_nil, or_false] at hx
    rcases hx with rfl | rfl | rfl
    · exact .inl ⟨rfl, (perm_cons _).mp h⟩
    · exact .inr (.inl ⟨rfl, (perm_cons _).mp (h.trans (List.Perm.swap _ _ _))⟩)
    · have hrot : [a, b, x].Perm [x, a, b] := by
        simpa using @perm_append_comm _ [a, b] [x]
      exact .inr (.inr ⟨rfl, (perm_cons _).mp (h.trans hrot)⟩)
  · rintro (⟨rfl, h⟩ | ⟨rfl, h⟩ | ⟨rfl, h⟩)
    · exact h.cons _
    · exact (h.cons _).trans (List.Perm.swap _ _ _)
    · refine (h.cons _).trans ?_
      simpa using @perm_append_comm _ [x] [a, b]

lemma perm_two_iff {y z b c : α} : [y, z].Perm [b, c] ↔ (y = b ∧ z = c) ∨ (y = c ∧ z = b) := by
  constructor
  · intro h
    have hy : y ∈ [b, c] := h.subset mem_cons_self
    simp only [mem_cons, not_mem_nil, or_false] at hy
    rcases hy with rfl | rfl
    · exact .inl ⟨rfl, by simpa using (perm_cons _).mp h⟩
    · exact .inr ⟨rfl, by simpa using (perm_cons _).mp (h.trans (List.Perm.swap _ _ _))⟩
  · rintro (⟨rfl, rfl⟩ | ⟨rfl, rfl⟩)
    · exact List.Perm.refl _
    · exact List.Perm.swap _ _ _

lemma eq_of_perm_three {F : α → α → α → β} (hs : ∀ a b c, F b a c = F a b c)
    (hr : ∀ a b c, F b c a = F a b c) {x y z a b c : α} (h : [x, y, z].Perm [a, b, c]) : F x y z = F a b c := by
  rw [perm_three_iff] at h
  simp only [perm_two_iff] at h
  rcases h with ⟨rfl, ⟨rfl, rfl⟩ | ⟨rfl, rfl⟩⟩ | ⟨rfl, ⟨rfl, rfl⟩ | ⟨rfl, rfl⟩⟩ |
    ⟨rfl, ⟨rfl, rfl⟩ | ⟨rfl, rfl⟩⟩
  · rfl
  · rw [← hr, hs, hr]
  · exact hs _ _ _
  · exact hr _ _ _
  · rw [← hr]
  · rw [hs, hr]

variable {op : α → α → Option α}

lemma leftGrouping_map {op' : β → β → Option β} {f : α → β}
    (hop : ∀ a b, (op a b).map f = op' (f a) (f b)) (a b c : α) :
    (leftGrouping op a b c).map f = leftGrouping op' (f a) (f b) (f c) := by
  rw [leftGrouping, leftGrouping, ← hop a b]
  cases op a b with
  | none => rfl
  | some ab => simpa using hop ab c

section

variable {op : α → α → Option α} (hcm : ∀ a b, op a b = op b a)
include hcm

variable (a b c : α)

lemma leftGrouping_swap : leftGrouping op a b c = leftGrouping op b a c := by
  rw [leftGrouping, hcm a b, leftGrouping]

lemma rightGrouping_eq : rightGrouping op a b c = leftGrouping op b c a := by
  refine congrArg _ (funext fun bc => hcm a bc)

/-- **Three of the twelve ways are enough**: which two values are combined first is all that can
matter when the operation is commutative. -/
theorem orderIndependent_iff : OrderIndependent op a b c ↔
    leftGrouping op b c a = leftGrouping op a b c ∧
      leftGrouping op c a b = leftGrouping op a b c := by
  constructor
  · intro h
    have hb : [b, c, a].Perm [a, b, c] := by
      simpa using @perm_append_comm _ [b, c] [a]
    have hc : [c, a, b].Perm [a, b, c] := by
      simpa using @perm_append_comm _ [c] [a, b]
    exact ⟨(h b c a hb).1, (h c a b hc).1⟩
  · rintro ⟨hb, hc⟩ x y z hp
    have hleft : ∀ u v w, [u, v, w].Perm [a, b, c] →
        leftGrouping op u v w = leftGrouping op a b c := by
      intro u v w h
      rw [perm_three_iff] at h
      simp only [perm_two_iff] at h
      rcases h with ⟨rfl, ⟨rfl, rfl⟩ | ⟨rfl, rfl⟩⟩ | ⟨rfl, ⟨rfl, rfl⟩ | ⟨rfl, rfl⟩⟩ |
        ⟨rfl, ⟨rfl, rfl⟩ | ⟨rfl, rfl⟩⟩
      · rfl
      · rw [leftGrouping_swap hcm, hc]
      · rw [leftGrouping_swap hcm]
      · exact hb
      · exact hc
      · rw [leftGrouping_swap hcm, hb]
    refine ⟨hleft x y z hp, ?_⟩
    rw [rightGrouping_eq hcm]
    refine hleft y z x (List.Perm.trans ?_ hp)
    simpa using @perm_append_comm _ [y, z] [x]

/-- An operation is order-independent where an injective representation of it is. -/
theorem OrderIndependent.of_map {op' : β → β → Option β} {f : α → β} (hf : Function.Injective f)
    (hop : ∀ a b, (op a b).map f = op' (f a) (f b)) {a b c : α}
    (h : OrderIndependent op' (f a) (f b) (f c)) : OrderIndependent op a b c := by
  rw [orderIndependent_iff hcm]
  have hrotate : ∀ x y z, [f x, f y, f z].Perm [f a, f b, f c] →
      leftGrouping op x y z = leftGrouping op a b c := by
    intro x y z hp
    refine map_injective hf ?_
    rw [leftGrouping_map hop, leftGrouping_map hop, (h _ _ _ hp).1]
  constructor
  · refine hrotate b c a ?_
    simpa using @perm_append_comm _ [f b, f c] [f a]
  · refine hrotate c a b ?_
    simpa using @perm_append_comm _ [f c] [f a, f b]

end

/-! ## Checked operations -/

/-- A total operation whose results have to pass a test. -/
def checked (op : α → α → α) (fits : α → Prop) [DecidablePred fits] (a b : α) : Option α :=
  if fits (op a b) then some (op a b) else none

section

variable {op : α → α → α} {f : α → Prop} [DecidablePred f]

lemma checked_comm (hcomm : ∀ a b, op a b = op b a) (a b : α) : checked op f a b = checked op f b a := by
  rw [checked, hcomm a b, checked]

/-- What a grouping of a checked operation gives: the test of the whole product decides, because a
partial product passes whenever the whole one does. -/
lemma leftGrouping_checked (hm : ∀ a b, f (op a b) → f a) (a b c : α) :
    leftGrouping (checked op f) a b c = if f (op (op a b) c) then some (op (op a b) c) else none := by
  by_cases hab : f (op a b)
  · simp [leftGrouping, checked, hab]
  · have habc : ¬ f (op (op a b) c) := fun h => hab (hm _ _ h)
    simp [leftGrouping, checked, hab, habc]

/-- **A checked operation is as associative as the total one.** -/
theorem checked_assoc (hcomm : ∀ a b, op a b = op b a)
    (hassoc : ∀ a b c, op (op a b) c = op a (op b c)) (hm : ∀ a b, f (op a b) → f a)
    (a b c : α) : OrderIndependent (checked op f) a b c := by
  rw [orderIndependent_iff (checked_comm hcomm)]
  have hbca : op (op b c) a = op (op a b) c := by rw [hcomm _ a, hassoc]
  have hcab : op (op c a) b = op (op a b) c := by rw [hassoc, hcomm c]
  simp [leftGrouping_checked hm, hbca, hcab]

end

/-! ## Operations on values that may be absent -/

/-- The operation on optional values: an absent operand makes the result absent, and the operation
is not applied. -/
def ifPresent (op : α → α → Option α) : Option α → Option α → Option (Option α)
  | some a, some b => (op a b).map some
  | _, _ => some none

lemma ifPresent_comm (hcomm : ∀ a b, op a b = op b a) (x y : Option α) : ifPresent op x y = ifPresent op y x := by
  cases x <;> cases y <;> simp [ifPresent, hcomm]

/-- What three optional values combine to, failures aside: the combination if all are present. -/
def presentResult (op : α → α → Option α) : Option α → Option α → Option α → Option α
  | some a, some b, some c => leftGrouping op a b c
  | _, _, _ => none

/-- All three values are present and do not combine. -/
def SharedFailure (op : α → α → Option α) (x y z : Option α) : Prop :=
  ∃ a b c, x = some a ∧ y = some b ∧ z = some c ∧ leftGrouping op a b c = none

/-- The two first values are present and do not combine, although the absent third one makes the
result absent in every other order. -/
def Stranded (op : α → α → Option α) (x y z : Option α) : Prop :=
  ∃ a b, x = some a ∧ y = some b ∧ z = none ∧ op a b = none

/-- **Where grouping matters.**  Three optional values combine unless all of them are present and
do not combine, or the two combined first do not and the third is absent. -/
theorem leftGrouping_ifPresent_eq_none (op : α → α → Option α) (x y z : Option α) :
    leftGrouping (ifPresent op) x y z = none ↔ SharedFailure op x y z ∨ Stranded op x y z := by
  cases x with
  | none => cases z <;> simp [leftGrouping, ifPresent, SharedFailure, Stranded]
  | some a =>
    cases y with
    | none => cases z <;> simp [leftGrouping, ifPresent, SharedFailure, Stranded]
    | some b =>
      cases hab : op a b with
      | none | some ab => cases z <;> simp [leftGrouping, ifPresent, SharedFailure, Stranded, hab]

lemma leftGrouping_ifPresent_eq_some {x y z r : Option α}
    (h : leftGrouping (ifPresent op) x y z = some r) : r = presentResult op x y z := by
  cases x with
  | none => cases z <;> simp_all [leftGrouping, ifPresent, presentResult]
  | some a =>
    cases y with
    | none => cases z <;> simp_all [leftGrouping, ifPresent, presentResult]
    | some b =>
      cases hab : op a b with
      | none => simp [leftGrouping, ifPresent, hab] at h
      | some ab =>
        cases z with
        | none => simp_all [leftGrouping, ifPresent, presentResult]
        | some c =>
          simp only [leftGrouping, ifPresent, hab, map_some, bind_some, map_eq_some_iff] at h
          obtain ⟨abc, ha, rfl⟩ := h
          simp [presentResult, leftGrouping, hab, ha]

section

variable {op : α → α → Option α} (hc : ∀ a b, op a b = op b a) (ha : ∀ a b c, OrderIndependent op a b c)
include hc ha

variable (x y z : Option α)

lemma presentResult_rotate : presentResult op y z x = presentResult op x y z := by
  cases x with
  | none => cases y <;> cases z <;> rfl
  | some a =>
    cases y with
    | none => rfl
    | some b =>
      cases z with
      | none => rfl
      | some c => exact ((orderIndependent_iff hc a b c).mp (ha a b c)).1

omit ha in
lemma presentResult_swap : presentResult op y x z = presentResult op x y z := by
  cases x <;> cases y <;> cases z <;> simp only [presentResult]
  exact leftGrouping_swap hc _ _ _

lemma sharedFailure_rotate : SharedFailure op y z x ↔ SharedFailure op x y z := by
  have hrotate : ∀ a b c, leftGrouping op b c a = leftGrouping op a b c := fun a b c =>
    ((orderIndependent_iff hc a b c).mp (ha a b c)).1
  constructor
  · rintro ⟨b, c, a, rfl, rfl, rfl, h⟩
    exact ⟨a, b, c, rfl, rfl, rfl, hrotate a b c ▸ h⟩
  · rintro ⟨a, b, c, rfl, rfl, rfl, h⟩
    exact ⟨b, c, a, rfl, rfl, rfl, (hrotate a b c).trans h⟩

end

end AsterForge.Library
