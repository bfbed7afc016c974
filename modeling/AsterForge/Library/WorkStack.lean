import Mathlib.Data.List.Basic
import Mathlib.Order.Nat

/-!
# Recursion on an explicit stack

A recursive function that keeps its own stack puts on it what it still has to do: items that start
something, and for every frame that is open an item that closes it.  A frame is a number; it knows the
frame it was opened in, which has a smaller number.  What an item is for is whose item it is: an item
that starts something belongs to the frame it was put there by, an item that closes a frame to that
frame's parent.

* **`Stacked.lt_of_closes`** — below the item that closes a frame, there is nothing of it or of a later
  frame.
* **`Stacked.settled_below`** — a failure that every frame hands to its parent has reached the frame
  that is about to be closed, wherever below it happened.
-/

namespace AsterForge.Library

open List

variable {ω : Type*}

/-- A stack of work: `starts` is the frame of an item that starts something, `closes` the frame that
an item closes. -/
inductive Stacked (starts : ω → Option ℕ) (closes : ω → Option ℕ) (parent : ℕ → Option ℕ) :
    Option ℕ → List ω → Prop
  | nil : Stacked starts closes parent none []
  | start {innermost : Option ℕ} {item : ω} {work : List ω} (hcloses : closes item = none)
      (hstarts : starts item = innermost) (hrest : Stacked starts closes parent innermost work) :
      Stacked starts closes parent innermost (item :: work)
  | close {frame : ℕ} {item : ω} {work : List ω} (hcloses : closes item = some frame)
      (hparent : ∀ outer ∈ parent frame, outer < frame)
      (hrest : Stacked starts closes parent (parent frame) work) :
      Stacked starts closes parent (some frame) (item :: work)

def owner (starts : ω → Option ℕ) (closes : ω → Option ℕ) (parent : ℕ → Option ℕ) (item : ω) : Option ℕ :=
  match closes item with
  | some frame => parent frame
  | none => starts item

namespace Stacked

variable {s c : ω → Option ℕ} {p p' : ℕ → Option ℕ} {inn : Option ℕ} {w : List ω}

lemma le_innermost (h : Stacked s c p inn w) {i : ω} (hm : i ∈ w) :
    ∀ f, owner s c p i = some f ∨ c i = some f → ∃ top, inn = some top ∧ f ≤ top := by
  induction h with
  | nil => cases hm
  | @start inn first w hc hs _ ih =>
    intro f hf
    rcases mem_cons.mp hm with rfl | hm
    · rcases hf with ho | hcl
      · rw [owner, hc, hs] at ho
        exact ⟨f, ho, le_rfl⟩
      · cases hc.symm.trans hcl
    · exact ih hm f hf
  | @close top first w hc hp _ ih =>
    intro f hf
    refine ⟨top, rfl, ?_⟩
    rcases mem_cons.mp hm with rfl | hm
    · rcases hf with ho | hcl
      · rw [owner, hc] at ho
        exact (hp f ho).le
      · cases hc.symm.trans hcl
        exact le_rfl
    · obtain ⟨o, hot, hle⟩ := ih hm f hf
      exact hle.trans (hp o hot).le

lemma open_of_owner (h : Stacked s c p inn w) {f : ℕ} (how : inn = some f ∨ ∃ i ∈ w, owner s c p i = some f) :
    ∃ i ∈ w, c i = some f := by
  induction h with
  | nil =>
    rcases how with hn | ⟨i, hm, -⟩
    · cases hn
    · cases hm
  | @start inn first w hc hs _ ih =>
    have hi : inn = some f ∨ ∃ i ∈ w, owner s c p i = some f := by
      rcases how with hi | ⟨i, hm, ho⟩
      · exact .inl hi
      · rcases mem_cons.mp hm with rfl | hm
        · rw [owner, hc, hs] at ho
          exact .inl ho
        · exact .inr ⟨i, hm, ho⟩
    obtain ⟨i, hm, hit⟩ := ih hi
    exact ⟨i, mem_cons_of_mem _ hm, hit⟩
  | @close top first w hc _ _ ih =>
    by_cases htop : f = top
    · exact ⟨first, mem_cons_self, htop ▸ hc⟩
    · have houter : p top = some f ∨ ∃ i ∈ w, owner s c p i = some f := by
        rcases how with hi | ⟨i, hm, ho⟩
        · exact absurd (Option.some.inj hi).symm htop
        · rcases mem_cons.mp hm with rfl | hm
          · rw [owner, hc] at ho
            exact .inl ho
          · exact .inr ⟨i, hm, ho⟩
      obtain ⟨i, hm, hit⟩ := ih houter
      exact ⟨i, mem_cons_of_mem _ hm, hit⟩

lemma tail {i : ω} (h : Stacked s c p inn (i :: w)) : Stacked s c p (owner s c p i) w := by
  cases h with
  | start hc hs hr => rwa [owner, hc, hs]
  | close hc _ hr => rwa [owner, hc]

/-- **Below the item that closes a frame** there is nothing of it or of a later frame. -/
theorem lt_of_closes {i : ω} {f : ℕ} (h : Stacked s c p inn (i :: w))
    (hc : c i = some f) {o : ω} (hm : o ∈ w) {f' : ℕ} (hot : owner s c p o = some f' ∨ c o = some f') :
    f' < f := by
  cases h with
  | start hn => cases hc.symm.trans hn
  | close hs hp hr =>
    cases hc.symm.trans hs
    obtain ⟨ot, ho, hle⟩ := hr.le_innermost hm f' hot
    exact hle.trans_lt (hp ot ho)

lemma congr (h : Stacked s c p inn w) (hp : ∀ i ∈ w, ∀ f, c i = some f → p' f = p f) : Stacked s c p' inn w := by
  induction h with
  | nil => exact .nil
  | start hc hs _ ih =>
    exact .start hc hs (ih fun i hm => hp i (mem_cons_of_mem _ hm))
  | close hc ho _ ih =>
    have hsame := hp _ mem_cons_self _ hc
    refine .close hc (hsame ▸ ho) ?_
    rw [hsame]
    exact ih fun i hm => hp i (mem_cons_of_mem _ hm)

lemma append (h : Stacked s c p inn w) {i : List ω} (hi : ∀ it ∈ i, c it = none ∧ s it = inn) :
    Stacked s c p inn (i ++ w) := by
  induction i with
  | nil => exact h
  | cons it i ih =>
    obtain ⟨hc, hs⟩ := hi it mem_cons_self
    exact .start hc hs (ih fun o hm => hi o (mem_cons_of_mem _ hm))

/-- **A new frame**: its items, and the item that closes it. -/
lemma push {f : ℕ} {l : ω} {i : List ω} (h : Stacked s c p (p f) w)
    (hp : ∀ o ∈ p f, o < f) (hl : c l = some f) (hi : ∀ it ∈ i, c it = none ∧ s it = some f) :
    Stacked s c p (some f) (i ++ l :: w) :=
  (Stacked.close hl hp h).append hi

end Stacked

/-! ## Frames below a frame -/

def Below (opened : ℕ → ℕ → Prop) : ℕ → ℕ → Prop := Relation.ReflTransGen opened

lemma Below.mono {o o' : ℕ → ℕ → Prop} (hs : ∀ ot i, o ot i → o' ot i) {ot i : ℕ}
    (h : Below o ot i) : Below o' ot i :=
  Relation.ReflTransGen.mono hs _ _ h

lemma Below.le {op : ℕ → ℕ → Prop} (ho : ∀ o i, op o i → o < i) {o i : ℕ} (h : Below op o i) : o ≤ i := by
  induction h with
  | refl => exact le_rfl
  | tail _ hs ih => exact ih.trans (ho _ _ hs).le

/-- **Failures on their way up.**  Where the frame that is about to be closed has not failed, no frame
below it has, and none of them has anything left on the stack. -/
theorem Stacked.settled_below {starts closes : ω → Option ℕ} {parent : ℕ → Option ℕ}
    {innermost : Option ℕ} {work : List ω} {it : ω} {f i : ℕ} {fl : ℕ → Prop}
    (he : ∀ i o, parent i = some o → o < i)
    (hh : ∀ i o, parent i = some o → fl i → fl o ∨ ∃ ot ∈ it :: work, closes ot = some i)
    (h : Stacked starts closes parent innermost (it :: work)) (hc : closes it = some f)
    (hf : ¬ fl f) (hb : Below (fun o i => parent i = some o) f i) :
    ¬ fl i ∧ ∀ ot ∈ work, owner starts closes parent ot ≠ some i := by
  have hle : ∀ {i}, Below (fun o i => parent i = some o) f i → f ≤ i := fun hb => hb.le fun o i => he i o
  refine ⟨?_, ?_⟩
  · induction hb with
    | refl => exact hf
    | @tail o i hb hs ih =>
      intro hi
      rcases hh i o hs hi with hot | ⟨ot, hm, ho⟩
      · exact ih hot
      · -- a frame below is later, and the stack closes only earlier ones
        have hlater := hle hb
        have hstrict := he i o hs
        rcases mem_cons.mp hm with rfl | hm
        · cases hc.symm.trans ho
          omega
        · have hlt := h.lt_of_closes hc hm (.inr ho)
          omega
  · intro ot hm how
    have hlt := h.lt_of_closes hc hm (.inl how)
    have hlater := hle hb
    omega

end AsterForge.Library
