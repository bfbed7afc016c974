import Mathlib.Control.Monad.Basic
import Mathlib.Data.List.Forall2

/-!
# Checked computations

A function that validates its inputs is a sequence of checks, each of which returns early with an
error.  Here such a sequence is a computation in `Except`, and these are the facts that take it
apart: a computation has a value exactly if each of its checks passes.
-/

namespace AsterForge.Library

open List Except

universe v

variable {ε : Type*} {α β : Type v}

@[simp] lemma ok_bind (a : α) (f : α → Except ε β) : (ok a >>= f) = f a := rfl

@[simp] lemma except_error_bind (e : ε) (f : α → Except ε β) : (error e >>= f) = .error e := rfl

@[simp] lemma except_pure (a : α) : (pure a : Except ε α) = .ok a := rfl

variable {x : Except ε α} {f : α → Except ε β}

lemma bind_eq_ok {b : β} : (x >>= f) = .ok b ↔ ∃ a, x = .ok a ∧ f a = .ok b := by
  cases x <;> simp

lemma except_toOption_eq_some {a : α} : x.toOption = some a ↔ x = .ok a := by
  cases x <;> simp [Except.toOption]

variable {e : ε}

lemma bind_eq_error : (x >>= f) = .error e ↔ x = .error e ∨ ∃ a, x = .ok a ∧ f a = .error e := by
  cases x <;> simp

lemma exists_unit {p : Unit → Prop} : (∃ u, p u) ↔ p () :=
  ⟨fun ⟨_, h⟩ => h, fun h => ⟨(), h⟩⟩

def refuse (condition : Prop) [Decidable condition] (error : ε) : Except ε Unit :=
  if condition then .error error else .ok ()

section

variable {c : Prop} [Decidable c] {er : ε}

lemma refuse_eq_ok {u : Unit} : refuse c er = .ok u ↔ ¬ c := by
  unfold refuse
  split <;> simp_all

lemma refuse_eq_error {e : ε} : refuse c er = .error e ↔ c ∧ er = e := by
  unfold refuse
  split <;> simp_all

@[simp] lemma refuse_of_not (h : ¬ c) : refuse c er = .ok () := if_neg h

@[simp] lemma refuse_of (h : c) : refuse c er = .error er := if_pos h

end

def okOr (error : ε) : Option α → Except ε α
  | some a => .ok a
  | none => .error error

variable {error : ε}

@[simp] lemma okOr_some (a : α) : okOr error (some a) = .ok a := rfl

@[simp] lemma okOr_none : okOr error (none : Option α) = .error error := rfl

variable {o : Option α} {a : α}

lemma okOr_eq_ok : okOr error o = .ok a ↔ o = some a := by
  cases o <;> simp

lemma okOr_eq_error : okOr error o = .error e ↔ o = none ∧ error = e := by
  cases o <;> simp

lemma except_mapError_eq_ok {ε' : Type*} {f : ε → ε'} : x.mapError f = .ok a ↔ x = .ok a := by
  cases x with
  | ok b => simp [Except.mapError]
  | error e => simp [Except.mapError]

lemma except_forM_eq_ok {γ : Type*} {f : γ → Except ε PUnit.{v + 1}} {xs : List γ} :
    xs.forM f = .ok ⟨⟩ ↔ ∀ x ∈ xs, f x = .ok ⟨⟩ := by
  induction xs with
  | nil => exact iff_of_true rfl fun x hx => nomatch hx
  | cons x xs ih =>
    simp only [forM_eq_forM] at ih ⊢
    rw [forM_cons, bind_eq_ok, forall_mem_cons, ← ih]
    constructor
    · rintro ⟨_, hx, hxs⟩
      exact ⟨hx, hxs⟩
    · rintro ⟨hx, hxs⟩
      exact ⟨_, hx, hxs⟩

lemma exists_error_of_forM {γ : Type*} {f : γ → Except ε PUnit.{v + 1}} {xs : List γ}
    (h : xs.forM f = .error e) : ∃ x ∈ xs, f x = .error e := by
  induction xs with
  | nil => cases h
  | cons x xs ih =>
    rcases bind_eq_error.mp h with hx | ⟨_, -, hxs⟩
    · exact ⟨x, mem_cons_self, hx⟩
    · obtain ⟨y, hy, he⟩ := ih hxs
      exact ⟨y, mem_cons_of_mem x hy, he⟩

lemma foldlM_mapError {ε' γ : Type*} {g : ε → ε'} {f : α → γ → Except ε α} (xs : List γ) (a : α) :
    xs.foldlM (fun a x => (f a x).mapError g) a = (xs.foldlM f a).mapError g := by
  induction xs generalizing a with
  | nil => rfl
  | cons x xs ih =>
    rw [foldlM_cons, foldlM_cons]
    cases f a x with
    | error e => rfl
    | ok next => exact ih next

/-- A checked computation for every element: each of them gives a value, and these are the values. -/
lemma mem_of_mapM_eq_ok {f : α → Except ε β} : ∀ {xs : List α} {ys : List β}, xs.mapM f = .ok ys →
    (∀ y, y ∈ ys ↔ ∃ x ∈ xs, f x = .ok y) ∧ ∀ x ∈ xs, ∃ y, f x = .ok y
  | [], ys, h => by
    cases h
    simp
  | x :: xs, ys, h => by
    simp only [mapM_cons, bind_eq_ok, except_pure, ok.injEq] at h
    obtain ⟨y, hy, rest, hr, rfl⟩ := h
    obtain ⟨hm, hv⟩ := mem_of_mapM_eq_ok hr
    constructor
    · intro z
      rw [mem_cons, hm]
      constructor
      · rintro (rfl | ⟨a, ha, hz⟩)
        · exact ⟨x, mem_cons_self, hy⟩
        · exact ⟨a, mem_cons_of_mem _ ha, hz⟩
      · rintro ⟨a, ha, hz⟩
        rcases mem_cons.mp ha with rfl | ha
        · exact .inl (ok.inj (hz.symm.trans hy))
        · exact .inr ⟨a, ha, hz⟩
    · intro z hz
      rcases mem_cons.mp hz with rfl | hz
      · exact ⟨y, hy⟩
      · exact hv z hz

lemma mapM_eq_ok_iff {f : α → Except ε β} : ∀ {xs : List α} {ys : List β},
    xs.mapM f = .ok ys ↔ List.Forall₂ (fun x y => f x = .ok y) xs ys
  | [], ys => by
    simp only [mapM_nil, except_pure, ok.injEq, forall₂_nil_left_iff]
    exact eq_comm
  | x :: xs, ys => by
    simp only [mapM_cons, bind_eq_ok, except_pure, ok.injEq, forall₂_cons_left_iff, mapM_eq_ok_iff]
    constructor
    · rintro ⟨y, hy, rest, hr, rfl⟩
      exact ⟨y, rest, hy, hr, rfl⟩
    · rintro ⟨y, rest, hy, hr, rfl⟩
      exact ⟨y, hy, rest, hr, rfl⟩

lemma exists_of_mapM_eq_error {f : α → Except ε β} {e : ε} : ∀ {xs : List α},
    xs.mapM f = .error e → ∃ x ∈ xs, f x = .error e
  | [], h => by cases h
  | x :: xs, h => by
    simp only [mapM_cons, bind_eq_error, except_pure, reduceCtorEq, and_false, exists_false, or_false] at h
    rcases h with hx | ⟨y, -, hxs⟩
    · exact ⟨x, mem_cons_self, hx⟩
    · obtain ⟨x', hm, hx'⟩ := exists_of_mapM_eq_error hxs
      exact ⟨x', mem_cons_of_mem _ hm, hx'⟩

end AsterForge.Library
