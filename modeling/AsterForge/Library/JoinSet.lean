import Mathlib.Data.List.Perm.Basic

/-!
# Sets of spawned futures

A set owns the futures that were spawned into it.  A future runs on its own until it ends, with an output, by a
panic or because it was aborted; it stays in the set until it is joined, whenever it has ended.

* `Spawned`, `JoinSet` — a future, and a set of them with its history: what was spawned, what has ended, and
  what was joined.
* `JoinSet.spawn`, `settle`, `joinNext`, `discardNext` — a future is added, ends, and is taken out, for what
  it has come to or to be rid of it.
* **`JoinSet.spawned_perm`** — whatever was spawned was joined, was discarded or is in the set, once.
-/

namespace AsterForge.Library

open List Option

/-- Why a future has ended without an output. -/
inductive JoinError
  | panic
  | canceled

variable {ι α : Type}

structure Spawned (ι α : Type) where
  input : ι
  output : Option (Except JoinError α)

/-- The futures of a set, and its history: what futures were spawned for, how they ended, which were joined and
which were discarded. -/
structure JoinSet (ι α : Type) where
  futures : List (Spawned ι α)
  spawned : List ι
  ended : List (ι × Except JoinError α)
  joined : List (ι × Except JoinError α)
  discarded : List ι
  spawned_perm : spawned.Perm (joined.map Prod.fst ++ discarded ++ futures.map Spawned.input)

namespace JoinSet

def empty : JoinSet ι α where
  futures := []
  spawned := []
  ended := []
  joined := []
  discarded := []
  spawned_perm := .nil

def len (set : JoinSet ι α) : ℕ := set.futures.length

def isEmpty (set : JoinSet ι α) : Bool := set.futures.isEmpty

/-- A future is added; it has not ended. -/
def spawn (set : JoinSet ι α) (input : ι) : JoinSet ι α where
  futures := set.futures ++ [⟨input, none⟩]
  spawned := set.spawned ++ [input]
  ended := set.ended
  joined := set.joined
  discarded := set.discarded
  spawned_perm := by
    rw [map_append, ← append_assoc]
    exact set.spawned_perm.append_right _

/-- The futures in which the one at an index has ended, and what it was spawned for, if it was running. -/
def settled (output : Except JoinError α) : List (Spawned ι α) → ℕ → Option (ι × List (Spawned ι α))
  | [], _ => none
  | future :: futures, 0 =>
    match future.output with
    | none => some (future.input, ⟨future.input, some output⟩ :: futures)
    | some _ => none
  | future :: futures, index + 1 =>
    (settled output futures index).map fun (input, futures) => (input, future :: futures)

/-- The future that is taken out, what it has come to, and the others, if the one at an index has ended. -/
def taken : List (Spawned ι α) → ℕ → Option (ι × Except JoinError α × List (Spawned ι α))
  | [], _ => none
  | future :: futures, 0 => future.output.map fun output => (future.input, output, futures)
  | future :: futures, index + 1 =>
    (taken futures index).map fun (input, output, futures) => (input, output, future :: futures)

variable {output : Except JoinError α} {i : ℕ} {input : ι} {futures f' : List (Spawned ι α)}

lemma map_input_settled (h : settled output futures i = some (input, f')) :
    f'.map Spawned.input = futures.map Spawned.input := by
  induction futures generalizing i input f' with
  | nil => simp [settled] at h
  | cons f futures ih =>
    cases i with
    | zero =>
      simp only [settled] at h
      split at h
      · cases h
        rfl
      · cases h
    | succ i =>
      simp only [settled, map_eq_some_iff, Prod.exists, Prod.mk.injEq] at h
      obtain ⟨_, r, hr, rfl, rfl⟩ := h
      rw [map_cons, map_cons, ih hr]

lemma perm_taken (h : taken futures i = some (input, output, f')) :
    (futures.map Spawned.input).Perm (input :: f'.map Spawned.input) := by
  induction futures generalizing i f' with
  | nil => simp [taken] at h
  | cons f futures ih =>
    cases i with
    | zero =>
      simp only [taken, map_eq_some_iff, Prod.mk.injEq] at h
      obtain ⟨_, _, rfl, _, rfl⟩ := h
      exact .refl _
    | succ i =>
      simp only [taken, map_eq_some_iff, Prod.exists, Prod.mk.injEq] at h
      obtain ⟨_, _, r, hr, rfl, rfl, rfl⟩ := h
      exact ((ih hr).cons _).trans (.swap _ _ _)

lemma perm_of_taken {s out all r : List ι} (h : s.Perm (out ++ all))
    (ht : all.Perm (input :: r)) : s.Perm (input :: (out ++ r)) := by
  have hmoved : (out ++ all).Perm (out ++ input :: r) := ht.append_left out
  exact h.trans (hmoved.trans perm_middle)

/-- A future ends. -/
def settle (set : JoinSet ι α) (index : ℕ) (output : Except JoinError α) : Option (JoinSet ι α) :=
  match h : settled output set.futures index with
  | none => none
  | some (input, futures) => some {
      futures := futures
      spawned := set.spawned
      ended := set.ended ++ [(input, output)]
      joined := set.joined
      discarded := set.discarded
      spawned_perm := by
        rw [map_input_settled h]
        exact set.spawned_perm }

/-- A future that has ended is taken out for what it has come to. -/
def joinNext (set : JoinSet ι α) (index : ℕ) : Option (ι × Except JoinError α × JoinSet ι α) :=
  match h : taken set.futures index with
  | none => none
  | some (input, output, futures) => some (input, output, {
      futures := futures
      spawned := set.spawned
      ended := set.ended
      joined := set.joined ++ [(input, output)]
      discarded := set.discarded
      spawned_perm := by
        simp only [map_append, map_cons, map_nil, append_assoc, singleton_append]
        refine (perm_of_taken set.spawned_perm (perm_taken h)).trans ?_
        rw [append_assoc]
        exact perm_middle.symm })

/-- A future that has ended is taken out, and what it has come to is forgotten. -/
def discardNext (set : JoinSet ι α) (index : ℕ) : Option (JoinSet ι α) :=
  match h : taken set.futures index with
  | none => none
  | some (input, _, futures) => some {
      futures := futures
      spawned := set.spawned
      ended := set.ended
      joined := set.joined
      discarded := set.discarded ++ [input]
      spawned_perm := by
        rw [← append_assoc, append_assoc _ [input], singleton_append]
        exact (perm_of_taken set.spawned_perm (perm_taken h)).trans perm_middle.symm }

/-! ## What the operations do -/

@[simp] lemma len_spawn (set : JoinSet ι α) (ip : ι) : (set.spawn ip).len = set.len + 1 := by
  simp [len, spawn]

@[simp] lemma spawned_spawn (set : JoinSet ι α) (ip : ι) : (set.spawn ip).spawned = set.spawned ++ [ip] := rfl

@[simp] lemma joined_spawn (set : JoinSet ι α) (ip : ι) : (set.spawn ip).joined = set.joined := rfl

@[simp] lemma discarded_spawn (set : JoinSet ι α) (ip : ι) : (set.spawn ip).discarded = set.discarded := rfl

lemma isEmpty_iff (set : JoinSet ι α) : set.isEmpty = true ↔ set.len = 0 := by
  rw [isEmpty, List.isEmpty_iff, len, List.length_eq_zero_iff]

variable {set set' : JoinSet ι α}

lemma settle_eq_some (h : set.settle i output = some set') :
    set'.len = set.len ∧ set'.spawned = set.spawned ∧ set'.joined = set.joined ∧
      set'.discarded = set.discarded := by
  unfold settle at h
  split at h
  · cases h
  · rename_i input futures hsettl
    cases h
    have hlen := congrArg length (map_input_settled hsettl)
    simp only [length_map] at hlen
    exact ⟨hlen, rfl, rfl, rfl⟩

lemma joinNext_eq_some (h : set.joinNext i = some (input, output, set')) :
    set.len = set'.len + 1 ∧ set'.spawned = set.spawned ∧
      set'.joined = set.joined ++ [(input, output)] ∧ set'.discarded = set.discarded := by
  unfold joinNext at h
  split at h
  · cases h
  · rename_i hsettl
    cases h
    have hlen := (perm_taken hsettl).length_eq
    simp only [length_cons, length_map] at hlen
    exact ⟨hlen, rfl, rfl, rfl⟩

lemma discardNext_eq_some (h : set.discardNext i = some set') :
    set.len = set'.len + 1 ∧ set'.spawned = set.spawned ∧ set'.joined = set.joined ∧
      set'.discarded.length = set.discarded.length + 1 := by
  unfold discardNext at h
  split at h
  · cases h
  · rename_i hsettl
    cases h
    have hlen := (perm_taken hsettl).length_eq
    simp only [length_cons, length_map] at hlen
    exact ⟨hlen, rfl, rfl, length_append⟩

/-- **Nothing is lost.**  What was spawned was joined, was discarded or is in the set. -/
theorem length_spawned (set : JoinSet ι α) :
    set.spawned.length = set.joined.length + set.discarded.length + set.len := by
  have h := set.spawned_perm.length_eq
  rw [length_append, length_append, length_map, length_map] at h
  exact h

end JoinSet

end AsterForge.Library
