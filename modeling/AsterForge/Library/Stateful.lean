import AsterForge.Library.Checks

/-!
# Computations on a state

A method that changes an object and may fail leaves the object as it was when the failure occurred: what
was changed before stays changed.  So it is a function from a state to a result together with a state.

* `Ensures` — what holds of a result, with a rule for sequences and one for folds.
* `Lockstep` — two computations on different states that give the same results and keep a relation
  between the states, with one rule for each way to build a computation.
-/

namespace AsterForge.Library

open List

/-- A computation on a state that may fail. -/
def Stateful (σ ε α : Type) : Type := σ → Except ε α × σ

namespace Stateful

variable {σ τ ε α β : Type}

instance : Monad (Stateful σ ε) where
  pure a := fun state => (.ok a, state)
  bind first next := fun state =>
    match first state with
    | (.ok a, state) => next a state
    | (.error error, state) => (.error error, state)

def lift (result : Except ε α) : Stateful σ ε α := fun state => (result, state)

lemma bind_apply (first : Stateful σ ε α) (next : α → Stateful σ ε β) (s : σ) :
    (first >>= next) s = match first s with
      | (.ok a, s) => next a s
      | (.error error, s) => (.error error, s) := rfl

variable {first : Stateful σ ε α} {next : α → Stateful σ ε β} {state m : σ}

lemma bind_of_ok {a : α} (h : first state = (.ok a, m)) : (first >>= next) state = next a m := by
  rw [bind_apply, h]

lemma bind_of_error {e : ε} (h : first state = (.error e, m)) : (first >>= next) state = (.error e, m) := by
  rw [bind_apply, h]

/-! ## What holds of the results -/

/-- Whatever a computation comes to, if it does not fail, has the property. -/
def Ensures (computation : Stateful σ ε α) (post : α → Prop) : Prop :=
  ∀ state a state', computation state = (.ok a, state') → post a

lemma ensures_pure {post : α → Prop} {a : α} (h : post a) : Ensures (pure a : Stateful σ ε α) post := by
  intro state b state' hr
  cases hr
  exact h

lemma Ensures.bind {mid : α → Prop} {p : β → Prop} (h : Ensures first mid)
    (hn : ∀ a, mid a → Ensures (next a) p) : Ensures (first >>= next) p := by
  intro state b s' hr
  rw [bind_apply] at hr
  cases hfirst : first state with
  | mk r m =>
    rw [hfirst] at hr
    cases r with
    | error e => cases hr
    | ok a => exact hn a (h state a m hfirst) m b s' hr

/-- By induction on what is left of the list: the invariant is about what is done and what has come of it. -/
lemma Ensures.foldlM {γ : Type} {s : β → γ → Stateful σ ε β} {inv : List γ → β → Prop} {i : List γ}
    (hs : ∀ d a b, a ∈ i → inv d b → Ensures (s b a) (inv (d ++ [a])))
    {d : List γ} {b : β} (h : inv d b) : Ensures (i.foldlM s b) (inv (d ++ i)) := by
  induction i generalizing d b with
  | nil =>
    rw [append_nil]
    exact ensures_pure h
  | cons a i ih =>
    rw [append_cons]
    refine (hs d a b mem_cons_self h).bind fun b' hb' => ih ?_ hb'
    intro d' a' b'' hm
    exact hs d' a' b'' (mem_cons_of_mem a hm)

lemma Ensures.foldlM_append {γ δ : Type} {s : β → γ → Stateful σ ε β} (r : β → List δ) (ad : γ → List δ)
    {i : List γ} (hs : ∀ b, ∀ a ∈ i, Ensures (s b a) fun b' => r b' = r b ++ ad a) (b : β) :
    Ensures (i.foldlM s b) fun b' => r b' = r b ++ i.flatMap ad := by
  induction i generalizing b with
  | nil => exact ensures_pure (append_nil _).symm
  | cons a i ih =>
    refine (hs b a mem_cons_self).bind fun b' hb' => ?_
    rw [flatMap_cons, ← append_assoc, ← hb']
    exact ih (fun b'' a' hm => hs b'' a' (mem_cons_of_mem a hm)) b'

/-! ## Two computations at once -/

/-- The same results, and related states again. -/
def Lockstep (related : σ → τ → Prop) (left : Stateful σ ε α) (right : Stateful τ ε α) : Prop :=
  ∀ first second, related first second →
    (left first).1 = (right second).1 ∧ related (left first).2 (right second).2

variable {rl : σ → τ → Prop}

lemma lockstep_pure (a : α) : Lockstep rl (pure a : Stateful σ ε α) (pure a : Stateful τ ε α) :=
  fun _ _ h => ⟨rfl, h⟩

lemma lockstep_lift (result : Except ε α) :
    Lockstep rl (lift result : Stateful σ ε α) (lift result : Stateful τ ε α) :=
  fun _ _ h => ⟨rfl, h⟩

lemma Lockstep.bind {left : Stateful σ ε α} {right : Stateful τ ε α} {nl : α → Stateful σ ε β}
    {nr : α → Stateful τ ε β} (h : Lockstep rl left right) (hn : ∀ a, Lockstep rl (nl a) (nr a)) :
    Lockstep rl (left >>= nl) (right >>= nr) := by
  intro first s hrl
  obtain ⟨hr, hs⟩ := h first s hrl
  rw [bind_apply, bind_apply]
  cases hleft : left first with
  | mk r state =>
    cases hright : right s with
    | mk r' st' =>
      rw [hleft, hright] at hr hs
      subst hr
      cases r with
      | ok a => exact hn a state st' hs
      | error e => exact ⟨rfl, hs⟩

lemma lockstep_forM {γ : Type} {left : γ → Stateful σ ε Unit} {right : γ → Stateful τ ε Unit}
    (h : ∀ a, Lockstep rl (left a) (right a)) (i : List γ) : Lockstep rl (i.forM left) (i.forM right) := by
  induction i with
  | nil => exact lockstep_pure ()
  | cons a i ih => exact (h a).bind fun _ => ih

end Stateful

end AsterForge.Library
