import Mathlib.Data.List.Forall2
import Mathlib.Order.Basic

/-!
# Runs of labelled step relations

Every component of this development is a system that takes one atomic step after another, so the
induction over runs is stated once, for an arbitrary step relation.

* **`Run.invariant`** — what one step preserves, a whole run preserves.
* `Reachable` and **`Reachable.induction`** — states reachable from an initial predicate; the step case
  has the reachability of the state it starts in.
* `Guarded` — the same system with some of its steps taken out; **`Run.harmless_iff_guarded`** is for
  conditions that are exact.
* **`Run.count_le_of_decreasing`** — a measure that no step increases bounds how often a run takes the
  steps that decrease it.
* **`Run.exists_done`** — what some step brings nearer its end, until there is nothing left to do, gets there.
* **`Run.simulates`** — a system each of whose steps is a run of another system is the other system as a
  whole.
* `execute` — a partial step *function* run over a list of labels; its results are runs.
-/

namespace AsterForge.Library

variable {σ α : Type*}

/-! ## Runs -/

/-- `Run step s labels t`: the system goes from `s` to `t` by taking the labelled steps in order. -/
inductive Run (step : σ → α → σ → Prop) : σ → List α → σ → Prop
  | nil (s : σ) : Run step s [] s
  | cons {s t u : σ} {a : α} {labels : List α} : step s a t → Run step t labels u → Run step s (a :: labels) u

namespace Run

variable {st s' : σ → α → σ → Prop} {s t : σ}

/-- Two runs that meet in a state compose. -/
theorem append {u : σ} {l₁ l₂ : List α} (h₁ : Run st s l₁ t) (h₂ : Run st t l₂ u) : Run st s (l₁ ++ l₂) u := by
  induction h₁ with
  | nil _ => exact h₂
  | cons hs _ ih => exact .cons hs (ih h₂)

variable {l : List α}

/-- A run extended by one step at its end. -/
theorem snoc {u : σ} {a : α} (h : Run st s l t) (hs : st t a u) : Run st s (l ++ [a]) u :=
  h.append (.cons hs (.nil u))

/-- A run of a system is a run of every system that can take at least the same steps. -/
theorem mono (hsb : ∀ s a t, st s a t → s' s a t) (h : Run st s l t) : Run s' s l t := by
  induction h with
  | nil s => exact .nil s
  | cons hs _ ih => exact .cons (hsb _ _ _ hs) ih

variable {I : σ → Prop}

/-- **The invariant rule.**  What every single step preserves, a run preserves. -/
theorem invariant (hsp : ∀ s a t, I s → st s a t → I t) (h : Run st s l t) (hs : I s) : I t := by
  induction h with
  | nil _ => exact hs
  | cons hst _ ih => exact ih (hsp _ _ _ hs hst)

/-- The rule for a preorder: what relates the two ends of every step from an invariant state
relates the two ends of a run. -/
theorem related {R : σ → σ → Prop} (hr : ∀ s, R s s) (ht : ∀ s t u, R s t → R t u → R s u)
    (hi : ∀ s a t, I s → st s a t → I t) (hsp : ∀ s a t, I s → st s a t → R s t)
    (h : Run st s l t) (hs : I s) : R s t := by
  induction h with
  | nil s => exact hr s
  | cons hst _ ih => exact ht _ _ _ (hsp _ _ _ hs hst) (ih (hi _ _ _ hs hst))

/-- **The termination rule.**  A measure that no step from an invariant state increases, and that
some steps decrease, bounds the number of those steps in a run. -/
theorem count_le_of_decreasing {P : α → Bool} (r : σ → ℕ) (hi : ∀ s a t, I s → st s a t → I t)
    (hm : ∀ s a t, I s → st s a t → r t ≤ r s) (hd : ∀ s a t, I s → P a = true → st s a t → r t < r s)
    (h : Run st s l t) (hs : I s) : l.countP P + r t ≤ r s := by
  induction h with
  | nil _ => simp
  | @cons s t u a l hst _ ih =>
    have hle := hm _ _ _ hs hst
    have hrest := ih (hi _ _ _ hs hst)
    by_cases ha : P a = true
    · have hlt := hd _ _ _ hs ha hst
      rw [List.countP_cons_of_pos ha]
      omega
    · rw [List.countP_cons_of_neg ha]
      omega

/-- **The progress rule.**  If, as long as the item of an index is not done, a step leaves one of smaller rank in
its place, a run leads to where it is done. -/
theorem exists_done {ρ : Type*} (items : σ → List ρ) (rank : ρ → ℕ) {D : ρ → Prop} {i : ℕ}
    (h : ∀ s r, (items s)[i]? = some r → ¬ D r →
      ∃ a t r', st s a t ∧ items t = (items s).set i r' ∧ rank r' < rank r)
    {s : σ} {r : ρ} (hs : (items s)[i]? = some r) :
    ∃ l t r', Run st s l t ∧ (items t)[i]? = some r' ∧ D r' := by
  induction hrank : rank r using Nat.strongRecOn generalizing s r with
  | ind n ih =>
    by_cases hdone : D r
    · exact ⟨[], s, r, .nil s, hs, hdone⟩
    · obtain ⟨a, t, r', hstep, ht, hless⟩ := h s r hs hdone
      have hnext : (items t)[i]? = some r' := by
        rw [ht, List.getElem?_set_self (List.getElem?_eq_some_iff.mp hs).1]
      obtain ⟨l, u, r'', hrun, hu⟩ := ih (rank r') (hrank ▸ hless) hnext rfl
      exact ⟨a :: l, u, r'', .cons hstep hrun, hu⟩

/-- **The simulation rule.**  If every step is a run of another system between the abstractions of its
ends, with labels that explain its own, then a whole run is one, with the explanations of its labels in
order. -/
theorem simulates {τ β : Type*} {sp : τ → β → τ → Prop} {Explains : α → List β → Prop} (abs : σ → τ)
    (hs : ∀ s a t, st s a t → ∃ ops, Explains a ops ∧ Run sp (abs s) ops (abs t)) (h : Run st s l t) :
    ∃ ops : List (List β), List.Forall₂ Explains l ops ∧ Run sp (abs s) ops.flatten (abs t) := by
  induction h with
  | nil s => exact ⟨[], .nil, .nil (abs s)⟩
  | cons hst _ ih =>
    obtain ⟨first, hf, hrn⟩ := hs _ _ _ hst
    obtain ⟨r, hrs, hr⟩ := ih
    exact ⟨first :: r, .cons hf hrs, hrn.append hr⟩

end Run

/-! ## Reachable states -/

/-- The states a system reaches from its initial ones. -/
def Reachable (init : σ → Prop) (step : σ → α → σ → Prop) (s : σ) : Prop :=
  ∃ s₀ labels, init s₀ ∧ Run step s₀ labels s

namespace Reachable

variable {i : σ → Prop} {sp : σ → α → σ → Prop} {s : σ}

/-- Initial states are reachable. -/
theorem of_init (h : i s) : Reachable i sp s :=
  ⟨s, [], h, .nil s⟩

/-- One more step stays within the reachable states. -/
theorem tail {t : σ} {a : α} (h : Reachable i sp s) (hs : sp s a t) : Reachable i sp t := by
  obtain ⟨s₀, l, h₀, hl⟩ := h
  exact ⟨s₀, l ++ [a], h₀, hl.snoc hs⟩

/-- **Induction over reachable states.**  The step case may use that the state it starts from is
itself reachable, and so every invariant proved before. -/
theorem induction {I : σ → Prop} (hi : ∀ s, i s → I s)
    (hsp : ∀ s a t, Reachable i sp s → I s → sp s a t → I t) (h : Reachable i sp s) : I s := by
  obtain ⟨s₀, l, h₀, hl⟩ := h
  have hboth : Reachable i sp s ∧ I s :=
    hl.invariant (I := fun s => Reachable i sp s ∧ I s)
      (fun _ _ _ hs hst => ⟨hs.1.tail hst, hsp _ _ _ hs.1 hs.2 hst⟩) ⟨of_init h₀, hi _ h₀⟩
  exact hboth.2

end Reachable

/-! ## Guarded systems -/

/-- The steps of a system that meet a condition on the state they start in and their label. -/
def Guarded (guard : σ → α → Prop) (step : σ → α → σ → Prop) (s : σ) (a : α) (t : σ) : Prop :=
  guard s a ∧ step s a t

variable {step : σ → α → σ → Prop} {g : σ → α → Prop}

/-- A run whose labels all meet a condition on labels alone is a run of the guarded system. -/
theorem Run.guarded {s t : σ} {l : List α}
    (h : Run step s l t) (hl : ∀ a ∈ l, ∀ s, g s a) : Run (Guarded g step) s l t := by
  induction h with
  | nil s => exact .nil s
  | cons hst _ ih =>
    exact .cons ⟨hl _ List.mem_cons_self _, hst⟩ (ih fun a ha => hl a (List.mem_cons_of_mem _ ha))

/-- **What goes wrong exactly where the guard is not met.**  If guarded steps keep an invariant, an
unguarded step from an invariant state does harm, and harm is never undone, then a run has done no
harm exactly if all its steps were guarded. -/
theorem Run.harmless_iff_guarded {I H : σ → Prop} (hk : ∀ s a t, I s → g s a → step s a t → I t)
    (hhr : ∀ s a t, I s → ¬ g s a → step s a t → H t)
    (hp : ∀ s a t, H s → step s a t → H t) (hgd : ∀ s, I s → ¬ H s)
    {s t : σ} {l : List α} (h : Run step s l t) (hs : I s) : ¬ H t ↔ Run (Guarded g step) s l t := by
  constructor
  · intro hh
    induction h with
    | nil s => exact .nil s
    | @cons s t u a l hst hr ih =>
      by_cases hguard : g s a
      · exact .cons ⟨hguard, hst⟩ (ih (hk _ _ _ hs hguard hst) hh)
      · exact absurd (hr.invariant hp (hhr _ _ _ hs hguard hst)) hh
  · intro hg
    exact hgd t (hg.invariant (fun s a t hs hst => hk s a t hs hst.1 hst.2) hs)

/-! ## Executing a step function -/

/-- Runs a partial step function over a list of labels, stopping at the first refused one. -/
def execute (next : σ → α → Option σ) : σ → List α → Option σ
  | s, [] => some s
  | s, a :: labels => (next s a).bind fun t => execute next t labels

/-- **What is executed is a run** of the step relation the function is the graph of. -/
theorem run_of_execute {next : σ → α → Option σ} {t : σ} :
    ∀ {lb : List α} {s : σ}, execute next s lb = some t → Run (fun s a t => next s a = some t) s lb t
  | [], s, h => by
    simp only [execute, Option.some.injEq] at h
    subst h
    exact .nil s
  | a :: lb, s, h => by
    obtain ⟨u, hu, hr⟩ := Option.bind_eq_some_iff.mp h
    exact .cons hu (run_of_execute hr)

/-- The steps of a step function that pass a check. -/
def restricted (passes : σ → α → Bool) (next : σ → α → Option σ) (s : σ) (a : α) : Option σ :=
  if passes s a then next s a else none

/-- What is executed with a check of every step is a run of the system guarded by what is checked. -/
theorem run_of_execute_restricted {next : σ → α → Option σ} {passes : σ → α → Bool} {s t : σ} {l : List α}
    (hc : ∀ s a, passes s a = true → g s a) (h : execute (restricted passes next) s l = some t) :
    Run (Guarded g fun s a t => next s a = some t) s l t := by
  refine (run_of_execute h).mono fun s a t hs => ?_
  rw [restricted] at hs
  split at hs
  · next hpasses => exact ⟨hc s a hpasses, hs⟩
  · cases hs

end AsterForge.Library
