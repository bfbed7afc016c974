import AsterForge.Library.Stateful
import Mathlib.Algebra.Group.Basic

/-!
# Computations on a budget

A computation that takes from a budget may fail because there is too little of it.  Some computations do so
for no other reason than that: with enough of a budget they come to one result and take one amount, whatever
else is there.

* `Affordable` — there is a budget with which a computation does not run out, and more than it changes nothing.
* **`Affordable.bind`**, `Affordable.foldlM`, `Affordable.forM` — what consists of such computations is one.
-/

namespace AsterForge.Library.Stateful

variable {β ε α γ : Type} {sp : γ → α → Stateful β ε γ}

lemma foldlM_congr {st' : γ → α → Stateful β ε γ} {i : List α} (h : ∀ a ∈ i, ∀ s, sp s a = st' s a) (s : γ) :
    i.foldlM sp s = i.foldlM st' s := by
  induction i generalizing s with
  | nil => rfl
  | cons a i ih =>
    rw [List.foldlM_cons, h a List.mem_cons_self s]
    refine congrArg _ (funext fun s => ?_)
    exact ih (fun b hb => h b (List.mem_cons_of_mem _ hb)) s

lemma except_ok_ne_error (a : α) (limit : ε) : (.ok a : Except ε α) ≠ .error limit := by
  intro h
  cases h

variable {limit : ε}

lemma except_bind_ne_error {x : Except ε α} {f : α → Except ε γ} (hx : x ≠ .error limit)
    (hf : ∀ a, f a ≠ .error limit) : (x >>= f) ≠ .error limit := by
  cases x with
  | error e =>
    intro h
    cases h
    exact hx rfl
  | ok a => exact hf a

/-! ## Running out -/

def Consumes (measure : β → ℕ) (limit : ε) (computation : Stateful β ε α) : Prop :=
  ∀ budget, (∃ budget', computation budget = (.error limit, budget')) ∨
    ∃ a budget', computation budget = (.ok a, budget') ∧ measure budget' ≤ measure budget

lemma consumes_pure (measure : β → ℕ) (limit : ε) (a : α) : Consumes measure limit (pure a : Stateful β ε α) :=
  fun budget => .inr ⟨a, budget, rfl, Nat.le_refl _⟩

variable {m : β → ℕ} {f : Stateful β ε α} {next : α → Stateful β ε γ}

lemma Consumes.bind (hf : Consumes m limit f) (hn : ∀ a, Consumes m limit (next a)) :
    Consumes m limit (f >>= next) := by
  intro b
  rcases hf b with ⟨b', hr⟩ | ⟨a, b', hr, hle⟩
  · exact .inl ⟨b', bind_of_error hr⟩
  · rw [bind_of_ok hr]
    rcases hn a b' with ⟨b'', hr'⟩ | ⟨c, b'', hr', hle'⟩
    · exact .inl ⟨b'', hr'⟩
    · exact .inr ⟨c, b'', hr', Nat.le_trans hle' hle⟩

variable {step : α → Stateful β ε Unit}

lemma Consumes.forM (hs : ∀ a, Consumes m limit (step a)) (i : List α) : Consumes m limit (i.forM step) := by
  induction i with
  | nil => exact consumes_pure m limit ()
  | cons a i ih => exact (hs a).bind fun _ => ih

lemma Consumes.error {limit e : ε} {b b' : β} (h : Consumes m limit f)
    (hr : f b = (.error e, b')) : e = limit := by
  rcases h b with ⟨_, hl⟩ | ⟨_, _, hok, -⟩
  · cases hl.symm.trans hr
    rfl
  · cases hok.symm.trans hr

/-! ## Enough of a budget -/

variable [AddCommMonoid β]

/-- With what a computation needs it does not fail for the limit; whatever is there besides, is left. -/
def Affordable (limit : ε) (computation : Stateful β ε α) : Prop :=
  ∃ need left : β, ∃ result : Except ε α, result ≠ .error limit ∧
    ∀ rest, computation (need + rest) = (result, left + rest)

variable {lm : ε}

lemma affordable_pure (a : α) : Affordable lm (pure a : Stateful β ε α) :=
  ⟨0, 0, .ok a, nofun, fun _ => rfl⟩

lemma affordable_look {l : β → Except ε α} (n : β) {r : Except ε α} (hl : r ≠ .error lm)
    (h : ∀ rs, l (n + rs) = r) : Affordable lm (fun b => (l b, b) : Stateful β ε α) := by
  refine ⟨n, n, r, hl, ?_⟩
  intro rs
  show (l (n + rs), n + rs) = (r, n + rs)
  rw [h rs]

/-- **A sequence** of affordable computations is affordable. -/
theorem Affordable.bind (hf : Affordable lm f)
    (hn : ∀ a, Affordable lm (next a)) : Affordable lm (f >>= next) := by
  obtain ⟨n, left, r, hl, hr⟩ := hf
  cases r with
  | error e =>
    refine ⟨n, left, .error e, ?_, ?_⟩
    · intro h
      cases h
      exact hl rfl
    · intro rs
      exact bind_of_error (hr rs)
  | ok a =>
    obtain ⟨n', l', r', hl', hr'⟩ := hn a
    refine ⟨n + n', l' + left, r', hl', ?_⟩
    intro rs
    have hf : f (n + n' + rs) = (.ok a, n' + (left + rs)) := by
      rw [add_assoc, hr, add_left_comm]
    rw [bind_of_ok hf, hr', add_assoc]

lemma Affordable.foldlM (hs : ∀ state a, Affordable lm (sp state a))
    (items : List α) (state : γ) : Affordable lm (items.foldlM sp state) := by
  induction items generalizing state with
  | nil => exact affordable_pure state
  | cons a items ih =>
    exact (hs state a).bind ih

lemma Affordable.forM (hs : ∀ a, Affordable lm (step a)) (items : List α) : Affordable lm (items.forM step) := by
  induction items with
  | nil => exact affordable_pure ()
  | cons a items ih => exact (hs a).bind fun _ => ih

end AsterForge.Library.Stateful
