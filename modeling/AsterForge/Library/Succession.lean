import Mathlib.Data.List.Chain
import Mathlib.Data.List.Nodup

/-!
# Values that succeed each other

A register is opened with a value, has its value replaced, and is closed.  Every value that is put into a
register is new: it was in none before, this one included.  What was ever replaced was then replaced once,
and the replacements in one register follow each other as the links of a chain.

* `Succession` — what was done to the registers, the latest first; `holds` — what a register holds then.
* **`Valid.consumed_nodup`** — a value is replaced at most once.
* **`Valid.replacements_chain`** — what a replacement takes out is what the one before it put in.
* **`Valid.not_replaced_after_closed`** — nothing is replaced in a register that was closed.
-/

namespace AsterForge.Library

open List

variable {κ ν : Type}

inductive SuccessionEntry (κ ν : Type)
  | opened (register : κ) (value : ν)
  | replaced (register : κ) (old new : ν)
  | closed (register : κ)

/-- What was done to the registers, the latest first. -/
abbrev Succession (κ ν : Type) := List (SuccessionEntry κ ν)

def SuccessionEntry.put : SuccessionEntry κ ν → Option ν
  | .opened _ value => some value
  | .replaced _ _ new => some new
  | .closed _ => none

def SuccessionEntry.taken : SuccessionEntry κ ν → Option ν
  | .replaced _ old _ => some old
  | .opened .. | .closed _ => none

def SuccessionEntry.opens : SuccessionEntry κ ν → Option κ
  | .opened register _ => some register
  | .replaced .. | .closed _ => none

namespace Succession

/-- Every value that was ever put into a register. -/
def placed (log : Succession κ ν) : List ν := log.filterMap SuccessionEntry.put

/-- Every value that was ever replaced. -/
def consumed (log : Succession κ ν) : List ν := log.filterMap SuccessionEntry.taken

def registered (log : Succession κ ν) : List κ := log.filterMap SuccessionEntry.opens

@[simp] lemma consumed_replaced (register : κ) (old new : ν) (log : Succession κ ν) :
    consumed (.replaced register old new :: log) = old :: consumed log := rfl

@[simp] lemma registered_opened (register : κ) (value : ν) (log : Succession κ ν) :
    registered (.opened register value :: log) = register :: registered log := rfl

lemma registered_close_all (log : Succession κ ν) (r : List κ) :
    registered (r.map .closed ++ log) = registered log := by
  induction r with
  | nil => rfl
  | cons register r ih => exact ih

lemma placed_close_all (log : Succession κ ν) (r : List κ) : placed (r.map .closed ++ log) = placed log := by
  induction r with
  | nil => rfl
  | cons register r ih => exact ih

lemma consumed_close_all (log : Succession κ ν) (r : List κ) : consumed (r.map .closed ++ log) = consumed log := by
  induction r with
  | nil => rfl
  | cons register r ih => exact ih

variable [DecidableEq κ]

@[simp] def holds (register : κ) : Succession κ ν → Option ν
  | [] => none
  | .opened other value :: log => if other = register then some value else holds register log
  | .replaced other _ new :: log => if other = register then some new else holds register log
  | .closed other :: log => if other = register then none else holds register log

/-- What was replaced in a register, with what replaced it, the latest first. -/
@[simp] def replacements (register : κ) : Succession κ ν → List (ν × ν)
  | [] => []
  | .replaced other old new :: log =>
    if other = register then (old, new) :: replacements register log else replacements register log
  | .opened .. :: log | .closed _ :: log => replacements register log

/-- Only what is held is replaced, and only by a value that was never in a register. -/
inductive Valid : Succession κ ν → Prop
  | nil : Valid []
  | opened {register : κ} {value : ν} {log : Succession κ ν} (fresh : register ∉ registered log)
      (unused : value ∉ placed log) (before : Valid log) : Valid (.opened register value :: log)
  | replaced {register : κ} {old new : ν} {log : Succession κ ν} (held : holds register log = some old)
      (unused : new ∉ placed log) (before : Valid log) : Valid (.replaced register old new :: log)
  | closed {register : κ} {log : Succession κ ν} (known : register ∈ registered log) (before : Valid log) :
      Valid (.closed register :: log)

/-! ## What is held -/

lemma holds_mem_placed {register : κ} {value : ν} {log : Succession κ ν}
    (h : holds register log = some value) : value ∈ placed log := by
  induction log with
  | nil => cases h
  | cons e log ih =>
    cases e with
    | opened o first | replaced o old new =>
      rw [holds] at h
      split at h
      · cases h
        exact mem_cons_self
      · exact mem_cons_of_mem _ (ih h)
    | closed o =>
      rw [holds] at h
      split at h
      · cases h
      · exact ih h

lemma replacements_unregistered {register : κ} {log : Succession κ ν} (h : Valid log)
    (hr : register ∉ registered log) : holds register log = none ∧ replacements register log = [] := by
  induction h with
  | nil => exact ⟨rfl, rfl⟩
  | opened _ _ _ ih =>
    rw [registered_opened, mem_cons, not_or] at hr
    rw [holds, if_neg fun h => hr.1 h.symm]
    exact ih hr.2
  | replaced hl _ _ ih =>
    rw [holds, replacements]
    split
    · next hsame =>
        rw [hsame, (ih hr).1] at hl
        cases hl
    · exact ih hr
  | closed _ _ ih =>
    rw [holds]
    split
    · exact ⟨rfl, (ih hr).2⟩
    · exact ih hr

namespace Valid

variable {log : Succession κ ν}

lemma consumed_subset_placed (h : Valid log) : consumed log ⊆ placed log := by
  induction h with
  | nil => exact List.Subset.refl _
  | opened _ _ _ ih => exact fun value hv => mem_cons_of_mem _ (ih hv)
  | replaced hl _ _ ih =>
    intro value hv
    rcases mem_cons.mp hv with rfl | hb
    · exact mem_cons_of_mem _ (holds_mem_placed hl)
    · exact mem_cons_of_mem _ (ih hb)
  | closed _ _ ih => exact ih

variable {rg : κ} {v : ν}

lemma holds_unique (h : Valid log) {o : κ} (hr : holds rg log = some v) (ho : holds o log = some v) : rg = o := by
  induction h with
  | nil => cases hr
  | opened _ unused _ ih | replaced _ unused _ ih =>
    rw [holds] at hr ho
    split at hr
    · split at ho
      · next hfirst hsnd => exact hfirst.symm.trans hsnd
      · cases hr
        exact absurd (holds_mem_placed ho) unused
    · split at ho
      · cases ho
        exact absurd (holds_mem_placed hr) unused
      · exact ih hr ho
  | closed _ _ ih =>
    rw [holds] at hr ho
    split at hr
    · cases hr
    · split at ho
      · cases ho
      · exact ih hr ho

lemma holds_not_consumed (h : Valid log) (hh : holds rg log = some v) : v ∉ consumed log := by
  induction h with
  | nil => cases hh
  | opened _ u b ih =>
    rw [holds] at hh
    split at hh
    · cases hh
      exact fun hc => u (b.consumed_subset_placed hc)
    · exact ih hh
  | replaced hl u b ih =>
    rw [holds] at hh
    rw [consumed_replaced, mem_cons, not_or]
    split at hh
    · cases hh
      refine ⟨?_, fun hc => u (b.consumed_subset_placed hc)⟩
      rintro rfl
      exact u (holds_mem_placed hl)
    · next hother =>
        refine ⟨?_, ih hh⟩
        rintro rfl
        exact hother (b.holds_unique hl hh)
  | closed _ _ ih =>
    rw [holds] at hh
    split at hh
    · cases hh
    · exact ih hh

/-- **A value is replaced at most once.** -/
theorem consumed_nodup (h : Valid log) : (consumed log).Nodup := by
  induction h with
  | nil => exact nodup_nil
  | opened _ _ _ ih => exact ih
  | replaced hl _ b ih => exact nodup_cons.mpr ⟨b.holds_not_consumed hl, ih⟩
  | closed _ _ ih => exact ih

/-! ## Chains -/

lemma head_replacements (h : Valid log) (hh : holds rg log = some v) :
    ∀ l ∈ (replacements rg log).head?, l.2 = v := by
  induction h with
  | nil => cases hh
  | @opened o first log f u b ih =>
    rw [holds] at hh
    rw [replacements]
    split at hh
    · next hsame =>
        have hnone : replacements rg log = [] :=
          (replacements_unregistered b (hsame ▸ f)).2
        rw [hnone]
        intro l hl
        cases hl
    · exact ih hh
  | @replaced o old new log hd u b ih =>
    rw [holds] at hh
    rw [replacements]
    split at hh
    · next hsame =>
        cases hh
        rw [if_pos hsame]
        rintro l ⟨⟩
        rfl
    · next hother =>
        rw [if_neg hother]
        exact ih hh
  | closed _ _ ih =>
    rw [holds] at hh
    split at hh
    · cases hh
    · exact ih hh

/-- **The replacements in a register form a chain**: each takes out what the one before it put in. -/
theorem replacements_chain (h : Valid log) (register : κ) :
    (replacements register log).IsChain fun l e => l.1 = e.2 := by
  induction h with
  | nil => exact .nil
  | opened _ _ _ ih => exact ih
  | @replaced o old new log hl u b ih =>
    rw [replacements]
    split
    · next hsame =>
        subst hsame
        rw [isChain_cons]
        exact ⟨fun e he => (b.head_replacements hl e he).symm, ih⟩
    · exact ih
  | closed _ _ ih => exact ih

/-! ## Closed registers -/

lemma registered_of_closed (h : Valid log) (hc : .closed rg ∈ log) : rg ∈ registered log := by
  induction h with
  | nil => cases hc
  | opened _ _ _ ih =>
    rcases mem_cons.mp hc with hf | hb
    · cases hf
    · exact mem_cons_of_mem _ (ih hb)
  | replaced _ _ _ ih =>
    rcases mem_cons.mp hc with hf | hb
    · cases hf
    · exact ih hb
  | closed k _ ih =>
    rcases mem_cons.mp hc with hf | hb
    · cases hf
      exact k
    · exact ih hb

lemma holds_of_closed (h : Valid log) (hc : .closed rg ∈ log) : holds rg log = none := by
  induction h with
  | nil => cases hc
  | opened f _ b ih =>
    rcases mem_cons.mp hc with hf | hb
    · cases hf
    · rw [holds, if_neg, ih hb]
      rintro rfl
      exact f (b.registered_of_closed hb)
  | replaced hl _ _ ih =>
    rcases mem_cons.mp hc with hf | hb
    · cases hf
    · rw [holds, if_neg, ih hb]
      rintro rfl
      rw [ih hb] at hl
      cases hl
  | closed _ _ ih =>
    rw [holds]
    split
    · rfl
    · next hother =>
        rcases mem_cons.mp hc with hf | hb
        · cases hf
          exact absurd rfl hother
        · exact ih hb

variable {l : Succession κ ν}

lemma of_append (h : Valid (l ++ log)) : Valid log := by
  induction l with
  | nil => exact h
  | cons e l ih =>
    cases h with
    | opened _ _ b => exact ih b
    | replaced _ _ b => exact ih b
    | closed _ b => exact ih b

/-- **Nothing is replaced in a register that was closed.** -/
theorem not_replaced_after_closed {old new : ν}
    (h : Valid (l ++ log)) (hc : .closed rg ∈ log) : .replaced rg old new ∉ l := by
  intro hm
  obtain ⟨a, b, rfl⟩ := append_of_mem hm
  rw [append_assoc] at h
  cases h.of_append with
  | replaced hl _ v =>
    rw [v.holds_of_closed (mem_append_right _ hc)] at hl
    cases hl

lemma close_all (h : Valid log) {r : List κ} (hk : r ⊆ registered log) : Valid (r.map .closed ++ log) := by
  induction r with
  | nil => exact h
  | cons rg r ih =>
    have hreg : rg ∈ registered (r.map .closed ++ log) := by
      rw [registered_close_all]
      exact hk mem_cons_self
    exact .closed hreg (ih fun o ho => hk (mem_cons_of_mem _ ho))

end Valid

variable (log : Succession κ ν)

lemma holds_close_all (r : List κ) (register : κ) :
    holds register (r.map .closed ++ log) = if register ∈ r then none else holds register log := by
  induction r with
  | nil => rfl
  | cons o r ih =>
    rw [map_cons, cons_append, holds, ih]
    by_cases hsame : o = register
    · rw [if_pos hsame, if_pos (hsame ▸ mem_cons_self)]
    · by_cases hmem : register ∈ r
      · rw [if_neg hsame, if_pos hmem, if_pos (mem_cons_of_mem _ hmem)]
      · rw [if_neg hsame, if_neg hmem, if_neg]
        rw [mem_cons, not_or]
        exact ⟨fun h => hsame h.symm, hmem⟩

lemma replacements_close_all (r : List κ) (register : κ) :
    replacements register (r.map .closed ++ log) = replacements register log := by
  induction r with
  | nil => rfl
  | cons o r ih => exact ih

end Succession

end AsterForge.Library
