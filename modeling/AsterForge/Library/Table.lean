import Mathlib.Algebra.Order.Ring.Nat

/-!
# Tables with a primary key

What single statements of a database do to a table: each is atomic, whatever other statements run between
those of one client.
-/

namespace AsterForge.Library

open Function

universe u v

/-- Rows by their primary key. -/
abbrev Table (K : Type u) (R : Type v) := K → Option R

namespace Table

variable {K : Type u} {R : Type v} [DecidableEq K]

/-- `INSERT`, which is refused where the key exists. -/
def insertRow (table : Table K R) (key : K) (row : R) : Option (Table K R) :=
  match table key with
  | none => some (update table key (some row))
  | some _ => none

/-- `UPDATE` of the row of a key, if it meets a condition, with the number of rows it has met. -/
def updateWhere (table : Table K R) (key : K) (condition : R → Bool) (change : R → R) : Table K R × ℕ :=
  match table key with
  | none => (table, 0)
  | some row => if condition row then (update table key (some (change row)), 1) else (table, 0)

/-- `DELETE` of the row of a key, if it meets a condition. -/
def deleteWhere (table : Table K R) (key : K) (condition : R → Bool) : Table K R :=
  match table key with
  | none => table
  | some row => if condition row then update table key none else table

/-- A row behind a write is the one written, or was there before. -/
theorem update_eq_iff {table : K → R} {key o : K} {row row' : R} :
    update table key row o = row' ↔ o = key ∧ row = row' ∨ o ≠ key ∧ table o = row' := by
  rw [update_apply, ite_eq_iff]

/-- What holds of the row written, and of the others before, holds of every row behind a write. -/
theorem forall_update {table : Table K R} {key : K} {row : R} {P : K → R → Prop} (hr : P key row)
    (ho : ∀ o row', o ≠ key → table o = some row' → P o row') :
    ∀ o row', update table key (some row) o = some row' → P o row' := by
  intro o row' hr'
  obtain ⟨rfl, ⟨⟩⟩ | ⟨hne, hb⟩ := update_eq_iff.mp hr'
  · exact hr
  · exact ho o row' hne hb

variable {tb : Table K R} {key : K} {c : R → Bool} {ch : R → R}

lemma insertRow_eq_some {row : R} {t' : Table K R} (h : tb.insertRow key row = some t') :
    tb key = none ∧ t' = update tb key (some row) := by
  unfold insertRow at h
  split at h
  case h_1 habs => exact ⟨habs, (Option.some.inj h).symm⟩
  case h_2 => cases h

lemma updateWhere_of_met {row : R} (hr : tb key = some row) (hm : c row = true) :
    tb.updateWhere key c ch = (update tb key (some (ch row)), 1) := by
  simp [updateWhere, hr, hm]

lemma updateWhere_of_unmet (hu : ∀ row, tb key = some row → c row = false) :
    tb.updateWhere key c ch = (tb, 0) := by
  unfold updateWhere
  split
  case h_1 => rfl
  case h_2 row hrow => rw [if_neg (Bool.eq_false_iff.mp (hu row hrow))]

/-- An update meets its row, or there is none to meet. -/
theorem updateWhere_cases (table : Table K R) (key : K) (condition : R → Bool) (change : R → R) :
    (∃ row, table key = some row ∧ condition row = true ∧
      table.updateWhere key condition change = (update table key (some (change row)), 1)) ∨
    ((∀ row, table key = some row → condition row = false) ∧
      table.updateWhere key condition change = (table, 0)) := by
  by_cases hm : ∃ row, table key = some row ∧ condition row = true
  · obtain ⟨row, hr, hm⟩ := hm
    exact .inl ⟨row, hr, hm, updateWhere_of_met hr hm⟩
  · have hunmet : ∀ row, table key = some row → condition row = false := by
      intro row hr
      exact Bool.eq_false_iff.mpr fun hrw => hm ⟨row, hr, hrw⟩
    exact .inr ⟨hunmet, updateWhere_of_unmet hunmet⟩

/-- A deletion meets its row, or there is none to meet. -/
theorem deleteWhere_cases (table : Table K R) (key : K) (condition : R → Bool) :
    (∃ row, table key = some row ∧ condition row = true ∧
      table.deleteWhere key condition = update table key none) ∨
    ((∀ row, table key = some row → condition row = false) ∧ table.deleteWhere key condition = table) := by
  unfold deleteWhere
  cases hrow : table key with
  | none => exact .inr ⟨nofun, rfl⟩
  | some row =>
    cases hmet : condition row with
    | true => exact .inl ⟨row, rfl, hmet, if_pos hmet⟩
    | false =>
      refine .inr ⟨?_, if_neg (Bool.eq_false_iff.mp hmet)⟩
      rintro row' ⟨⟩
      exact hmet

end Table

/-! ## What a client sees -/

/-- How a statement ends for its client: it is answered, or it fails, before or after it took effect. -/
inductive Fate (E : Type u)
  | answered
  | failed (error : E) (tookEffect : Bool)

/-- The state behind a statement and its answer, from what the statement does. -/
def Fate.apply {E : Type u} {S R : Type*} (fate : Fate E) (before : S) (done : S × Except E R) :
    S × Except E R :=
  match fate with
  | .answered => done
  | .failed error tookEffect => (if tookEffect then done.1 else before, .error error)

def Fate.tookEffect {E : Type u} : Fate E → Bool
  | .answered => true
  | .failed _ tookEffect => tookEffect

lemma Fate.apply_fst {E : Type u} {S R : Type*} (f : Fate E) (b : S) (d : S × Except E R) :
    (f.apply b d).1 = if f.tookEffect then d.1 else b := by
  cases f with
  | answered => rfl
  | failed e te => rfl

/-- What a client is told, or that it is told nothing. -/
theorem Fate.apply_cases {E : Type u} {S R : Type*} (f : Fate E) (b : S) (d : S × Except E R) :
    f.apply b d = d ∨ ∃ e, f.apply b d = (b, .error e) ∨ f.apply b d = (d.1, .error e) := by
  cases f with
  | answered => exact .inl rfl
  | failed e te =>
    cases te with
    | true => exact .inr ⟨e, .inr rfl⟩
    | false => exact .inr ⟨e, .inl rfl⟩

end AsterForge.Library
