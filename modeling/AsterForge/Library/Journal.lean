import Mathlib.Data.Option.Basic

/-!
# Records that only move forward

A durable record is written by several parties, each of which holds a copy it loaded at some time.
What they can rely on is an order on records: every write keeps the record or moves it to a later
one.  The order is any reflexive and transitive relation.

* **`StoredLater.mono`** — what a party holds stays behind the stored record, whoever writes.
-/

namespace AsterForge.Library

variable {ρ : Type*} (later : ρ → ρ → Prop) (P : ρ → Prop)

def StoredLater (held : ρ) (record : Option ρ) : Prop := ∃ current ∈ record, later held current

def RecordLater (record record' : Option ρ) : Prop :=
  ∀ held ∈ record, StoredLater later held record'

/-- A write moves the stored record forward, to one with the property. -/
structure Advances (record record' : Option ρ) : Prop where
  later : RecordLater later record record'
  stored : ∀ current ∈ record', P current

variable {later P}

lemma StoredLater.of_eq [Std.Refl later] {hl : ρ} {r : Option ρ} (h : r = some hl) : StoredLater later hl r :=
  ⟨hl, h, Std.Refl.refl hl⟩

lemma RecordLater.refl [Std.Refl later] (r : Option ρ) : RecordLater later r r :=
  fun _ hh => .of_eq hh

/-- **A copy stays behind the stored record.** -/
theorem StoredLater.mono [IsTrans ρ later] {hl : ρ} {r r' : Option ρ}
    (h : StoredLater later hl r) (hlt : RecordLater later r r') : StoredLater later hl r' := by
  obtain ⟨c, hc, hle⟩ := h
  obtain ⟨c', hc', hle'⟩ := hlt c hc
  exact ⟨c', hc', IsTrans.trans _ _ _ hle hle'⟩

lemma RecordLater.trans [IsTrans ρ later] {rc rr r : Option ρ}
    (h : RecordLater later rc rr) (h' : RecordLater later rr r) : RecordLater later rc r :=
  fun hl hh => (h hl hh).mono h'

lemma Advances.refl [Std.Refl later] {r : Option ρ} (h : ∀ c ∈ r, P c) : Advances later P r r :=
  ⟨.refl r, h⟩

lemma Advances.write {c next : ρ} (hl : later c next) (hn : P next) : Advances later P (some c) (some next) := by
  refine ⟨fun h hh => ?_, fun r hr => ?_⟩
  · obtain rfl : c = h := Option.some.inj hh
    exact ⟨next, rfl, hl⟩
  · obtain rfl : next = r := Option.some.inj hr
    exact hn

lemma Advances.create {first : ρ} (hf : P first) : Advances later P none (some first) := by
  refine ⟨fun h hh => by simp at hh, fun r hr => ?_⟩
  obtain rfl : first = r := Option.some.inj hr
  exact hf

end AsterForge.Library
