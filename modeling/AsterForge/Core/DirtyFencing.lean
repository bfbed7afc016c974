import AsterForge.Core.EvictionGuard

/-!
# Fencing of dirty generations

`mark_dirty` compares a snapshot with the one the entry currently holds, so an older local
generation is fenced as long as the newer snapshot is there.  Clearing the newer snapshot removes
the only record of its generation, and a clean entry takes any snapshot.

* `MarksAdvance` — the condition: a snapshot taken by a clean entry is not older than the one the
  last `clear_dirty` removed.
* **`appliedGenerations_pairwise_iff`** — the generations of a run never go back exactly if the run
  meets the condition.
-/

namespace AsterForge.Core

open Option

namespace ContentStorageEntry

variable (entry : ContentStorageEntry)

/-- The generation that an operation is answered `Applied` for, when it marks the entry dirty. -/
def appliedGeneration : ContentEntryOp → Option ℕ
  | .markDirty snapshot =>
    if (entry.markDirty snapshot).1 = .ok .applied then some snapshot.generation.value else none
  | _ => none

def appliedGenerations : ContentStorageEntry → List ContentEntryOp → List ℕ
  | _, [] => []
  | entry, op :: ops =>
    (entry.appliedGeneration op).toList ++ appliedGenerations (entry.apply op) ops

def clearedGeneration : ContentEntryOp → Option ℕ
  | .clearDirty generation =>
    if entry.dirtySnapshot.map LocalContentSnapshot.generation = some generation then
      some generation.value
    else none
  | _ => none

def MarksClean (snapshot : LocalContentSnapshot) : Prop :=
  entry.evictionReserved = false ∧ snapshot.itemKey = entry.key.itemKey ∧ entry.dirtySnapshot = none

/-- **The condition**: whenever a clean entry takes a snapshot, it is not older than the one that
the last clearing removed.  `cleared` is the generation of that one, if there is any. -/
def MarksAdvance : ContentStorageEntry → Option ℕ → List ContentEntryOp → Prop
  | _, _, [] => True
  | entry, cleared, op :: ops =>
    (∀ snapshot, op = .markDirty snapshot → entry.MarksClean snapshot →
      ∀ generation ∈ cleared, generation ≤ snapshot.generation.value) ∧
    MarksAdvance (entry.apply op) ((entry.clearedGeneration op).or cleared) ops

/-! ## The latest generation -/

def latestGeneration (cleared : Option ℕ) : Option ℕ :=
  (entry.dirtySnapshot.map fun snapshot => snapshot.generation.value).or cleared

/-- What `mark_dirty` decides: a clean entry, or one with a strictly older snapshot, takes the new
one; everything else leaves the entry alone. -/
lemma markDirty_cases (s : LocalContentSnapshot) :
    ((entry.markDirty s).1 = .ok .applied ∧ (entry.markDirty s).2.dirtySnapshot = some s
        ∧ (entry.MarksClean s ∨ ∃ c, entry.dirtySnapshot = some c ∧ c.generation.value < s.generation.value))
      ∨ ((entry.markDirty s).1 ≠ .ok .applied ∧ (entry.markDirty s).2 = entry ∧ ¬ entry.MarksClean s) := by
  unfold markDirty
  by_cases hresv : entry.evictionReserved = true
  · exact .inr (by simp [hresv, MarksClean])
  rw [if_neg hresv]
  by_cases hitem : s.itemKey = entry.key.itemKey
  · rw [if_neg (not_not.mpr hitem)]
    cases hdirty : entry.dirtySnapshot with
    | none => exact .inl ⟨rfl, rfl, .inl ⟨Bool.eq_false_iff.mpr hresv, hitem, hdirty⟩⟩
    | some c =>
      have hclean : ¬ entry.MarksClean s := fun h => by simp [h.2.2] at hdirty
      dsimp only
      split_ifs with hsame holder hequal
      · exact .inr ⟨by simp, rfl, hclean⟩
      · exact .inr ⟨by simp, rfl, hclean⟩
      · exact .inr ⟨by simp, rfl, hclean⟩
      · refine .inl ⟨rfl, rfl, .inr ⟨c, rfl, ?_⟩⟩
        have hne : s.generation.value ≠ c.generation.value := by
          intro hv
          refine hequal ?_
          cases hsnap : s.generation
          cases hcurr : c.generation
          simpa only [hsnap, hcurr, LocalContentGeneration.mk.injEq] using hv
        omega
  · rw [if_pos hitem]
    exact .inr ⟨by simp, rfl, fun h => hitem h.2.1⟩

variable {e : ContentStorageEntry} {op : ContentEntryOp}

lemma dirtySnapshot_apply (hm : ∀ s, op ≠ .markDirty s) (hc : ∀ g, op ≠ .clearDirty g) :
    (e.apply op).dirtySnapshot = e.dirtySnapshot := by
  have heff := apply_effect e op
  generalize e.apply op = entry' at heff
  cases heff with
  | dirtied => exact absurd rfl (hm _)
  | cleaned => exact absurd rfl (hc _)
  | _ => rfl

lemma latestGeneration_clearDirty (g : LocalContentGeneration) (cl : Option ℕ) :
    (entry.clearDirty g).2.latestGeneration ((entry.clearedGeneration (.clearDirty g)).or cl)
      = entry.latestGeneration cl := by
  cases hdirty : entry.dirtySnapshot with
  | none => simp [clearDirty, clearedGeneration, latestGeneration, hdirty]
  | some c =>
    by_cases howner : c.generation = g
    · subst howner
      simp [clearDirty, clearedGeneration, latestGeneration, hdirty]
    · have hkept : (entry.clearDirty g).2 = entry := by
        simp only [clearDirty, hdirty]
        split_ifs with hlt hgt
        · rfl
        · rfl
        · refine absurd ?_ howner
          cases hcurr : c.generation
          cases g
          simp only [hcurr, LocalContentGeneration.mk.injEq] at hlt hgt ⊢
          omega
      simp [hkept, clearedGeneration, latestGeneration, hdirty, howner]

lemma latestGeneration_apply (h : e.appliedGeneration op = none) (c : Option ℕ) :
    (e.apply op).latestGeneration ((e.clearedGeneration op).or c) = e.latestGeneration c := by
  by_cases hmark : ∃ s, op = .markDirty s
  · obtain ⟨s, rfl⟩ := hmark
    rcases markDirty_cases e s with ⟨ha, -⟩ | ⟨-, hk, -⟩
    · simp [appliedGeneration, ha] at h
    · simp [apply, hk, clearedGeneration]
  by_cases hclear : ∃ g, op = .clearDirty g
  · obtain ⟨g, rfl⟩ := hclear
    exact latestGeneration_clearDirty e g c
  rw [not_exists] at hmark hclear
  have hnoth : e.clearedGeneration op = none := by
    cases op with
    | clearDirty g => exact absurd rfl (hclear g)
    | _ => rfl
  rw [hnoth, latestGeneration, dirtySnapshot_apply hmark hclear]
  rfl

/-! ## Runs -/

lemma pairwise_cons_latest {l : Option ℕ} {g : ℕ} {r : List ℕ} :
    (l.toList ++ g :: r).Pairwise (· ≤ ·) ↔ (∀ e ∈ l, e ≤ g) ∧ (g :: r).Pairwise (· ≤ ·) := by
  cases l with
  | none => simp
  | some e =>
    simp only [toList_some, List.singleton_append, List.pairwise_cons, List.mem_cons,
      forall_eq_or_imp, mem_def, some.injEq, forall_eq']
    refine ⟨fun ⟨⟨hle, _⟩, hr⟩ => ⟨hle, hr⟩, fun ⟨hle, hg, hr⟩ => ?_⟩
    exact ⟨⟨hle, fun lr hl => hle.trans (hg lr hl)⟩, hg, hr⟩

lemma pairwise_iff_marksAdvance : ∀ (ops : List ContentEntryOp) (entry : ContentStorageEntry) (c : Option ℕ),
    ((entry.latestGeneration c).toList ++ entry.appliedGenerations ops).Pairwise (· ≤ ·) ↔
      entry.MarksAdvance c ops
  | [], entry, c => by
    cases entry.latestGeneration c <;> simp [appliedGenerations, MarksAdvance]
  | op :: ops, entry, c => by
    have ih := pairwise_iff_marksAdvance ops (entry.apply op) ((entry.clearedGeneration op).or c)
    rw [appliedGenerations, MarksAdvance, ← ih]
    cases happl : entry.appliedGeneration op with
    | none =>
      have hguard : ∀ s, op = .markDirty s → ¬ entry.MarksClean s := by
        rintro s rfl
        rcases markDirty_cases entry s with ⟨hd, -⟩ | ⟨-, -, hn⟩
        · simp [appliedGeneration, hd] at happl
        · exact hn
      rw [latestGeneration_apply happl, toList_none]
      refine (and_iff_right fun s hop hc => ?_).symm
      exact absurd hc (hguard s hop)
    | some g =>
      -- only a snapshot that is taken is applied, and then it is the latest one
      obtain ⟨s, rfl⟩ : ∃ s, op = .markDirty s := by
        cases op with
        | markDirty s => exact ⟨s, rfl⟩
        | _ => simp [appliedGeneration] at happl
      rcases markDirty_cases entry s with ⟨hd, hdr, hw⟩ | ⟨hn, -⟩
      · obtain rfl : s.generation.value = g := by
          simpa [appliedGeneration, hd] using happl
        have hlatest : (entry.apply (.markDirty s)).latestGeneration
            ((entry.clearedGeneration (.markDirty s)).or c) = some s.generation.value := by
          simp [latestGeneration, apply, hdr]
        rw [hlatest, toList_some, List.singleton_append, pairwise_cons_latest]
        refine and_congr_left fun _ => ?_
        rcases hw with hc | ⟨cr, hcr, hl⟩
        · have hsame : entry.latestGeneration c = c := by
            simp [latestGeneration, hc.2.2]
          rw [hsame]
          exact ⟨fun h _ hop _ => (ContentEntryOp.markDirty.inj hop) ▸ h, fun h => h s rfl hc⟩
        · refine iff_of_true ?_ fun o hop hc => ?_
          · simpa [latestGeneration, hcr] using hl.le
          · simp [hc.2.2] at hcr
      · simp [appliedGeneration, hn] at happl

/-- **Fencing of dirty generations**, for every run of an entry: the applied generations never go
back if and only if no clean entry takes a snapshot older than the last one cleared. -/
theorem appliedGenerations_pairwise_iff (key : ContentCacheKey) (mode : ContentStorageMode)
    (totalSize : ℕ) (ops : List ContentEntryOp) :
    ((new key mode totalSize).appliedGenerations ops).Pairwise (· ≤ ·) ↔
      (new key mode totalSize).MarksAdvance none ops := by
  rw [← pairwise_iff_marksAdvance]
  rfl

def sampleSnapshot (generation : LocalContentGeneration) : LocalContentSnapshot :=
  ⟨sampleCacheKey.itemKey, generation, ⟨"local", by decide⟩, 4, none, four_le_u64Max⟩

/-- Once generation 2 is cleared, a replayed observation of generation 1 is applied again. -/
theorem appliedGenerations_goes_back :
    let applied := (new sampleCacheKey .hybrid 16).appliedGenerations
      [.markDirty (sampleSnapshot ⟨2, by decide, by decide⟩), .clearDirty ⟨2, by decide, by decide⟩,
        .markDirty (sampleSnapshot ⟨1, by decide, by decide⟩)]
    applied = [2, 1] ∧ ¬ applied.Pairwise (· ≤ ·) := by
  decide

end ContentStorageEntry

end AsterForge.Core
