import AsterForge.Core.EvictionGuard
import AsterForge.Library.Runs

/-!
# Provider coverage during an eviction

The bytes that an eviction plan will clear should be those that were there when the reservation was
taken.  Pins, dirty snapshots, leases and cache writes all look at the reservation; recording a provider
range does not.

* `RecordsNothingNew` — the condition on an operation and the entry it is applied to, and
  **`providerCoverage_apply_subset_iff`** — it is the exact one.
* **`providerCoverage_reserved`** — the run theorem.
-/

namespace AsterForge.Core

open Library ContentRangeSet

/-- Fragmentation refuses a range exactly when the set is full and nothing touches the range. -/
lemma ContentRangeSet.merged_length_le_iff (set : ContentRangeSet) (r : ByteRange) :
    (set.merged r).length ≤ maxRanges ↔ ¬ (set.ranges.length = maxRanges ∧ ∀ e ∈ set.ranges,
        e.endExclusive < r.offset ∨ r.endExclusive < e.offset) := by
  have hgrows : (set.merged r).length ≤ set.ranges.length + 1 := length_merge_le ..
  have htouches : (set.merged r).length ≤ set.ranges.length ↔ ∃ e ∈ set.ranges,
      r.offset ≤ e.endExclusive ∧ e.offset ≤ r.endExclusive :=
    length_merge_le_iff ByteRange.lt_endExclusive set.separated
  have hmax := set.length_le
  have hapart : (∀ e ∈ set.ranges, e.endExclusive < r.offset ∨ r.endExclusive < e.offset) ↔
      ¬ ∃ e ∈ set.ranges, r.offset ≤ e.endExclusive ∧ e.offset ≤ r.endExclusive := by
    simp only [not_exists, not_and, not_le]
    refine forall₂_congr fun e _ => ?_
    omega
  rw [hapart, ← htouches]
  omega

namespace ContentStorageEntry

def providerCoverage (entry : ContentStorageEntry) : Set ℕ :=
  match entry.providerRanges with
  | some ranges => ranges.coverage
  | none => ∅

variable (e : ContentStorageEntry)

lemma providerCoverage_empty (h : e.providerRanges = some .empty) : e.providerCoverage = ∅ := by
  simp [providerCoverage, h, coverage, empty, covered]

/-- No range that the operation records on this entry brings new bytes: the range lies beyond the
content, is cached already, or is refused because the set is full and nothing touches it. -/
def RecordsNothingNew (entry : ContentStorageEntry) : ContentEntryOp → Prop
  | .recordProviderRange range => ∀ ranges, entry.providerRanges = some ranges →
      entry.totalSize < range.endExclusive ∨ ranges.covers range = true ∨
        ranges.ranges.length = maxRanges ∧ ∀ existing ∈ ranges.ranges,
          existing.endExclusive < range.offset ∨ range.endExclusive < existing.offset
  | _ => True

lemma recordProviderRange_coverage {e : ContentStorageEntry} {rn : ContentRangeSet}
    (ho : e.providerRanges = some rn) (r : ByteRange) :
    (e.recordProviderRange r).2.providerCoverage ⊆ e.providerCoverage ↔
      e.RecordsNothingNew (.recordProviderRange r) := by
  have hcoverage : e.providerCoverage = rn.coverage := by
    simp only [providerCoverage, ho]
  have hok := insert_ok_iff rn r e.totalSize
  rw [merged_length_le_iff] at hok
  simp only [RecordsNothingNew, ho, Option.some.injEq, forall_eq', hcoverage]
  cases hins : rn.insert r e.totalSize with
  | error er =>
    have hkept : (e.recordProviderRange r).2 = e := by
      simp only [recordProviderRange, ho, hins]
    rw [hkept, hcoverage]
    refine iff_of_true subset_rfl ?_
    -- the insertion failed, so not all of its checks passed
    have hfails : ¬ ∃ rs, rn.insert r e.totalSize = .ok rs := by
      simp [hins]
    rw [hok] at hfails
    by_contra hpasses
    simp only [not_or, not_lt] at hpasses
    exact hfails ⟨hpasses.1, .inr hpasses.2.2⟩
  | ok rs =>
    have hadded : (e.recordProviderRange r).2.providerCoverage = rn.coverage ∪ r.bytes := by
      simp only [recordProviderRange, ho, hins, providerCoverage]
      exact coverage_insert hins
    rw [hadded, Set.union_subset_iff, and_iff_right subset_rfl, ← covers_iff]
    -- it succeeded, so a range that is not covered is within the content and has room
    obtain ⟨hs, hr⟩ := hok.mp ⟨rs, hins⟩
    refine ⟨fun hc => .inr (.inl hc), ?_⟩
    rintro (hb | hc | hf)
    · exact absurd hb (Nat.not_lt.mpr hs)
    · exact hc
    · exact hr.resolve_right (not_not.mpr hf)

lemma providerRanges_apply {op : ContentEntryOp} (hop : ∀ r, op ≠ .recordProviderRange r) :
    (e.apply op).providerRanges = e.providerRanges ∨ (e.apply op).providerRanges = some .empty := by
  have heff := apply_effect e op
  generalize e.apply op = entry' at heff
  cases heff with
  | rangeRecorded => exact absurd rfl (hop _)
  | reconciled _ _ hr => exact hr
  | _ => exact .inl rfl

/-- **The condition is exact**: an operation adds no provider bytes if and only if it meets it. -/
theorem providerCoverage_apply_subset_iff (op : ContentEntryOp) :
    (e.apply op).providerCoverage ⊆ e.providerCoverage ↔ e.RecordsNothingNew op := by
  by_cases hop : ∃ r, op = .recordProviderRange r
  · obtain ⟨r, rfl⟩ := hop
    cases howned : e.providerRanges with
    | some rn => exact recordProviderRange_coverage howned r
    | none =>
      have hk : e.apply (.recordProviderRange r) = e := by
        simp only [apply, recordProviderRange, howned]
      rw [hk]
      refine iff_of_true subset_rfl ?_
      simp [RecordsNothingNew, howned]
  · rw [not_exists] at hop
    have hcond : e.RecordsNothingNew op := by
      cases op with
      | recordProviderRange r => exact absurd rfl (hop r)
      | _ => trivial
    refine iff_of_true ?_ hcond
    rcases providerRanges_apply e hop with hk | hc
    · rw [providerCoverage, hk]
      exact subset_rfl
    · rw [providerCoverage_empty _ hc]
      exact Set.empty_subset _

/-! ## Runs under a reservation -/

def Step (entry : ContentStorageEntry) (op : ContentEntryOp) (entry' : ContentStorageEntry) :
    Prop :=
  entry.apply op = entry'

def ReservedStep : ContentStorageEntry → ContentEntryOp → ContentStorageEntry → Prop :=
  Guarded (fun entry op => entry.evictionReserved = true ∧ entry.RecordsNothingNew op) Step

/-- **Provider coverage during an eviction.**  After a reservation, and as long as every operation
meets the condition, the coverage stays within the coverage at the reservation; so does whatever a
reconciliation of any plan clears.  And the next operation adds no byte exactly if it meets the
condition, too. -/
theorem providerCoverage_reserved {key : ContentCacheKey} {mode : ContentStorageMode}
    {totalSize : ℕ} {ops during : List ContentEntryOp} {target : ContentEvictionTarget}
    {plan : ContentEvictionPlan} {reserved entry : ContentStorageEntry}
    (hreserve : ((new key mode totalSize).applyAll ops).reserveEviction target
      = (.ok (.reserved plan), reserved))
    (hrun : Run ReservedStep reserved during entry) :
    entry.providerCoverage ⊆ reserved.providerCoverage ∧ (∀ cleared : ContentEvictionPlan,
          entry.providerCoverage \ (entry.reconcileEviction cleared).2.providerCoverage
            ⊆ ((new key mode totalSize).applyAll ops).providerCoverage)
      ∧ ∀ op, (entry.apply op).providerCoverage ⊆ entry.providerCoverage ↔ entry.RecordsNothingNew op := by
  have hwithin : entry.providerCoverage ⊆ reserved.providerCoverage := by
    refine hrun.invariant (I := fun entry => entry.providerCoverage ⊆ reserved.providerCoverage) ?_ subset_rfl
    rintro c op next hc ⟨⟨-, hcn⟩, rfl⟩
    exact ((providerCoverage_apply_subset_iff c op).mpr hcn).trans hc
  -- taking the reservation itself leaves the coverage alone
  have hsame : reserved.providerCoverage ⊆ ((new key mode totalSize).applyAll ops).providerCoverage := by
    have happly : reserved = ((new key mode totalSize).applyAll ops).apply
        (.reserveEviction target) := by rw [apply, hreserve]
    rw [happly]
    exact (providerCoverage_apply_subset_iff _ _).mpr trivial
  exact ⟨hwithin, fun _ => Set.sdiff_subset.trans (hwithin.trans hsame),
    providerCoverage_apply_subset_iff entry⟩

/-- A provider-managed entry that has cached its first half is reserved, and records the first half
once more before the plan is reconciled. -/
theorem providerCoverage_reserved_again :
    let entry := (new sampleCacheKey .providerManaged 16).applyAll
      [.recordProviderRange ⟨0, 8, by decide, by decide⟩]
    let reserved := (entry.reserveEviction .providerCache).2
    ((reserved.apply (.recordProviderRange ⟨0, 8, by decide, by decide⟩)).apply
      (.reconcileEviction ⟨true, false, true⟩)).providerCoverage ⊆ reserved.providerCoverage := by
  intro entry reserved
  have hrun : Run ReservedStep reserved
      [.recordProviderRange ⟨0, 8, by decide, by decide⟩, .reconcileEviction ⟨true, false, true⟩]
      ((reserved.apply (.recordProviderRange ⟨0, 8, by decide, by decide⟩)).apply
        (.reconcileEviction ⟨true, false, true⟩)) := by
    refine .cons ⟨⟨by decide, ?_⟩, rfl⟩ (.cons ⟨⟨by decide, trivial⟩, rfl⟩ (.nil _))
    intro r hr
    have hcovers : ∀ r ∈ reserved.providerRanges, r.covers ⟨0, 8, by decide, by decide⟩ = true := by decide
    exact .inr (.inl (hcovers r hr))
  have hreserve : entry.reserveEviction .providerCache
      = (.ok (.reserved ⟨true, false, true⟩), reserved) := Prod.ext (by decide) rfl
  exact (providerCoverage_reserved hreserve hrun).1

/-- Recording a range does not look at the reservation: bytes that were not there when it was taken
appear under it, and the reconciled plan clears them. -/
theorem providerCoverage_grows_reserved :
    let entry := new sampleCacheKey .providerManaged 16
    let reserved := (entry.reserveEviction .providerCache).2
    let recorded := reserved.recordProviderRange ⟨0, 8, by decide, by decide⟩
    let reconciled := recorded.2.reconcileEviction ⟨true, false, true⟩
    (entry.reserveEviction .providerCache).1 = .ok (.reserved ⟨true, false, true⟩)
      ∧ recorded.1 = .ok true ∧ recorded.2.evictionReserved = true
      ∧ reconciled.1 = .ok () ∧ reconciled.2.completeEviction.1 = .ok ()
      ∧ ¬ recorded.2.providerCoverage \ reconciled.2.providerCoverage ⊆ reserved.providerCoverage := by
  refine ⟨by decide, by decide, by decide, by decide, by decide, fun hs => ?_⟩
  -- byte 0 was recorded and then cleared, and the reserved entry did not have it
  have hbyte : (0 : ℕ) ∈ ((((new sampleCacheKey .providerManaged 16).reserveEviction
      .providerCache).2.recordProviderRange ⟨0, 8, by decide, by decide⟩).2).providerCoverage :=
    ⟨⟨0, 8, by decide, by decide⟩, List.mem_singleton_self _, by decide⟩
  have hgone := providerCoverage_empty ((((new sampleCacheKey .providerManaged 16).reserveEviction
      .providerCache).2.recordProviderRange ⟨0, 8, by decide, by decide⟩).2.reconcileEviction
        ⟨true, false, true⟩).2 (by decide)
  have hnone := providerCoverage_empty
    ((new sampleCacheKey .providerManaged 16).reserveEviction .providerCache).2 (by decide)
  have hmem := hs ⟨hbyte, by rw [hgone]; exact Set.notMem_empty 0⟩
  rw [hnone] at hmem
  exact hmem

end ContentStorageEntry

end AsterForge.Core
