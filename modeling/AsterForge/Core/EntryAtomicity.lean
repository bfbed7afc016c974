import AsterForge.Core.EvictionGuard

/-!
# Failing operations of an entry

All operations of a content entry check before they write, except two: releasing a lease, which cannot
fail in an entry that operations lead to, and reconciling an eviction, which clears the provider cache
before it looks at the platform layer.

* **`entry_operations_atomic`** — the failing operations that change an entry are exactly the
  reconciliations of a provider-managed entry with cached bytes, under a plan that removes the provider
  cache and evicts the platform materialization.
-/

namespace AsterForge.Core

namespace ContentStorageEntry

def isErr {α : Type} : Except CloudFilesCoreError α → Bool
  | .error _ => true
  | .ok _ => false

@[simp] lemma isErr_error {α : Type} (e : CloudFilesCoreError) :
    isErr (.error e : Except CloudFilesCoreError α) = true := rfl

@[simp] lemma isErr_ok {α : Type} (v : α) : isErr (.ok v) = false := rfl

/-- Whether an operation answers with an error. -/
def fails (entry : ContentStorageEntry) : ContentEntryOp → Bool
  | .recordProviderRange range => isErr (entry.recordProviderRange range).1
  | .observePlatformMaterialization state => isErr (entry.observePlatformMaterialization state).1
  | .setPinned pinned => isErr (entry.setPinned pinned).1
  | .markDirty snapshot => isErr (entry.markDirty snapshot).1
  | .clearDirty generation => isErr (entry.clearDirty generation).1
  | .acquireLease leaseId kind => isErr (entry.acquireLease leaseId kind).1
  | .releaseLease leaseId => isErr (entry.releaseLease leaseId).1
  | .beginCacheWrite => isErr entry.beginCacheWrite.1
  | .completeCacheWrite => isErr entry.completeCacheWrite.1
  | .reserveEviction target => isErr (entry.reserveEviction target).1
  | .reconcileEviction plan => isErr (entry.reconcileEviction plan).1
  | .completeEviction => isErr entry.completeEviction.1

/-! ## The layers of an entry -/

/-- The provider cache and the platform materialization exist exactly in the modes that own them. -/
structure OwnsLayers (entry : ContentStorageEntry) : Prop where
  provider : entry.providerRanges = none ↔ entry.mode = .platformManaged
  platform : entry.platformMaterialization = none ↔ entry.mode = .providerManaged

lemma ownsLayers_new (key : ContentCacheKey) (m : ContentStorageMode) (ts : ℕ) : (new key m ts).OwnsLayers := by
  cases m
  · exact ⟨by simp [new], by simp [new]⟩
  · exact ⟨by simp [new], by simp [new]⟩
  · exact ⟨by simp [new], by simp [new]⟩

variable {entry : ContentStorageEntry}

lemma OwnsLayers.congr {e' : ContentStorageEntry} (h : entry.OwnsLayers) (hm : e'.mode = entry.mode)
    (hpr : e'.providerRanges = none ↔ entry.providerRanges = none)
    (hp : e'.platformMaterialization = none ↔ entry.platformMaterialization = none) : e'.OwnsLayers :=
  ⟨by rw [hpr, hm, h.provider], by rw [hp, hm, h.platform]⟩

/-- **What reconciling does.**  It fails and leaves the entry alone; or it fails at the platform layer after it
has cleared the provider cache; or it succeeds, and has put something in each layer that was there. -/
lemma reconcileEviction_cases (en : ContentStorageEntry) (p : ContentEvictionPlan) :
    (∃ e, en.reconcileEviction p = (.error e, en) ∧
        ¬(en.evictionReserved = true ∧ p.removeProviderCache = true ∧ en.providerRanges ≠ none)) ∨
      (∃ e, en.reconcileEviction p = (.error e, { en with providerRanges := some .empty }) ∧
        en.evictionReserved = true ∧ p.removeProviderCache = true ∧
        p.evictPlatformMaterialization = true ∧ en.providerRanges ≠ none ∧
        en.platformMaterialization = none) ∨
      ∃ r m, en.reconcileEviction p =
          (.ok (), { en with
            providerRanges := r, platformMaterialization := m }) ∧
        (r = none ↔ en.providerRanges = none) ∧
        (m = none ↔ en.platformMaterialization = none) ∧
        (p.evictPlatformMaterialization = true → en.platformMaterialization ≠ none) := by
  unfold reconcileEviction
  by_cases hresv : en.evictionReserved = false
  · rw [if_pos hresv]
    exact .inl ⟨_, rfl, fun h => Bool.false_ne_true (hresv.symm.trans h.1)⟩
  rw [if_neg hresv]
  have hguard : en.evictionReserved = true := by simpa using hresv
  by_cases howned : (p.removeProviderCache && en.providerRanges.isNone) = true
  · rw [if_pos howned]
    obtain ⟨-, hn⟩ := Bool.and_eq_true_iff.mp howned
    exact .inl ⟨_, rfl, fun h => h.2.2 (Option.isNone_iff_eq_none.mp hn)⟩
  by_cases hremove : p.removeProviderCache = true
  · have hprov : en.providerRanges ≠ none := by simpa [hremove] using howned
    simp only [if_pos hremove]
    split_ifs with hkeep hplat
    · exact .inr (.inr ⟨_, _, rfl, by simp [hprov], Iff.rfl, by simp [hkeep]⟩)
    · have hevict : p.evictPlatformMaterialization = true := by simpa using hkeep
      exact .inr (.inl ⟨_, rfl, hguard, hremove, hevict, hprov, hplat⟩)
    · exact .inr (.inr ⟨_, _, rfl, by simp [hprov], by simp [hplat], fun _ => hplat⟩)
  · simp only [if_neg hremove]
    split_ifs with hkeep hplat
    · exact .inr (.inr ⟨_, _, rfl, Iff.rfl, Iff.rfl, by simp [hkeep]⟩)
    · exact .inl ⟨_, rfl, fun h => hremove h.2.1⟩
    · exact .inr (.inr ⟨_, _, rfl, Iff.rfl, by simp [hplat], fun _ => hplat⟩)

lemma ownsLayers_reconcile (h : entry.OwnsLayers) (p : ContentEvictionPlan) :
    (entry.reconcileEviction p).2.mode = entry.mode ∧ (entry.reconcileEviction p).2.OwnsLayers := by
  obtain ⟨_, heq, -⟩ | ⟨_, heq, -, -, -, hp, -⟩ | ⟨_, _, heq, hp, hpl, -⟩ :=
    entry.reconcileEviction_cases p
  · rw [heq]
    exact ⟨rfl, h⟩
  · rw [heq]
    exact ⟨rfl, h.congr rfl (by simp [hp]) Iff.rfl⟩
  · rw [heq]
    exact ⟨rfl, h.congr rfl hp hpl⟩

lemma ownsLayers_observe (h : entry.OwnsLayers) (s : PlatformMaterializationState) :
    (entry.observePlatformMaterialization s).2.mode = entry.mode ∧
      (entry.observePlatformMaterialization s).2.OwnsLayers := by
  unfold observePlatformMaterialization
  cases hplat : entry.platformMaterialization with
  | none => exact ⟨rfl, h⟩
  | some c =>
    dsimp only
    split_ifs
    · exact ⟨rfl, h⟩
    · exact ⟨rfl, h.congr rfl Iff.rfl (by simp [hplat])⟩

/-- **Every operation keeps the layers** that the mode owns, and the mode. -/
theorem ownsLayers_apply (h : entry.OwnsLayers) (op : ContentEntryOp) :
    (entry.apply op).mode = entry.mode ∧ (entry.apply op).OwnsLayers := by
  have heff := apply_effect entry op
  generalize hafter : entry.apply op = entry' at heff ⊢
  cases heff with
  | unchanged => exact ⟨rfl, h⟩
  | rangeRecorded ho => exact ⟨rfl, h.congr rfl (by simp [ho]) Iff.rfl⟩
  | materializationObserved s => exact hafter ▸ ownsLayers_observe h s
  | pinnedSet | dirtied => exact ⟨rfl, h.congr rfl Iff.rfl Iff.rfl⟩
  | cleaned | leaseAcquired => exact ⟨rfl, h.congr rfl Iff.rfl Iff.rfl⟩
  | leaseDropped | leaseReleased => exact ⟨rfl, h.congr rfl Iff.rfl Iff.rfl⟩
  | cacheWriteBegun | cacheWriteCompleted => exact ⟨rfl, h.congr rfl Iff.rfl Iff.rfl⟩
  | reserved | completed => exact ⟨rfl, h.congr rfl Iff.rfl Iff.rfl⟩
  | @reconciled p => exact hafter ▸ ownsLayers_reconcile h p

theorem ownsLayers_applyAll (h : entry.OwnsLayers) (ops : List ContentEntryOp) :
    (entry.applyAll ops).mode = entry.mode ∧ (entry.applyAll ops).OwnsLayers := by
  induction ops generalizing entry with
  | nil => exact ⟨rfl, h⟩
  | cons op ops ih =>
    obtain ⟨hm, hl⟩ := ownsLayers_apply h op
    obtain ⟨hm', hl'⟩ := ih hl
    exact ⟨hm'.trans hm, hl'⟩

/-! ## Operations that check before they write -/

lemma releaseLease_unchanged (h : entry.EvictionGuard)
    {li : ContentLeaseId} (hf : entry.fails (.releaseLease li) = true) :
    entry.apply (.releaseLease li) = entry := by
  simp only [fails, apply] at hf ⊢
  cases hheld : entry.leases.lookup li with
  | none => simp [releaseLease, hheld]
  | some k =>
    rw [h.releaseLease_held hheld] at hf
    cases hf

lemma markDirty_unchanged {s : LocalContentSnapshot}
    (hf : entry.fails (.markDirty s) = true) : entry.apply (.markDirty s) = entry := by
  simp only [fails, apply, markDirty] at hf ⊢
  split_ifs at hf ⊢
  · rfl
  · rfl
  cases hdirty : entry.dirtySnapshot with
  | none => simp [hdirty] at hf
  | some c =>
    simp only [hdirty] at hf ⊢
    split_ifs at hf ⊢
    · simp at hf
    · simp at hf
    · rfl
    · simp at hf

lemma acquireLease_unchanged {li : ContentLeaseId}
    {k : ContentLeaseKind} (hf : entry.fails (.acquireLease li k) = true) :
    entry.apply (.acquireLease li k) = entry := by
  simp only [fails, apply, acquireLease] at hf ⊢
  split_ifs at hf ⊢
  · rfl
  cases hfresh : entry.leases.lookup li with
  | some ex =>
    simp only [hfresh] at hf ⊢
    split_ifs
    · rfl
    · rfl
  | none =>
    simp only [hfresh] at hf ⊢
    cases hcount : entry.leaseCounts.increment k with
    | error e => rfl
    | ok c => simp [hcount] at hf

/-- **All operations but one check before they write**: where one of them fails, the entry is what it was. -/
theorem unchanged_of_fails (h : entry.EvictionGuard) {op : ContentEntryOp}
    (ho : ∀ p, op ≠ .reconcileEviction p) (hf : entry.fails op = true) : entry.apply op = entry := by
  cases op with
  | recordProviderRange rn =>
    simp only [fails, apply, recordProviderRange] at hf ⊢
    cases howned : entry.providerRanges with
    | none => rfl
    | some r =>
      cases hins : r.insert rn entry.totalSize with
      | error e => simp only [hins]
      | ok rs => simp [howned, hins] at hf
  | observePlatformMaterialization st =>
    simp only [fails, apply, observePlatformMaterialization] at hf ⊢
    cases hplat : entry.platformMaterialization with
    | none => rfl
    | some c =>
      simp only [hplat] at hf
      split_ifs at hf
      · simp at hf
      · simp at hf
  | setPinned pn =>
    simp only [fails, apply, setPinned] at hf ⊢
    split_ifs at hf ⊢
    · rfl
    · simp at hf
  | markDirty s => exact markDirty_unchanged hf
  | clearDirty g =>
    simp only [fails, apply, clearDirty] at hf ⊢
    cases hdirty : entry.dirtySnapshot with
    | none => rfl
    | some c =>
      simp only [hdirty] at hf ⊢
      split_ifs at hf ⊢
      · simp at hf
      · rfl
      · simp at hf
  | acquireLease li k => exact acquireLease_unchanged hf
  | releaseLease li => exact releaseLease_unchanged h hf
  | beginCacheWrite =>
    simp only [fails, apply, beginCacheWrite] at hf ⊢
    split_ifs at hf ⊢
    · rfl
    · rfl
    · rfl
    · simp at hf
  | completeCacheWrite =>
    simp only [fails, apply, completeCacheWrite] at hf ⊢
    split_ifs at hf ⊢
    · rfl
    · simp at hf
  | reserveEviction t =>
    simp only [fails, apply, reserveEviction] at hf ⊢
    cases hplan : ContentEvictionPlan.forTarget entry.mode t with
    | error e => rfl
    | ok p =>
      simp only [hplan] at hf
      split_ifs at hf
      · simp at hf
      · simp at hf
  | reconcileEviction p => exact absurd rfl (ho p)
  | completeEviction =>
    simp only [fails, apply, completeEviction] at hf ⊢
    split_ifs at hf ⊢
    · rfl
    · simp at hf

/-! ## The one that does not -/

/-- Reconciling changes the entry and fails: the entry is reserved, the plan asks for both layers, the
platform one is not owned, and there are cached bytes to lose. -/
lemma reconcileEviction_atomic_iff (e : ContentStorageEntry) (p : ContentEvictionPlan) :
    (e.fails (.reconcileEviction p) = true → e.apply (.reconcileEviction p) = e) ↔
      ¬(e.evictionReserved = true ∧ p.removeProviderCache = true ∧
        p.evictPlatformMaterialization = true ∧ e.platformMaterialization = none ∧
        e.providerRanges ≠ none ∧ e.providerRanges ≠ some .empty) := by
  simp only [fails, apply]
  obtain ⟨_, heq, hnot⟩ | ⟨_, heq, hresv, hremove, hevict, hprov, hplat⟩ |
      ⟨_, _, heq, -, -, howned⟩ := e.reconcileEviction_cases p
  · rw [heq]
    exact iff_of_true (fun _ => rfl) fun h => hnot ⟨h.1, h.2.1, h.2.2.2.2.1⟩
  · rw [heq]
    have hsame : ({ e with providerRanges := some ContentRangeSet.empty } : ContentStorageEntry) = e ↔
        e.providerRanges = some .empty := by
      constructor
      · intro h
        exact (congrArg ContentStorageEntry.providerRanges h).symm
      · intro h
        rw [← h]
    rw [hsame]
    simp [hresv, hremove, hevict, hplat, hprov]
  · rw [heq]
    refine iff_of_true (fun h => ?_) fun h => howned h.2.2.1 h.2.2.2.1
    simp at h

/-- **Failing operations of an entry.**  In every entry that operations lead to, an operation that fails leaves the
entry exactly as it was, unless it reconciles a reserved provider-managed entry that has cached bytes under a
plan for both layers. -/
theorem entry_operations_atomic (key : ContentCacheKey) (mode : ContentStorageMode) (totalSize : ℕ)
    (ops : List ContentEntryOp) (op : ContentEntryOp) :
    let entry := (new key mode totalSize).applyAll ops
    (entry.fails op = true → entry.apply op = entry) ↔
      ¬∃ plan, op = .reconcileEviction plan ∧ plan.removeProviderCache = true ∧
        plan.evictPlatformMaterialization = true ∧ mode = .providerManaged ∧
        entry.evictionReserved = true ∧ entry.providerRanges ≠ some .empty := by
  intro entry
  have hguard : entry.EvictionGuard := evictionGuard_applyAll (evictionGuard_new key mode totalSize) ops
  obtain ⟨hm, hl⟩ := ownsLayers_applyAll (ownsLayers_new key mode totalSize) ops
  change entry.mode = mode at hm
  by_cases hplan : ∃ plan, op = .reconcileEviction plan
  · obtain ⟨plan, rfl⟩ := hplan
    rw [reconcileEviction_atomic_iff, hl.platform, ne_eq, hl.provider, hm]
    refine not_congr ⟨?_, ?_⟩
    · rintro ⟨hrs, hr, he, hp, -, hc⟩
      exact ⟨plan, rfl, hr, he, hp, hrs, hc⟩
    · rintro ⟨_, heq, hr, he, rfl, hrs, hc⟩
      obtain rfl := ContentEntryOp.reconcileEviction.inj heq
      exact ⟨hrs, hr, he, rfl, by simp, hc⟩
  · have hother : ∀ plan, op ≠ .reconcileEviction plan := fun plan heq => hplan ⟨plan, heq⟩
    exact iff_of_true (unchanged_of_fails hguard hother) fun ⟨plan, heq, _⟩ => hother plan heq

/-- A provider-managed entry with four cached bytes, reserved, and reconciled under the plan that a hybrid entry
gets for all managed content: the call fails and the cached bytes are gone. -/
theorem entry_operations_atomic_counterexample :
    ¬∀ (key : ContentCacheKey) (mode : ContentStorageMode) (totalSize : ℕ) (ops : List ContentEntryOp)
      (op : ContentEntryOp),
      let entry := (new key mode totalSize).applyAll ops
      entry.fails op = true → entry.apply op = entry := by
  intro hc
  have hsame := hc sampleCacheKey .providerManaged 16
    [.recordProviderRange ⟨0, 4, by decide, by decide⟩, .reserveEviction .providerCache]
    (.reconcileEviction ⟨true, true, true⟩) (by decide)
  revert hsame
  decide

end ContentStorageEntry

end AsterForge.Core
