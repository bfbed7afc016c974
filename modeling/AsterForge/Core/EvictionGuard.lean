import AsterForge.Core.ContentStorage

/-!
# The eviction guard

An eviction reservation is only worth something when nothing that protects the content holds at the same
time, and the guards only work when the lease counters count the leases.

* `EvictionGuard` — the invariant, and **`evictionGuard_apply`** — every operation keeps it.
* **`eviction_guarded`** — a reserved entry is idle, the counters are the leases, a held lease can be
  released, and a reservation succeeds exactly when the storage mode owns the target and nothing blocks.
-/

namespace AsterForge.Core

namespace ContentStorageEntry

def leasesOf (entry : ContentStorageEntry) (kind : ContentLeaseKind) : ℕ :=
  entry.leases.entries.countP fun lease => decide (lease.2 = kind)

/-- Nothing protects the content: no pin, no dirty snapshot, no lease and no cache write. -/
structure Idle (entry : ContentStorageEntry) : Prop where
  unpinned : entry.pinned = false
  clean : entry.dirtySnapshot = none
  unleased : ∀ kind, entry.leaseCounts.value kind = 0
  unwritten : entry.activeCacheWrites = 0

/-- **The invariant of an entry.** -/
structure EvictionGuard (entry : ContentStorageEntry) : Prop where
  reserved_idle : entry.evictionReserved = true → entry.Idle
  counted : ∀ kind, entry.leaseCounts.value kind = entry.leasesOf kind

/-! ## Blockers -/

@[simp] lemma blockerIf_eq_nil (g : Bool) (b : ContentEvictionBlocker) : blockerIf g b = [] ↔ g = false := by
  cases g <;> simp [blockerIf]

lemma evictionBlockers_eq_nil (e : ContentStorageEntry) :
    e.evictionBlockers = [] ↔ e.Idle ∧ e.evictionReserved = false := by
  simp only [evictionBlockers, List.append_eq_nil_iff, blockerIf_eq_nil, Option.isSome_eq_false_iff,
    Option.isNone_iff_eq_none, decide_eq_false_iff_not, Nat.not_lt, Nat.le_zero]
  constructor
  · rintro ⟨⟨⟨⟨⟨⟨⟨⟨⟨hp, hd⟩, ho⟩, hrd⟩, hw⟩, hh⟩, hu⟩, hv⟩, hcc⟩, hr⟩
    refine ⟨⟨hp, hd, fun kind => ?_, hcc⟩, hr⟩
    cases kind <;> assumption
  · rintro ⟨⟨hp, hd, hc, hcc⟩, hr⟩
    exact ⟨⟨⟨⟨⟨⟨⟨⟨⟨hp, hd⟩, hc .opened⟩, hc .read⟩, hc .write⟩,
      hc .hydration⟩, hc .upload⟩, hc .verification⟩, hcc⟩, hr⟩

/-! ## Every operation keeps the invariant -/

variable {entry : ContentStorageEntry} {leaseId : ContentLeaseId} {kind : ContentLeaseKind}

lemma EvictionGuard.congr {e' : ContentStorageEntry} (h : entry.EvictionGuard)
    (hl : e'.leases = entry.leases) (hc : e'.leaseCounts = entry.leaseCounts)
    (hr : e'.evictionReserved = true → e'.Idle) : e'.EvictionGuard := by
  refine ⟨hr, fun kind => ?_⟩
  rw [leasesOf, hl, hc]
  exact h.counted kind

lemma EvictionGuard.withLayers (h : entry.EvictionGuard)
    (r : Option ContentRangeSet) (m : Option PlatformMaterializationState) : EvictionGuard { entry with
      providerRanges := r, platformMaterialization := m } :=
  h.congr rfl rfl fun hr =>
    have hidle := h.reserved_idle hr
    { hidle with }

lemma evictionGuard_new (key : ContentCacheKey) (m : ContentStorageMode) (ts : ℕ) :
    (new key m ts).EvictionGuard := by
  refine ⟨fun h => absurd h (by simp [new]), fun kind => ?_⟩
  cases kind <;> rfl

lemma leasesOf_insert (kn k' : ContentLeaseKind) (hf : entry.leases.lookup leaseId = none) :
    (entry.leases.insert leaseId kn).entries.countP (fun l => decide (l.2 = k'))
      = entry.leasesOf k' + if kn = k' then 1 else 0 := by
  have hcount := Library.countP_insert kn hf fun l => decide (l.2 = k')
  simpa only [leasesOf, decide_eq_true_eq] using hcount

lemma leasesOf_erase (k' : ContentLeaseKind) (hh : entry.leases.lookup leaseId = some kind) :
    entry.leasesOf k' = (entry.leases.erase leaseId).entries.countP (fun l => decide (l.2 = k'))
        + if kind = k' then 1 else 0 := by
  have hcount := Library.countP_erase hh fun l => decide (l.2 = k')
  simpa only [leasesOf, decide_eq_true_eq] using hcount

lemma EvictionGuard.pos_of_held (h : entry.EvictionGuard)
    (hh : entry.leases.lookup leaseId = some kind) : entry.leaseCounts.value kind ≠ 0 := by
  rw [h.counted, leasesOf_erase kind hh, if_pos rfl]
  exact Nat.succ_ne_zero _

/-- **Every operation keeps the invariant.** -/
theorem evictionGuard_apply (h : entry.EvictionGuard) (op : ContentEntryOp) : (entry.apply op).EvictionGuard := by
  have heff := apply_effect entry op
  generalize entry.apply op = entry' at heff
  have hunreserved : entry.evictionReserved = false → entry.evictionReserved = true → False :=
    fun h h' => absurd (h.symm.trans h') Bool.false_ne_true
  cases heff with
  | unchanged => exact h
  | rangeRecorded => exact h.withLayers _ _
  | materializationObserved => exact h.withLayers _ _
  | @pinnedSet p hg =>
    refine h.congr rfl rfl fun hr => ?_
    have hidle := h.reserved_idle hr
    have hpinned : p = false := by
      cases p with
      | false => rfl
      | true => exact (hunreserved (hg rfl) hr).elim
    exact ⟨hpinned, hidle.clean, hidle.unleased, hidle.unwritten⟩
  | dirtied hg | cacheWriteBegun hg =>
    exact h.congr rfl rfl fun hr => (hunreserved hg hr).elim
  | cleaned =>
    refine h.congr rfl rfl fun hr => ?_
    have hidle := h.reserved_idle hr
    exact ⟨hidle.unpinned, rfl, hidle.unleased, hidle.unwritten⟩
  | @leaseAcquired leaseId kind hg hf =>
    refine ⟨fun hr => (hunreserved hg hr).elim, fun k' => ?_⟩
    have hcount := leasesOf_insert kind k' hf
    have hcounted := h.counted k'
    simp only [leasesOf, ContentLeaseCounts.value_setValue] at hcount hcounted ⊢
    rw [hcount]
    by_cases hkind : k' = kind
    · rw [if_pos hkind, if_pos hkind.symm, ← hkind, hcounted]
    · rw [if_neg hkind, if_neg (Ne.symm hkind), hcounted, Nat.add_zero]
  | leaseDropped hh hz => exact absurd hz (h.pos_of_held hh)
  | @leaseReleased leaseId kind hh hp =>
    refine ⟨fun hr => ?_, fun k' => ?_⟩
    · exact absurd ((h.reserved_idle hr).unleased kind) hp
    · have hcount := leasesOf_erase k' hh
      have hcounted := h.counted k'
      simp only [leasesOf, ContentLeaseCounts.value_setValue] at hcount hcounted ⊢
      by_cases hkind : k' = kind
      · rw [if_pos hkind.symm] at hcount
        rw [if_pos hkind, ← hkind, hcounted, hcount, Nat.add_sub_cancel]
      · rw [if_neg (Ne.symm hkind), Nat.add_zero] at hcount
        rw [if_neg hkind, hcounted, hcount]
  | cacheWriteCompleted =>
    refine h.congr rfl rfl fun hr => ?_
    have hidle := h.reserved_idle hr
    have hunwritten : entry.activeCacheWrites - 1 = 0 := by rw [hidle.unwritten]
    exact ⟨hidle.unpinned, hidle.clean, hidle.unleased, hunwritten⟩
  | reserved hg =>
    have hidle := ((evictionBlockers_eq_nil entry).mp hg).1
    exact h.congr rfl rfl fun _ =>
      { hidle with }
  | reconciled => exact h.withLayers _ _
  | completed => exact h.congr rfl rfl fun hr => absurd hr Bool.false_ne_true

/-- **Every sequence of operations keeps the invariant.** -/
theorem evictionGuard_applyAll (h : entry.EvictionGuard)
    (ops : List ContentEntryOp) : (entry.applyAll ops).EvictionGuard := by
  induction ops generalizing entry with
  | nil => exact h
  | cons op ops ih => exact ih (evictionGuard_apply h op)

/-! ## What a caller can rely on -/

lemma EvictionGuard.releaseLease_held (h : entry.EvictionGuard)
    (hh : entry.leases.lookup leaseId = some kind) : (entry.releaseLease leaseId).1 = .ok true := by
  simp only [releaseLease, hh, ContentLeaseCounts.decrement, if_neg (h.pos_of_held hh)]

lemma reserveEviction_reserved_iff (en : ContentStorageEntry) (t : ContentEvictionTarget) :
    (∃ p, (en.reserveEviction t).1 = .ok (.reserved p)) ↔
      (∃ p, ContentEvictionPlan.forTarget en.mode t = .ok p) ∧ en.evictionBlockers = [] := by
  unfold reserveEviction
  cases ContentEvictionPlan.forTarget en.mode t with
  | error e => simp
  | ok p =>
    by_cases hblock : en.evictionBlockers = []
    · simp [hblock]
    · simp [hblock]

/-- **The eviction guard**, in every entry that a sequence of operations leads to. -/
theorem eviction_guarded (key : ContentCacheKey) (mode : ContentStorageMode) (totalSize : ℕ)
    (ops : List ContentEntryOp) :
    let entry := (new key mode totalSize).applyAll ops
    (entry.evictionReserved = true → entry.pinned = false ∧ entry.dirtySnapshot = none
        ∧ (∀ kind, entry.leaseCounts.value kind = 0) ∧ entry.activeCacheWrites = 0)
      ∧ (∀ kind, entry.leaseCounts.value kind = entry.leasesOf kind)
      ∧ (∀ leaseId kind, entry.leases.lookup leaseId = some kind → (entry.releaseLease leaseId).1 = .ok true)
      ∧ ∀ target, (∃ plan, (entry.reserveEviction target).1 = .ok (.reserved plan)) ↔
          (∃ plan, ContentEvictionPlan.forTarget entry.mode target = .ok plan)
            ∧ entry.evictionBlockers = [] := by
  intro entry
  have hguard : entry.EvictionGuard :=
    evictionGuard_applyAll (evictionGuard_new key mode totalSize) ops
  refine ⟨fun hr => ?_, hguard.counted, fun _ _ hh => hguard.releaseLease_held hh,
    reserveEviction_reserved_iff entry⟩
  have hidle := hguard.reserved_idle hr
  exact ⟨hidle.unpinned, hidle.clean, hidle.unleased, hidle.unwritten⟩

end ContentStorageEntry

/-- The key of one item that the runs on concrete entries are about. -/
def sampleCacheKey : ContentCacheKey :=
  ⟨sampleItemKey, sampleRevision⟩

/-- The empty list of blockers alone does not make a reservation succeed: a platform-managed entry
has no provider cache to evict. -/
theorem reserveEviction_unowned :
    let entry := ContentStorageEntry.new sampleCacheKey .platformManaged 16
    entry.evictionBlockers = [] ∧
      (entry.reserveEviction .providerCache).1 = .error (.invalidContentStorageState
        "eviction target is not owned by the selected storage mode") := by
  decide

end AsterForge.Core
