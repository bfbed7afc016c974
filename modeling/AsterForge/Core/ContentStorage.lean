import AsterForge.Core.ContentRead
import AsterForge.Core.Item
import AsterForge.Library.Coverage

/-!
# Content storage entries

`ContentStorageEntry` is the record of one cached revision: what the provider has cached of it, what the
platform has materialized, and everything that protects it from eviction.  An operation of the source
takes `&mut self` and returns a `Result`; here it returns the result together with the entry after the
call, which a failing operation may have changed.

* `ContentRangeSet` carries its normal form and its size bound, and **`coverage_insert`** says that
  inserting a range adds exactly its bytes.
* `ContentEntryOp` — every public operation as one label, and `ContentStorageEntry.apply` — the entry
  after it.
* **`ContentStorageEntry.apply_effect`** — the ways in which an operation can change an entry, with the
  guards each has passed.
-/

namespace AsterForge.Core

open Library ByteRange

/-! ## Sparse coverage -/

/-- A range that is prolonged to a later end still ends within a `u64`. -/
lemma ByteRange.prolonged_le (r : ByteRange) {s : ℕ} (hle : r.endExclusive ≤ s)
    (hs : s ≤ u64Max) : r.offset + (r.length + (s - r.endExclusive)) ≤ u64Max := by
  simp only [endExclusive] at *
  omega

/-- The smallest range covering two ranges.  The source adds the extension with saturation, which
never happens, since both ends fit a `u64`. -/
def ByteRange.covering (range other : ByteRange) : ByteRange :=
  let stop := max range.endExclusive other.endExclusive
  if range.offset ≤ other.offset then
    ⟨range.offset, range.length + (stop - range.endExclusive), Nat.add_pos_left range.length_pos _,
      range.prolonged_le (le_max_left _ _) (max_le range.end_le other.end_le)⟩
  else
    ⟨other.offset, other.length + (stop - other.endExclusive), Nat.add_pos_left other.length_pos _,
      other.prolonged_le (le_max_right _ _) (max_le range.end_le other.end_le)⟩

lemma ByteRange.covering_extent (r o : ByteRange) : ((r.covering o).offset, (r.covering o).endExclusive) =
    (min r.offset o.offset, max r.endExclusive o.endExclusive) := by
  unfold covering
  simp only [endExclusive]
  split <;> simp only [Prod.mk.injEq] <;> omega

def ByteRange.bytes (range : ByteRange) : Set ℕ :=
  {x | range.offset ≤ x ∧ x < range.endExclusive}

/-- Maximum number of disjoint ranges retained for one sparse entry. -/
def maxRanges : ℕ := 8192

/-- Normalized non-overlapping provider-cache byte coverage. -/
structure ContentRangeSet where
  ranges : List ByteRange
  separated : Separated ByteRange.offset ByteRange.endExclusive ranges
  length_le : ranges.length ≤ maxRanges
  deriving DecidableEq

namespace ContentRangeSet

def empty : ContentRangeSet := ⟨[], .nil, Nat.zero_le _⟩

variable (set : ContentRangeSet)

/-- Whether every byte in one range is cached.  The source finds the only candidate with
`partition_point`; on the sorted ranges that is where `dropWhile` stops. -/
def covers (range : ByteRange) : Bool :=
  match (set.ranges.dropWhile fun existing =>
      decide (existing.endExclusive ≤ range.offset)).head? with
  | some existing => decide (existing.offset ≤ range.offset)
      && decide (range.endExclusive ≤ existing.endExclusive)
  | none => false

def mergedRanges (range : ByteRange) : List ByteRange :=
  touching ByteRange.offset ByteRange.endExclusive range.offset range.endExclusive set.ranges

def merged (range : ByteRange) : List ByteRange :=
  before ByteRange.endExclusive range.offset set.ranges
    ++ (set.mergedRanges range).foldl ByteRange.covering range
    :: after ByteRange.offset ByteRange.endExclusive range.offset range.endExclusive set.ranges

lemma foldl_covering : ∀ (r : List ByteRange) (rn : ByteRange),
    ((r.foldl covering rn).offset, (r.foldl covering rn).endExclusive) =
      mergeExtent offset endExclusive rn.offset rn.endExclusive r
  | [], _ => rfl
  | other :: r, rn => by
    obtain ⟨hlo, hhi⟩ := Prod.mk.injEq .. ▸ rn.covering_extent other
    rw [List.foldl_cons, foldl_covering r, mergeExtent, hlo, hhi]

variable (r : ByteRange)

lemma separated_merged : Separated offset endExclusive (set.merged r) :=
  separated_merge lt_endExclusive set.separated (foldl_covering _ r)

def insert (range : ByteRange) (totalSize : ℕ) : Except CloudFilesCoreError (Bool × ContentRangeSet) :=
  if range.endExclusive > totalSize then
    .error (.invalidContentStorageState "cached range exceeds the content size")
  else if set.covers range then .ok (false, set)
  else if h : (set.merged range).length > maxRanges then
    .error (.invalidContentStorageState
      "provider cache range fragmentation exceeds the supported limit")
  else .ok (true, ⟨set.merged range, set.separated_merged range, Nat.le_of_not_lt h⟩)

def coverage : Set ℕ :=
  covered ByteRange.offset ByteRange.endExclusive set.ranges

lemma bytes_eq : r.bytes = {x | r.offset ≤ x ∧ x < r.endExclusive} := rfl

/-- **Coverage is what `covers` answers for.** -/
theorem covers_iff : set.covers r = true ↔ r.bytes ⊆ set.coverage := by
  rw [bytes_eq, coverage, subset_covered_iff r.lt_endExclusive set.separated, covers]
  cases (set.ranges.dropWhile fun e =>
      decide (e.endExclusive ≤ r.offset)).head? with
  | none => simp
  | some e => simp

lemma insert_ok_iff (ts : ℕ) : (∃ rs, set.insert r ts = .ok rs) ↔ r.endExclusive ≤ ts ∧
    (set.covers r = true ∨ (set.merged r).length ≤ maxRanges) := by
  unfold insert
  split_ifs with hsize hcovers hlen
  · simp [Nat.not_le.mpr hsize]
  · simp [Nat.le_of_not_lt hsize, hcovers]
  · simp [hcovers, Nat.not_le.mpr hlen]
  · simp [Nat.le_of_not_lt hsize, Nat.le_of_not_lt hlen]

/-- **Inserting a range adds exactly its bytes**, whether or not anything changes. -/
theorem coverage_insert {set set' : ContentRangeSet} {r : ByteRange} {ts : ℕ}
    {c : Bool} (h : set.insert r ts = .ok (c, set')) : set'.coverage = set.coverage ∪ r.bytes := by
  unfold insert at h
  split at h
  · simp at h
  split at h
  case isTrue hcov =>
      cases h
      exact (Set.union_eq_left.mpr ((covers_iff set r).mp hcov)).symm
  split at h
  · simp at h
  cases h
  exact covered_merge lt_endExclusive set.separated (foldl_covering _ r)

end ContentRangeSet

/-! ## Ownership, leases and eviction plans -/

/-- Physical ownership model selected from effective materialization capabilities. -/
inductive ContentStorageMode
  | platformManaged
  | providerManaged
  | hybrid
  deriving DecidableEq

inductive PlatformMaterializationState
  | unknown
  | dataless
  | isPartial
  | complete
  deriving DecidableEq

/-- Runtime activity that must protect content from eviction. -/
inductive ContentLeaseKind
  | opened
  | read
  | write
  | hydration
  | upload
  | verification
  deriving DecidableEq

abbrev ContentLeaseId := StringIdentity "content lease id"

/-- The largest `u32`, which bounds the counters of an entry. -/
def u32Max : ℕ := 2 ^ 32 - 1

/-- Runtime lease counts, one `u32` for each kind. -/
structure ContentLeaseCounts where
  opened : ℕ := 0
  read : ℕ := 0
  write : ℕ := 0
  hydration : ℕ := 0
  upload : ℕ := 0
  verification : ℕ := 0
  deriving DecidableEq

namespace ContentLeaseCounts

variable (counts : ContentLeaseCounts)

def value : ContentLeaseKind → ℕ
  | .opened => counts.opened
  | .read => counts.read
  | .write => counts.write
  | .hydration => counts.hydration
  | .upload => counts.upload
  | .verification => counts.verification

/-- The counters with one of them overwritten: what the source does through `value_mut`. -/
def setValue (kind : ContentLeaseKind) (value : ℕ) :
    ContentLeaseCounts :=
  match kind with
  | .opened => { counts with opened := value }
  | .read => { counts with read := value }
  | .write => { counts with write := value }
  | .hydration => { counts with hydration := value }
  | .upload => { counts with upload := value }
  | .verification => { counts with verification := value }

@[simp] lemma value_setValue (c : ContentLeaseCounts) (k k' : ContentLeaseKind) (v : ℕ) :
    (c.setValue k v).value k' = if k' = k then v else c.value k' := by
  cases k <;> cases k' <;> rfl

def increment (kind : ContentLeaseKind) : Except CloudFilesCoreError ContentLeaseCounts :=
  if counts.value kind = u32Max then
    .error (.invalidContentStorageState "content lease count overflowed")
  else .ok (counts.setValue kind (counts.value kind + 1))

def decrement (kind : ContentLeaseKind) : Except CloudFilesCoreError ContentLeaseCounts :=
  if counts.value kind = 0 then
    .error (.invalidContentStorageState "content lease count was already zero")
  else .ok (counts.setValue kind (counts.value kind - 1))

end ContentLeaseCounts

/-- Stable reason an eviction attempt is currently blocked. -/
inductive ContentEvictionBlocker
  | pinned
  | dirty
  | openLease
  | readLease
  | writeLease
  | hydrationLease
  | uploadLease
  | verificationLease
  | cacheWriteInProgress
  | evictionInProgress
  deriving DecidableEq

/-- Physical layer selected for an eviction operation. -/
inductive ContentEvictionTarget
  | providerCache
  | platformMaterialization
  | allManagedContent

/-- Required idempotent effects for one eviction target and ownership mode. -/
structure ContentEvictionPlan where
  removeProviderCache : Bool
  evictPlatformMaterialization : Bool
  invalidatePlatformContent : Bool
  deriving DecidableEq

def ContentEvictionPlan.forTarget (mode : ContentStorageMode) (target : ContentEvictionTarget) :
    Except CloudFilesCoreError ContentEvictionPlan :=
  match mode, target with
  | .platformManaged, .providerCache
  | .providerManaged, .platformMaterialization =>
    .error (.invalidContentStorageState "eviction target is not owned by the selected storage mode")
  | .platformManaged, _
  | .hybrid, .platformMaterialization => .ok ⟨false, true, false⟩
  | .providerManaged, _
  | .hybrid, .providerCache => .ok ⟨true, false, true⟩
  | .hybrid, .allManagedContent => .ok ⟨true, true, true⟩

/-- Eligibility result produced before persisting an eviction intent. -/
inductive ContentEvictionDecision
  /-- The entry is reserved and the supplied physical plan may begin. -/
  | reserved (plan : ContentEvictionPlan)
  /-- One or more guards currently prohibit eviction. -/
  | blocked (blockers : List ContentEvictionBlocker)
  deriving DecidableEq

/-- Result of recording or clearing one item-local dirty snapshot generation. -/
inductive DirtyContentTransition
  | applied
  | alreadyApplied
  | fenced
  deriving DecidableEq

/-! ## Entries and their operations -/

structure ContentStorageEntry where
  key : ContentCacheKey
  mode : ContentStorageMode
  totalSize : ℕ
  providerRanges : Option ContentRangeSet
  platformMaterialization : Option PlatformMaterializationState
  pinned : Bool
  dirtySnapshot : Option LocalContentSnapshot
  leases : AList fun _ : ContentLeaseId => ContentLeaseKind
  leaseCounts : ContentLeaseCounts
  activeCacheWrites : ℕ
  evictionReserved : Bool
  deriving DecidableEq

namespace ContentStorageEntry

def new (key : ContentCacheKey) (mode : ContentStorageMode) (totalSize : ℕ) : ContentStorageEntry where
  key := key
  mode := mode
  totalSize := totalSize
  providerRanges := if mode = .providerManaged ∨ mode = .hybrid then some .empty else none
  platformMaterialization :=
    if mode = .platformManaged ∨ mode = .hybrid then some .unknown else none
  pinned := false
  dirtySnapshot := none
  leases := ∅
  leaseCounts := {}
  activeCacheWrites := 0
  evictionReserved := false

variable (entry : ContentStorageEntry)

def recordProviderRange (range : ByteRange) : Except CloudFilesCoreError Bool × ContentStorageEntry :=
  match entry.providerRanges with
  | none =>
    (.error (.invalidContentStorageState
      "platform-managed content has no provider cache ranges"), entry)
  | some ranges =>
    match ranges.insert range entry.totalSize with
    | .error error => (.error error, entry)
    | .ok (changed, ranges') => (.ok changed, { entry with providerRanges := some ranges' })

/-- Updates platform-observed materialization; provider-managed mode has no such owned state. -/
def observePlatformMaterialization (state : PlatformMaterializationState) :
    Except CloudFilesCoreError Bool × ContentStorageEntry :=
  match entry.platformMaterialization with
  | none =>
    (.error (.invalidContentStorageState
      "provider-managed content has no platform materialization state"), entry)
  | some current =>
    if current = state then (.ok false, entry)
    else (.ok true, { entry with platformMaterialization := some state })

/-- Updates the product/native pin guard. -/
def setPinned (pinned : Bool) : Except CloudFilesCoreError Bool × ContentStorageEntry :=
  if pinned && entry.evictionReserved then
    (.error (.invalidContentStorageState "content cannot become pinned during eviction"), entry)
  else (.ok (entry.pinned != pinned), { entry with pinned := pinned })

def markDirty (snapshot : LocalContentSnapshot) :
    Except CloudFilesCoreError DirtyContentTransition × ContentStorageEntry :=
  if entry.evictionReserved then
    (.error (.invalidContentStorageState "dirty content cannot start during eviction"), entry)
  else if snapshot.itemKey ≠ entry.key.itemKey then
    (.error (.invalidContentStorageState
      "dirty snapshot item does not match the content entry"), entry)
  else
    match entry.dirtySnapshot with
    | none => (.ok .applied, { entry with dirtySnapshot := some snapshot })
    | some current =>
      if current = snapshot then (.ok .alreadyApplied, entry)
      else if snapshot.generation.value < current.generation.value then (.ok .fenced, entry)
      else if snapshot.generation = current.generation then
        (.error (.invalidContentStorageState
          "one local generation identifies different immutable snapshots"), entry)
      else (.ok .applied, { entry with dirtySnapshot := some snapshot })

def clearDirty (generation : LocalContentGeneration) :
    Except CloudFilesCoreError DirtyContentTransition × ContentStorageEntry :=
  match entry.dirtySnapshot with
  | none => (.ok .alreadyApplied, entry)
  | some current =>
    if generation.value < current.generation.value then (.ok .fenced, entry)
    else if generation.value > current.generation.value then
      (.error (.invalidContentStorageState "dirty clear generation was never recorded"), entry)
    else (.ok .applied, { entry with dirtySnapshot := none })

def acquireLease (leaseId : ContentLeaseId) (kind : ContentLeaseKind) :
    Except CloudFilesCoreError Bool × ContentStorageEntry :=
  if entry.evictionReserved then
    (.error (.invalidContentStorageState "content lease cannot start during eviction"), entry)
  else
    match entry.leases.lookup leaseId with
    | some existing =>
      if existing = kind then (.ok false, entry)
      else
        (.error (.invalidContentStorageState "content lease id already has another kind"), entry)
    | none =>
      match entry.leaseCounts.increment kind with
      | .error error => (.error error, entry)
      | .ok counts =>
        (.ok true, { entry with leaseCounts := counts, leases := entry.leases.insert leaseId kind })

def releaseLease (leaseId : ContentLeaseId) : Except CloudFilesCoreError Bool × ContentStorageEntry :=
  match entry.leases.lookup leaseId with
  | none => (.ok false, entry)
  | some kind =>
    match entry.leaseCounts.decrement kind with
    | .error error => (.error error, { entry with leases := entry.leases.erase leaseId })
    | .ok counts =>
      (.ok true, { entry with leaseCounts := counts, leases := entry.leases.erase leaseId })

def beginCacheWrite : Except CloudFilesCoreError Unit × ContentStorageEntry :=
  if entry.providerRanges = none then
    (.error (.invalidContentStorageState
      "platform-managed content has no provider cache write target"), entry)
  else if entry.evictionReserved then
    (.error (.invalidContentStorageState
      "provider cache write cannot start during eviction"), entry)
  else if entry.activeCacheWrites = u32Max then
    (.error (.invalidContentStorageState "active cache write count overflowed"), entry)
  else (.ok (), { entry with activeCacheWrites := entry.activeCacheWrites + 1 })

def completeCacheWrite : Except CloudFilesCoreError Unit × ContentStorageEntry :=
  if entry.activeCacheWrites = 0 then
    (.error (.invalidContentStorageState "completed cache write has no active reservation"), entry)
  else (.ok (), { entry with activeCacheWrites := entry.activeCacheWrites - 1 })

def blockerIf (guard : Bool) (blocker : ContentEvictionBlocker) : List ContentEvictionBlocker :=
  if guard then [blocker] else []

/-- Computes blockers without changing reservation state. -/
def evictionBlockers : List ContentEvictionBlocker :=
  blockerIf entry.pinned .pinned ++ blockerIf entry.dirtySnapshot.isSome .dirty
    ++ blockerIf (0 < entry.leaseCounts.opened) .openLease
    ++ blockerIf (0 < entry.leaseCounts.read) .readLease
    ++ blockerIf (0 < entry.leaseCounts.write) .writeLease
    ++ blockerIf (0 < entry.leaseCounts.hydration) .hydrationLease
    ++ blockerIf (0 < entry.leaseCounts.upload) .uploadLease
    ++ blockerIf (0 < entry.leaseCounts.verification) .verificationLease
    ++ blockerIf (0 < entry.activeCacheWrites) .cacheWriteInProgress
    ++ blockerIf entry.evictionReserved .evictionInProgress

def reserveEviction (target : ContentEvictionTarget) :
    Except CloudFilesCoreError ContentEvictionDecision × ContentStorageEntry :=
  match ContentEvictionPlan.forTarget entry.mode target with
  | .error error => (.error error, entry)
  | .ok plan =>
    if entry.evictionBlockers ≠ [] then (.ok (.blocked entry.evictionBlockers), entry)
    else (.ok (.reserved plan), { entry with evictionReserved := true })

/-- Applies reconciled physical effects to metadata while retaining the reservation.  The provider
cache is cleared before the platform layer is looked at, also when that one then fails. -/
def reconcileEviction (plan : ContentEvictionPlan) : Except CloudFilesCoreError Unit × ContentStorageEntry :=
  if entry.evictionReserved = false then
    (.error (.invalidContentStorageState
      "eviction metadata reconciliation requires a reservation"), entry)
  else if plan.removeProviderCache && entry.providerRanges.isNone then
    (.error (.invalidContentStorageState "eviction plan removes an unowned provider cache"), entry)
  else
    let cleared :=
      if plan.removeProviderCache then { entry with providerRanges := some .empty } else entry
    if plan.evictPlatformMaterialization = false then (.ok (), cleared)
    else if cleared.platformMaterialization = none then
      (.error (.invalidContentStorageState
        "eviction plan evicts an unowned platform materialization"), cleared)
    else (.ok (), { cleared with platformMaterialization := some .dataless })

/-- Releases the reservation after the durable eviction record reaches completion. -/
def completeEviction : Except CloudFilesCoreError Unit × ContentStorageEntry :=
  if entry.evictionReserved = false then
    (.error (.invalidContentStorageState "completed eviction has no active reservation"), entry)
  else (.ok (), { entry with evictionReserved := false })

end ContentStorageEntry

/-- One call of a public operation of an entry, with its arguments. -/
inductive ContentEntryOp
  | recordProviderRange (range : ByteRange)
  | observePlatformMaterialization (state : PlatformMaterializationState)
  | setPinned (pinned : Bool)
  | markDirty (snapshot : LocalContentSnapshot)
  | clearDirty (generation : LocalContentGeneration)
  | acquireLease (leaseId : ContentLeaseId) (kind : ContentLeaseKind)
  | releaseLease (leaseId : ContentLeaseId)
  | beginCacheWrite
  | completeCacheWrite
  | reserveEviction (target : ContentEvictionTarget)
  | reconcileEviction (plan : ContentEvictionPlan)
  | completeEviction

/-- The entry after one operation, whether it succeeded or failed. -/
def ContentStorageEntry.apply (entry : ContentStorageEntry) : ContentEntryOp → ContentStorageEntry
  | .recordProviderRange range => (entry.recordProviderRange range).2
  | .observePlatformMaterialization state => (entry.observePlatformMaterialization state).2
  | .setPinned pinned => (entry.setPinned pinned).2
  | .markDirty snapshot => (entry.markDirty snapshot).2
  | .clearDirty generation => (entry.clearDirty generation).2
  | .acquireLease leaseId kind => (entry.acquireLease leaseId kind).2
  | .releaseLease leaseId => (entry.releaseLease leaseId).2
  | .beginCacheWrite => entry.beginCacheWrite.2
  | .completeCacheWrite => entry.completeCacheWrite.2
  | .reserveEviction target => (entry.reserveEviction target).2
  | .reconcileEviction plan => (entry.reconcileEviction plan).2
  | .completeEviction => entry.completeEviction.2

/-- The entry after a whole sequence of operations. -/
def ContentStorageEntry.applyAll (entry : ContentStorageEntry) (ops : List ContentEntryOp) :
    ContentStorageEntry :=
  ops.foldl ContentStorageEntry.apply entry

/-! ## What an operation can change -/

/-- The ways in which one operation can change an entry, each with the guards it has passed. -/
inductive EntryEffect (entry : ContentStorageEntry) : ContentEntryOp → ContentStorageEntry → Prop
  | unchanged (op : ContentEntryOp) : EntryEffect entry op entry
  | rangeRecorded {range : ByteRange} {ranges ranges' : ContentRangeSet} {changed : Bool}
      (howned : entry.providerRanges = some ranges)
      (hinsert : ranges.insert range entry.totalSize = .ok (changed, ranges')) :
      EntryEffect entry (.recordProviderRange range) { entry with providerRanges := some ranges' }
  | materializationObserved (state : PlatformMaterializationState) :
      EntryEffect entry (.observePlatformMaterialization state)
        { entry with platformMaterialization := some state }
  | pinnedSet {pinned : Bool} (hguard : pinned = true → entry.evictionReserved = false) :
      EntryEffect entry (.setPinned pinned) { entry with pinned := pinned }
  | dirtied {snapshot : LocalContentSnapshot} (hguard : entry.evictionReserved = false) :
      EntryEffect entry (.markDirty snapshot) { entry with dirtySnapshot := some snapshot }
  | cleaned {current : LocalContentSnapshot} {generation : LocalContentGeneration}
      (hdirty : entry.dirtySnapshot = some current) (howner : generation = current.generation) :
      EntryEffect entry (.clearDirty generation) { entry with dirtySnapshot := none }
  | leaseAcquired {leaseId : ContentLeaseId} {kind : ContentLeaseKind}
      (hguard : entry.evictionReserved = false) (hfresh : entry.leases.lookup leaseId = none) :
      EntryEffect entry (.acquireLease leaseId kind)
        { entry with
          leaseCounts := entry.leaseCounts.setValue kind (entry.leaseCounts.value kind + 1)
          leases := entry.leases.insert leaseId kind }
  | leaseDropped {leaseId : ContentLeaseId} {kind : ContentLeaseKind}
      (hheld : entry.leases.lookup leaseId = some kind) (hzero : entry.leaseCounts.value kind = 0) :
      EntryEffect entry (.releaseLease leaseId) { entry with leases := entry.leases.erase leaseId }
  | leaseReleased {leaseId : ContentLeaseId} {kind : ContentLeaseKind}
      (hheld : entry.leases.lookup leaseId = some kind) (hpos : entry.leaseCounts.value kind ≠ 0) :
      EntryEffect entry (.releaseLease leaseId)
        { entry with
          leaseCounts := entry.leaseCounts.setValue kind (entry.leaseCounts.value kind - 1)
          leases := entry.leases.erase leaseId }
  | cacheWriteBegun (hguard : entry.evictionReserved = false) :
      EntryEffect entry .beginCacheWrite { entry with activeCacheWrites := entry.activeCacheWrites + 1 }
  | cacheWriteCompleted :
      EntryEffect entry .completeCacheWrite { entry with activeCacheWrites := entry.activeCacheWrites - 1 }
  | reserved {target : ContentEvictionTarget} (hguard : entry.evictionBlockers = []) :
      EntryEffect entry (.reserveEviction target) { entry with evictionReserved := true }
  | reconciled {plan : ContentEvictionPlan} {ranges : Option ContentRangeSet}
      (materialization : Option PlatformMaterializationState) (hguard : entry.evictionReserved = true)
      (hranges : ranges = entry.providerRanges ∨ ranges = some .empty) :
      EntryEffect entry (.reconcileEviction plan)
        { entry with providerRanges := ranges, platformMaterialization := materialization }
  | completed (hguard : entry.evictionReserved = true) :
      EntryEffect entry .completeEviction { entry with evictionReserved := false }

namespace ContentStorageEntry

section

variable (en : ContentStorageEntry)
include en

variable (li : ContentLeaseId)

lemma releaseLease_effect : EntryEffect en (.releaseLease li) (en.releaseLease li).2 := by
  unfold releaseLease
  cases hheld : en.leases.lookup li with
  | none => exact .unchanged _
  | some k =>
    by_cases hzero : en.leaseCounts.value k = 0
    · simp only [ContentLeaseCounts.decrement, if_pos hzero]
      exact .leaseDropped hheld hzero
    · simp only [ContentLeaseCounts.decrement, if_neg hzero]
      exact .leaseReleased hheld hzero

lemma acquireLease_effect (k : ContentLeaseKind) :
    EntryEffect en (.acquireLease li k) (en.acquireLease li k).2 := by
  unfold acquireLease
  by_cases hresv : en.evictionReserved = true
  · rw [if_pos hresv]
    exact .unchanged _
  rw [if_neg hresv]
  cases hfresh : en.leases.lookup li with
  | some e =>
    by_cases hkind : e = k
    · simp only [if_pos hkind]
      exact .unchanged _
    · simp only [if_neg hkind]
      exact .unchanged _
  | none =>
    by_cases hmax : en.leaseCounts.value k = u32Max
    · simp only [ContentLeaseCounts.increment, if_pos hmax]
      exact .unchanged _
    · simp only [ContentLeaseCounts.increment, if_neg hmax]
      exact .leaseAcquired (Bool.eq_false_iff.mpr hresv) hfresh

lemma markDirty_effect (s : LocalContentSnapshot) : EntryEffect en (.markDirty s) (en.markDirty s).2 := by
  unfold markDirty
  by_cases hresv : en.evictionReserved = true
  · rw [if_pos hresv]
    exact .unchanged _
  rw [if_neg hresv]
  by_cases hitem : s.itemKey ≠ en.key.itemKey
  · rw [if_pos hitem]
    exact .unchanged _
  rw [if_neg hitem]
  have happl : EntryEffect en (.markDirty s)
      { en with dirtySnapshot := some s } := .dirtied (Bool.eq_false_iff.mpr hresv)
  cases en.dirtySnapshot with
  | none => exact happl
  | some c =>
    dsimp only
    split_ifs
    · exact .unchanged _
    · exact .unchanged _
    · exact .unchanged _
    · exact happl

lemma clearDirty_effect (g : LocalContentGeneration) : EntryEffect en (.clearDirty g) (en.clearDirty g).2 := by
  unfold clearDirty
  cases hdirty : en.dirtySnapshot with
  | none => exact .unchanged _
  | some c =>
    dsimp only
    split_ifs with hlt hgt
    · exact .unchanged _
    · exact .unchanged _
    · refine .cleaned hdirty ?_
      cases g
      cases hcurr : c.generation
      simp only [hcurr, LocalContentGeneration.mk.injEq] at hlt hgt ⊢
      omega

lemma reconcileEviction_effect (p : ContentEvictionPlan) :
    EntryEffect en (.reconcileEviction p) (en.reconcileEviction p).2 := by
  unfold reconcileEviction
  by_cases hresv : en.evictionReserved = false
  · rw [if_pos hresv]
    exact .unchanged _
  rw [if_neg hresv]
  have hguard : en.evictionReserved = true := by simpa using hresv
  by_cases howned : (p.removeProviderCache && en.providerRanges.isNone) = true
  · rw [if_pos howned]
    exact .unchanged _
  rw [if_neg howned]
  -- the provider layer is cleared or kept, and then the platform layer is updated or kept
  cases p.removeProviderCache
  · simp only [Bool.false_eq_true, if_false]
    split_ifs
    · exact .unchanged _
    · exact .unchanged _
    · exact .reconciled (some .dataless) hguard (.inl rfl)
  · simp only [if_true]
    split_ifs
    · exact .reconciled en.platformMaterialization hguard (.inr rfl)
    · exact .reconciled en.platformMaterialization hguard (.inr rfl)
    · exact .reconciled (some .dataless) hguard (.inr rfl)

/-- **Every operation has one of the effects.** -/
theorem apply_effect (op : ContentEntryOp) : EntryEffect en op (en.apply op) := by
  cases op with
  | recordProviderRange rn =>
    simp only [apply, recordProviderRange]
    cases howned : en.providerRanges with
    | none => exact .unchanged _
    | some r =>
      cases hins : r.insert rn en.totalSize with
      | error e =>
        simp only [hins]
        exact .unchanged _
      | ok rs =>
        simp only [hins]
        exact .rangeRecorded howned hins
  | observePlatformMaterialization st =>
    simp only [apply, observePlatformMaterialization]
    cases en.platformMaterialization with
    | none => exact .unchanged _
    | some c =>
      dsimp only
      split_ifs
      · exact .unchanged _
      · exact .materializationObserved st
  | setPinned pn =>
    simp only [apply, setPinned]
    split_ifs with hguard
    · exact .unchanged _
    · exact .pinnedSet fun hp => by simpa [hp] using hguard
  | markDirty s => exact markDirty_effect en s
  | clearDirty g => exact clearDirty_effect en g
  | acquireLease li k => exact acquireLease_effect en li k
  | releaseLease li => exact releaseLease_effect en li
  | beginCacheWrite =>
    simp only [apply, beginCacheWrite]
    split_ifs with howned hresv hmax
    · exact .unchanged _
    · exact .unchanged _
    · exact .unchanged _
    · exact .cacheWriteBegun (Bool.eq_false_iff.mpr hresv)
  | completeCacheWrite =>
    simp only [apply, completeCacheWrite]
    split_ifs
    · exact .unchanged _
    · exact .cacheWriteCompleted
  | reserveEviction t =>
    simp only [apply, reserveEviction]
    cases ContentEvictionPlan.forTarget en.mode t with
    | error e => exact .unchanged _
    | ok p =>
      split_ifs with hblock
      · exact .unchanged _
      · exact .reserved (not_not.mp hblock)
  | reconcileEviction p => exact reconcileEviction_effect en p
  | completeEviction =>
    simp only [apply, completeEviction]
    split_ifs with hresv
    · exact .unchanged _
    · exact .completed (by simpa using hresv)

end

end ContentStorageEntry

end AsterForge.Core
