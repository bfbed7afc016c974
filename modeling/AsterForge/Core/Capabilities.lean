import AsterForge.Core.Hydration
import AsterForge.Library.PartialOperation
import Mathlib.Data.Nat.GCD.Basic
import Mathlib.Data.PNat.Prime

/-!
# Capability negotiation

A cloud-files session works with the intersection of what its backend, its platform and its product host
describe, taken two at a time.  Intersecting fails in one dimension only: two alignments of range reads
combine to their least common multiple, which has to fit a `u64`.

* **`negotiation_orders`** — negotiating three values in any order and grouping: what succeeds agrees,
  and the exact condition under which all ways succeed or fail together.
-/

namespace AsterForge.Core

open Library Option

/-! ## Alignments -/

/-- Euclid's loop. -/
def greatestCommonDivisor (left right : ℕ) : ℕ :=
  if right = 0 then left else greatestCommonDivisor right (left % right)
termination_by right
decreasing_by exact Nat.mod_lt _ (Nat.pos_of_ne_zero ‹_›)

lemma greatestCommonDivisor_eq (left right : ℕ) : greatestCommonDivisor left right = Nat.gcd left right := by
  induction left, right using greatestCommonDivisor.induct with
  | case1 left => simp [greatestCommonDivisor]
  | case2 left right h ih =>
    rw [greatestCommonDivisor, if_neg h, ih, Nat.gcd_comm, ← Nat.gcd_rec, Nat.gcd_comm]

/-- Combines two physical alignment requirements using their least common multiple. -/
def Alignment.intersection (self other : Alignment) : Except CloudFilesCoreError Alignment :=
  let divisor := greatestCommonDivisor self.bytes other.bytes
  let left := self.bytes / divisor
  if h : left * other.bytes ≤ u64Max then
    .ok ⟨left * other.bytes, by
      have hgcd : divisor = Nat.gcd self.bytes other.bytes := greatestCommonDivisor_eq _ _
      have hleft : 0 < left := by
        refine Nat.div_pos (Nat.le_of_dvd self.nonzero ?_) ?_
        · exact hgcd ▸ Nat.gcd_dvd_left _ _
        · exact hgcd ▸ Nat.gcd_pos_of_pos_left _ self.nonzero
      exact Nat.mul_pos hleft other.nonzero, h⟩
  else .error (.alignmentIntersectionOverflow self.bytes other.bytes)

lemma lcm_eq (left right : ℕ) :
    left / greatestCommonDivisor left right * right = Nat.lcm left right := by
  rw [greatestCommonDivisor_eq, Nat.div_mul_right_comm (Nat.gcd_dvd_left _ _)]
  rfl

/-! ## The dimensions -/

/-- Stable identity properties exposed by a backend/adapter boundary. -/
structure IdentityCapabilities where
  stableItemIds : Bool
  pathIndependentItemIds : Bool
  sameRootMovePreservesIdentity : Bool
  crossRootMovePreservesIdentity : Bool

def IdentityCapabilities.intersection (self other : IdentityCapabilities) : IdentityCapabilities where
  stableItemIds := self.stableItemIds && other.stableItemIds
  pathIndependentItemIds := self.pathIndependentItemIds && other.pathIndependentItemIds
  sameRootMovePreservesIdentity :=
    self.sameRootMovePreservesIdentity && other.sameRootMovePreservesIdentity
  crossRootMovePreservesIdentity :=
    self.crossRootMovePreservesIdentity && other.crossRootMovePreservesIdentity

structure RevisionCapabilities where
  separateMetadataAndContent : Bool
  conditionalMetadataMutation : Bool
  conditionalContentAccess : Bool

def RevisionCapabilities.intersection (self other : RevisionCapabilities) : RevisionCapabilities where
  separateMetadataAndContent := self.separateMetadataAndContent && other.separateMetadataAndContent
  conditionalMetadataMutation :=
    self.conditionalMetadataMutation && other.conditionalMetadataMutation
  conditionalContentAccess := self.conditionalContentAccess && other.conditionalContentAccess

structure EnumerationCapabilities where
  paged : Bool
  stableSnapshot : Bool

def EnumerationCapabilities.intersection (self other : EnumerationCapabilities) :
    EnumerationCapabilities where
  paged := self.paged && other.paged
  stableSnapshot := self.stableSnapshot && other.stableSnapshot

structure AnchoredChangeCapabilities where
  cursorReset : Bool
  tombstones : Bool

def AnchoredChangeCapabilities.intersection (self other : AnchoredChangeCapabilities) :
    AnchoredChangeCapabilities where
  cursorReset := self.cursorReset && other.cursorReset
  tombstones := self.tombstones && other.tombstones

/-- Supported strategies for discovering remote changes. -/
structure ChangeCapabilities where
  anchored : Option AnchoredChangeCapabilities
  snapshotDiff : Bool
  externalInvalidation : Bool

def ChangeCapabilities.intersection (self other : ChangeCapabilities) : ChangeCapabilities where
  anchored :=
    match self.anchored, other.anchored with
    | some left, some right => some (left.intersection right)
    | _, _ => none
  snapshotDiff := self.snapshotDiff && other.snapshotDiff
  externalInvalidation := self.externalInvalidation && other.externalInvalidation

structure RangeHydrationCapabilities where
  alignment : Alignment
  partialCancel : Bool

def RangeHydrationCapabilities.intersection (self other : RangeHydrationCapabilities) :
    Except CloudFilesCoreError RangeHydrationCapabilities :=
  (self.alignment.intersection other.alignment).map fun alignment =>
    ⟨alignment, self.partialCancel && other.partialCancel⟩

structure HydrationCapabilities where
  wholeFile : Bool
  range : Option RangeHydrationCapabilities
  progressiveRange : Option RangeHydrationCapabilities
  incrementalFromExisting : Bool

/-- Intersects a range strategy that either side may lack; without one of them there is nothing to
intersect, and nothing to fail. -/
def intersectRange (left right : Option RangeHydrationCapabilities) :
    Except CloudFilesCoreError (Option RangeHydrationCapabilities) :=
  match left, right with
  | some left, some right => (left.intersection right).map some
  | _, _ => .ok none

def HydrationCapabilities.intersection (self other : HydrationCapabilities) :
    Except CloudFilesCoreError HydrationCapabilities := do
  let range ← intersectRange self.range other.range
  let progressiveRange ← intersectRange self.progressiveRange other.progressiveRange
  return ⟨self.wholeFile && other.wholeFile, range, progressiveRange,
    self.incrementalFromExisting && other.incrementalFromExisting⟩

/-- Mutation operations supported across a backend/adapter boundary. -/
structure MutationCapabilities where
  create : Bool
  modifyMetadata : Bool
  modifyContent : Bool
  delete : Bool
  atomicMove : Bool
  crossRootMove : Bool
  resumableUpload : Bool

def MutationCapabilities.intersection (self other : MutationCapabilities) : MutationCapabilities where
  create := self.create && other.create
  modifyMetadata := self.modifyMetadata && other.modifyMetadata
  modifyContent := self.modifyContent && other.modifyContent
  delete := self.delete && other.delete
  atomicMove := self.atomicMove && other.atomicMove
  crossRootMove := self.crossRootMove && other.crossRootMove
  resumableUpload := self.resumableUpload && other.resumableUpload

structure ContentStorageModes where
  platformManaged : Bool
  providerManaged : Bool
  hybrid : Bool

def ContentStorageModes.intersection (self other : ContentStorageModes) : ContentStorageModes where
  platformManaged := self.platformManaged && other.platformManaged
  providerManaged := self.providerManaged && other.providerManaged
  hybrid := self.hybrid && other.hybrid

structure MaterializationCapabilities where
  storageModes : ContentStorageModes

def MaterializationCapabilities.intersection (self other : MaterializationCapabilities) :
    MaterializationCapabilities where
  storageModes := self.storageModes.intersection other.storageModes

/-- Eviction and pinning mechanics available to the effective adapter. -/
structure EvictionCapabilities where
  supported : Bool
  pinning : Bool
  dirtyGuard : Bool
  openLeaseGuard : Bool

/-- The guards are worth something only where eviction itself is supported. -/
def EvictionCapabilities.intersection (self other : EvictionCapabilities) :
    EvictionCapabilities :=
  let supported := self.supported && other.supported
  { supported
    pinning := supported && self.pinning && other.pinning
    dirtyGuard := supported && self.dirtyGuard && other.dirtyGuard
    openLeaseGuard := supported && self.openLeaseGuard && other.openLeaseGuard }

/-- Cancellation precision supported by an operation boundary, weakest first. -/
inductive CancellationLevel
  | none
  | bestEffortRequest
  | exactRequest
  | rangeSubset

/-- The derived order of the source: the position in the declaration. -/
def CancellationLevel.rank : CancellationLevel → ℕ
  | .none => 0
  | .bestEffortRequest => 1
  | .exactRequest => 2
  | .rangeSubset => 3

def CancellationLevel.intersection (self other : CancellationLevel) : CancellationLevel :=
  if self.rank ≤ other.rank then self else other

/-- Filename comparison and preservation properties. -/
structure NamingCapabilities where
  caseSensitive : Bool
  casePreserving : Bool
  normalizationPreserving : Bool

def NamingCapabilities.intersection (self other : NamingCapabilities) : NamingCapabilities where
  caseSensitive := self.caseSensitive && other.caseSensitive
  casePreserving := self.casePreserving && other.casePreserving
  normalizationPreserving := self.normalizationPreserving && other.normalizationPreserving

/-- A non-zero `usize`. -/
@[ext]
structure NonZeroUsize where
  value : ℕ
  nonzero : 0 < value
  le_max : value ≤ usizeMax

def minimumOptionalLimit (left right : Option NonZeroUsize) : Option NonZeroUsize :=
  match left, right with
  | some left, some right => some (if left.value ≤ right.value then left else right)
  | some limit, none => some limit
  | none, some limit => some limit
  | none, none => none

lemma minimumOptionalLimit_comm (a b : Option NonZeroUsize) :
    minimumOptionalLimit a b = minimumOptionalLimit b a := by
  cases a <;> cases b <;> simp [minimumOptionalLimit]
  refine NonZeroUsize.ext ?_
  repeat' split
  all_goals omega

lemma minimumOptionalLimit_rotate (a b c : Option NonZeroUsize) :
    minimumOptionalLimit (minimumOptionalLimit b c) a =
      minimumOptionalLimit (minimumOptionalLimit a b) c := by
  cases a <;> cases b <;> cases c <;> simp [minimumOptionalLimit]
  all_goals
    refine NonZeroUsize.ext ?_
    repeat' split
    all_goals omega

structure CloudFilesLimits where
  nativeIdentityMaxBytes : Option NonZeroUsize
  maxTransferChunk : Option NonZeroUsize
  maxInFlightRequests : Option NonZeroUsize
  directoryPageSizeHint : Option NonZeroUsize
  nameMaxEncodedBytes : Option NonZeroUsize

def CloudFilesLimits.intersection (self other : CloudFilesLimits) : CloudFilesLimits where
  nativeIdentityMaxBytes :=
    minimumOptionalLimit self.nativeIdentityMaxBytes other.nativeIdentityMaxBytes
  maxTransferChunk := minimumOptionalLimit self.maxTransferChunk other.maxTransferChunk
  maxInFlightRequests := minimumOptionalLimit self.maxInFlightRequests other.maxInFlightRequests
  directoryPageSizeHint :=
    minimumOptionalLimit self.directoryPageSizeHint other.directoryPageSizeHint
  nameMaxEncodedBytes := minimumOptionalLimit self.nameMaxEncodedBytes other.nameMaxEncodedBytes

/-! ## The whole description -/

structure CloudFilesCapabilities where
  identity : IdentityCapabilities
  revisions : RevisionCapabilities
  enumeration : EnumerationCapabilities
  changes : ChangeCapabilities
  hydration : HydrationCapabilities
  mutations : MutationCapabilities
  materialization : MaterializationCapabilities
  eviction : EvictionCapabilities
  cancellation : CancellationLevel
  naming : NamingCapabilities
  limits : CloudFilesLimits

def CloudFilesCapabilities.intersectAround (self other : CloudFilesCapabilities)
    (hydration : HydrationCapabilities) : CloudFilesCapabilities where
  identity := self.identity.intersection other.identity
  revisions := self.revisions.intersection other.revisions
  enumeration := self.enumeration.intersection other.enumeration
  changes := self.changes.intersection other.changes
  hydration := hydration
  mutations := self.mutations.intersection other.mutations
  materialization := self.materialization.intersection other.materialization
  eviction := self.eviction.intersection other.eviction
  cancellation := self.cancellation.intersection other.cancellation
  naming := self.naming.intersection other.naming
  limits := self.limits.intersection other.limits

/-- Computes effective capabilities shared by two boundaries. -/
def CloudFilesCapabilities.intersection (self other : CloudFilesCapabilities) :
    Except CloudFilesCoreError CloudFilesCapabilities :=
  (self.hydration.intersection other.hydration).map (self.intersectAround other)

open CloudFilesCapabilities

/-! ## Negotiating three descriptions -/

/-- One negotiation step, without the reason of a failure. -/
def negotiate (a b : CloudFilesCapabilities) : Option CloudFilesCapabilities :=
  (a.intersection b).toOption

def combineRange (a b : RangeHydrationCapabilities) : Option RangeHydrationCapabilities :=
  (a.intersection b).toOption

/-- A range strategy without the bound on its alignment. -/
def RangeHydrationCapabilities.unbounded (range : RangeHydrationCapabilities) : ℕ+ × Bool :=
  (⟨range.alignment.bytes, range.alignment.nonzero⟩, range.partialCancel)

lemma unbounded_injective : Function.Injective RangeHydrationCapabilities.unbounded := by
  rintro ⟨⟨_, _, _⟩, _⟩ ⟨⟨_, _, _⟩, _⟩ h
  obtain ⟨hb, hc⟩ := Prod.mk.injEq .. ▸ h
  obtain rfl := congrArg PNat.val hb
  obtain rfl := hc
  rfl

/-- The intersection of unbounded range strategies, which cannot fail. -/
def meetUnbounded (a b : ℕ+ × Bool) : ℕ+ × Bool := (PNat.lcm a.1 b.1, a.2 && b.2)

/-- An alignment that a `u64` holds. -/
def AlignmentFits (range : ℕ+ × Bool) : Prop := (range.1 : ℕ) ≤ u64Max

instance decidableAlignmentFits : DecidablePred AlignmentFits := fun range =>
  inferInstanceAs (Decidable ((range.1 : ℕ) ≤ u64Max))

variable (a b : RangeHydrationCapabilities)

lemma alignmentFits_meet : AlignmentFits (meetUnbounded a.unbounded b.unbounded) ↔
    Nat.lcm a.alignment.bytes b.alignment.bytes ≤ u64Max :=
  Iff.rfl

/-- **Range strategies combine like a checked operation**: the bound of the source's multiplication
is the bound of the least common multiple. -/
lemma combineRange_unbounded : (combineRange a b).map RangeHydrationCapabilities.unbounded =
    checked meetUnbounded AlignmentFits a.unbounded b.unbounded := by
  have hlcm := lcm_eq a.alignment.bytes b.alignment.bytes
  by_cases hfits : Nat.lcm a.alignment.bytes b.alignment.bytes ≤ u64Max
  · rw [checked, if_pos ((alignmentFits_meet a b).mpr hfits)]
    simp only [combineRange, RangeHydrationCapabilities.intersection, Alignment.intersection,
      hlcm.trans_le hfits, dif_pos, Except.map, Except.toOption, map_some]
    exact congrArg some (Prod.ext (PNat.eq hlcm) rfl)
  · have hmul : ¬ a.alignment.bytes / greatestCommonDivisor a.alignment.bytes b.alignment.bytes
        * b.alignment.bytes ≤ u64Max := by rwa [hlcm]
    rw [checked, if_neg (mt (alignmentFits_meet a b).mp hfits)]
    simp [combineRange, RangeHydrationCapabilities.intersection, Alignment.intersection, hmul, Except.map, Except.toOption]

lemma meetUnbounded_comm (a b : ℕ+ × Bool) : meetUnbounded a b = meetUnbounded b a := by
  refine Prod.ext (PNat.eq ?_) (Bool.and_comm _ _)
  simp [meetUnbounded, Nat.lcm_comm]

lemma meetUnbounded_assoc (a b c : ℕ+ × Bool) :
    meetUnbounded (meetUnbounded a b) c = meetUnbounded a (meetUnbounded b c) := by
  refine Prod.ext (PNat.eq ?_) (Bool.and_assoc _ _ _)
  simp [meetUnbounded, Nat.lcm_assoc]

lemma alignmentFits_left (a b : ℕ+ × Bool) (h : AlignmentFits (meetUnbounded a b)) : AlignmentFits a :=
  le_trans (PNat.le_of_dvd (PNat.dvd_lcm_left a.1 b.1)) h

lemma combineRange_comm : combineRange a b = combineRange b a := by
  refine map_injective unbounded_injective ?_
  rw [combineRange_unbounded, combineRange_unbounded, checked_comm meetUnbounded_comm]

/-- Three present range strategies combine in any order. -/
theorem combineRange_orderIndependent (a b c : RangeHydrationCapabilities) : OrderIndependent combineRange a b c :=
  OrderIndependent.of_map combineRange_comm unbounded_injective combineRange_unbounded
    (checked_assoc meetUnbounded_comm meetUnbounded_assoc alignmentFits_left _ _ _)

/-- Two range strategies do not combine exactly if their alignments have no common multiple within
a `u64`. -/
lemma combineRange_eq_none :
    combineRange a b = none ↔ u64Max < Nat.lcm a.alignment.bytes b.alignment.bytes := by
  have hmap := combineRange_unbounded a b
  rw [← map_eq_none_iff (f := RangeHydrationCapabilities.unbounded), hmap, checked]
  simp [alignmentFits_meet]

lemma leftGrouping_combineRange_eq_none (a b c : RangeHydrationCapabilities) :
    leftGrouping combineRange a b c = none ↔
      u64Max < Nat.lcm (Nat.lcm a.alignment.bytes b.alignment.bytes) c.alignment.bytes := by
  rw [← map_eq_none_iff (f := RangeHydrationCapabilities.unbounded),
    leftGrouping_map combineRange_unbounded, leftGrouping_checked alignmentFits_left]
  have hfits : AlignmentFits (meetUnbounded (meetUnbounded a.unbounded b.unbounded) c.unbounded) ↔
      Nat.lcm (Nat.lcm a.alignment.bytes b.alignment.bytes) c.alignment.bytes ≤ u64Max := Iff.rfl
  simp [hfits]

/-! ### The dimensions that cannot fail -/

variable (a b : CloudFilesCapabilities)

lemma intersectAround_comm (h : HydrationCapabilities) : a.intersectAround b h = b.intersectAround a h := by
  obtain ⟨ida, ra, ea, ca, -, ma, sa, va, la, na, ta⟩ := a
  obtain ⟨idb, rb, eb, cb, -, mb, sb, vb, lb, nb, tb⟩ := b
  simp only [intersectAround, mk.injEq, true_and]
  refine ⟨?identity, ?revisions, ?enumeration, ?changes, ?mutations, ?materialization, ?eviction,
    ?cancellation, ?naming, ?limits⟩
  case identity => simp only [IdentityCapabilities.intersection, Bool.and_comm]
  case revisions => simp only [RevisionCapabilities.intersection, Bool.and_comm]
  case enumeration => simp only [EnumerationCapabilities.intersection, Bool.and_comm]
  case changes =>
    obtain ⟨_ | _, _, _⟩ := ca <;> obtain ⟨_ | _, _, _⟩ := cb <;>
      simp only [ChangeCapabilities.intersection, AnchoredChangeCapabilities.intersection, Bool.and_comm]
  case mutations => simp only [MutationCapabilities.intersection, Bool.and_comm]
  case materialization =>
    simp only [MaterializationCapabilities.intersection, ContentStorageModes.intersection, Bool.and_comm]
  case eviction =>
    simp only [EvictionCapabilities.intersection, Bool.and_comm, Bool.and_left_comm]
  case cancellation => cases la <;> cases lb <;> rfl
  case naming => simp only [NamingCapabilities.intersection, Bool.and_comm]
  case limits => simp only [CloudFilesLimits.intersection, minimumOptionalLimit_comm]

lemma intersectAround_rotate (a b c : CloudFilesCapabilities) (h₁ h₂ h : HydrationCapabilities) :
    (b.intersectAround c h₁).intersectAround a h = (a.intersectAround b h₂).intersectAround c h := by
  obtain ⟨ida, ra, ea, ca, -, ma, sa, va, la, na, ta⟩ := a
  obtain ⟨idb, rb, eb, cb, -, mb, sb, vb, lb, nb, tb⟩ := b
  obtain ⟨idc, rc, ec, cc, -, mc, sc, vc, lc, nc, tc⟩ := c
  simp only [intersectAround, mk.injEq, true_and]
  refine ⟨?identity, ?revisions, ?enumeration, ?changes, ?mutations, ?materialization, ?eviction,
    ?cancellation, ?naming, ?limits⟩
  case identity =>
    simp only [IdentityCapabilities.intersection, IdentityCapabilities.mk.injEq]
    refine ⟨?_, ?_, ?_, ?_⟩ <;> ac_rfl
  case revisions =>
    simp only [RevisionCapabilities.intersection, RevisionCapabilities.mk.injEq]
    refine ⟨?_, ?_, ?_⟩ <;> ac_rfl
  case enumeration =>
    simp only [EnumerationCapabilities.intersection, EnumerationCapabilities.mk.injEq]
    constructor <;> ac_rfl
  case changes =>
    obtain ⟨_ | xa, _, _⟩ := ca <;> obtain ⟨_ | xb, _, _⟩ := cb <;> obtain ⟨_ | xc, _, _⟩ := cc <;>
      simp [ChangeCapabilities.intersection, AnchoredChangeCapabilities.intersection, ChangeCapabilities.mk.injEq, AnchoredChangeCapabilities.mk.injEq]
    all_goals refine ⟨?_, ?_⟩ <;> first | ac_rfl | (constructor <;> ac_rfl)
  case mutations =>
    simp only [MutationCapabilities.intersection, MutationCapabilities.mk.injEq]
    refine ⟨?_, ?_, ?_, ?_, ?_, ?_, ?_⟩ <;> ac_rfl
  case materialization =>
    simp only [MaterializationCapabilities.intersection, ContentStorageModes.intersection,
      MaterializationCapabilities.mk.injEq, ContentStorageModes.mk.injEq]
    refine ⟨?_, ?_, ?_⟩ <;> ac_rfl
  case eviction =>
    -- the guards repeat the support flags, so the two sides agree only up to idempotence
    simp only [EvictionCapabilities.intersection, EvictionCapabilities.mk.injEq]
    refine ⟨?_, ?_, ?_, ?_⟩ <;> rw [Bool.eq_iff_iff] <;> simp only [Bool.and_eq_true] <;> tauto
  case cancellation => cases la <;> cases lb <;> cases lc <;> rfl
  case naming =>
    simp only [NamingCapabilities.intersection, NamingCapabilities.mk.injEq]
    refine ⟨?_, ?_, ?_⟩ <;> ac_rfl
  case limits =>
    simp only [CloudFilesLimits.intersection, minimumOptionalLimit_rotate]

/-! ### Orders -/

/-- The two hydration dimensions that carry an alignment. -/
inductive RangeStrategy
  | range
  | progressiveRange

/-- What a boundary says about one of them. -/
def CloudFilesCapabilities.strategy (capabilities : CloudFilesCapabilities) :
    RangeStrategy → Option RangeHydrationCapabilities
  | .range => capabilities.hydration.range
  | .progressiveRange => capabilities.hydration.progressiveRange

/-- What three boundaries share, around given range strategies. -/
def CloudFilesCapabilities.jointly (a b c : CloudFilesCapabilities)
    (range progressiveRange : Option RangeHydrationCapabilities) : CloudFilesCapabilities :=
  (a.intersectAround b a.hydration).intersectAround c
    ⟨(a.hydration.wholeFile && b.hydration.wholeFile) && c.hydration.wholeFile, range,
      progressiveRange, (a.hydration.incrementalFromExisting && b.hydration.incrementalFromExisting)
        && c.hydration.incrementalFromExisting⟩

lemma jointly_rotate (a b c : CloudFilesCapabilities) (r pr : Option RangeHydrationCapabilities) :
    b.jointly c a r pr = a.jointly b c r pr := by
  simp only [jointly]
  rw [intersectAround_rotate a b c _ a.hydration]
  congr 2 <;> ac_rfl

lemma intersectRange_toOption (left right : Option RangeHydrationCapabilities) :
    (intersectRange left right).toOption = ifPresent combineRange left right := by
  cases left with
  | none => rfl
  | some left =>
    cases right with
    | none => rfl
    | some right =>
      simp only [intersectRange, ifPresent, combineRange]
      cases left.intersection right <;> rfl

lemma negotiate_eq : negotiate a b =
    (ifPresent combineRange (a.strategy .range) (b.strategy .range)).bind fun r =>
      (ifPresent combineRange (a.strategy .progressiveRange) (b.strategy .progressiveRange)).map
        fun pr => a.intersectAround b ⟨a.hydration.wholeFile && b.hydration.wholeFile, r, pr,
            a.hydration.incrementalFromExisting && b.hydration.incrementalFromExisting⟩ := by
  simp only [← intersectRange_toOption, strategy, negotiate, intersection, HydrationCapabilities.intersection]
  cases intersectRange a.hydration.range b.hydration.range with
  | error _ => rfl
  | ok _ =>
    cases intersectRange a.hydration.progressiveRange b.hydration.progressiveRange <;> rfl

lemma negotiate_comm : negotiate a b = negotiate b a := by
  rw [negotiate_eq, negotiate_eq, ifPresent_comm combineRange_comm,
    ifPresent_comm combineRange_comm (a.strategy .progressiveRange), Bool.and_comm,
    Bool.and_comm a.hydration.incrementalFromExisting]
  simp only [intersectAround_comm a b]

variable (a b c : CloudFilesCapabilities)

/-- **A grouping of three descriptions** succeeds when both range strategies do, in that grouping;
the other dimensions do not depend on it. -/
lemma leftGrouping_negotiate : leftGrouping negotiate a b c =
    (leftGrouping (ifPresent combineRange) (a.strategy .range) (b.strategy .range)
        (c.strategy .range)).bind fun r =>
      (leftGrouping (ifPresent combineRange) (a.strategy .progressiveRange)
          (b.strategy .progressiveRange) (c.strategy .progressiveRange)).map
        fun pr => a.jointly b c r pr := by
  rw [leftGrouping, negotiate_eq, leftGrouping, leftGrouping]
  cases ifPresent combineRange (a.strategy .range) (b.strategy .range) with
  | none => rfl
  | some r =>
    cases ifPresent combineRange (a.strategy .progressiveRange) (b.strategy .progressiveRange) with
    | none => simp
    | some pr =>
      simp only [bind_some, map_some, negotiate_eq]
      rfl

/-- All three boundaries offer one of the strategies, with alignments that have no common multiple
within a `u64`. -/
def SharedOverflow (a b c : CloudFilesCapabilities) : Prop :=
  ∃ strategy, ∃ x y z, a.strategy strategy = some x ∧ b.strategy strategy = some y ∧
    c.strategy strategy = some z ∧
      u64Max < Nat.lcm (Nat.lcm x.alignment.bytes y.alignment.bytes) z.alignment.bytes

/-- The first two boundaries offer one of the strategies, with alignments that have no common
multiple within a `u64`, and the third boundary does not offer it at all. -/
def StrandedOverflow (a b c : CloudFilesCapabilities) : Prop :=
  ∃ strategy, ∃ x y, a.strategy strategy = some x ∧ b.strategy strategy = some y ∧
    c.strategy strategy = none ∧ u64Max < Nat.lcm x.alignment.bytes y.alignment.bytes

lemma leftGrouping_negotiate_eq_none :
    leftGrouping negotiate a b c = none ↔ SharedOverflow a b c ∨ StrandedOverflow a b c := by
  have hstrategy : ∀ s, leftGrouping (ifPresent combineRange) (a.strategy s)
      (b.strategy s) (c.strategy s) = none ↔
        (∃ x y z, a.strategy s = some x ∧ b.strategy s = some y ∧ c.strategy s = some z ∧
            u64Max < Nat.lcm (Nat.lcm x.alignment.bytes y.alignment.bytes) z.alignment.bytes) ∨
        ∃ x y, a.strategy s = some x ∧ b.strategy s = some y ∧
          c.strategy s = none ∧ u64Max < Nat.lcm x.alignment.bytes y.alignment.bytes := by
    intro s
    rw [leftGrouping_ifPresent_eq_none]
    simp only [SharedFailure, Stranded, leftGrouping_combineRange_eq_none, combineRange_eq_none]
  have hboth : ∀ P : RangeStrategy → Prop, (∃ s, P s) ↔ P .range ∨ P .progressiveRange := by
    intro P
    constructor
    · rintro ⟨_ | _, h⟩
      · exact .inl h
      · exact .inr h
    · rintro (h | h)
      · exact ⟨_, h⟩
      · exact ⟨_, h⟩
  rw [leftGrouping_negotiate, SharedOverflow, StrandedOverflow, hboth, hboth, or_or_or_comm,
    ← hstrategy, ← hstrategy]
  cases leftGrouping (ifPresent combineRange) (a.strategy .range) (b.strategy .range) (c.strategy .range) <;>
    cases leftGrouping (ifPresent combineRange) (a.strategy .progressiveRange)
      (b.strategy .progressiveRange) (c.strategy .progressiveRange) <;> simp

/-- What three boundaries share, failures aside. -/
def sharedByAll (a b c : CloudFilesCapabilities) : CloudFilesCapabilities :=
  a.jointly b c (presentResult combineRange (a.strategy .range) (b.strategy .range) (c.strategy .range))
    (presentResult combineRange (a.strategy .progressiveRange) (b.strategy .progressiveRange)
      (c.strategy .progressiveRange))

lemma leftGrouping_negotiate_eq_some {a b c r : CloudFilesCapabilities}
    (h : leftGrouping negotiate a b c = some r) : r = sharedByAll a b c := by
  rw [leftGrouping_negotiate] at h
  simp only [bind_eq_some_iff, map_eq_some_iff] at h
  obtain ⟨rn, hr, pr, hp, rfl⟩ := h
  rw [sharedByAll, leftGrouping_ifPresent_eq_some hr, leftGrouping_ifPresent_eq_some hp]

lemma sharedByAll_rotate : sharedByAll b c a = sharedByAll a b c := by
  simp [sharedByAll, jointly_rotate, presentResult_rotate combineRange_comm combineRange_orderIndependent]

lemma sharedByAll_swap : sharedByAll b a c = sharedByAll a b c := by
  simp only [sharedByAll, jointly, intersectAround_comm b a,
    presentResult_swap combineRange_comm, Bool.and_comm b.hydration.wholeFile,
    Bool.and_comm b.hydration.incrementalFromExisting]
  rfl

lemma sharedOverflow_rotate : SharedOverflow b c a ↔ SharedOverflow a b c := by
  have hrotate := fun s => sharedFailure_rotate combineRange_comm
    combineRange_orderIndependent (a.strategy s) (b.strategy s) (c.strategy s)
  simp only [SharedFailure, leftGrouping_combineRange_eq_none] at hrotate
  exact exists_congr hrotate

lemma not_strandedOverflow_all (hab : StrandedOverflow a b c)
    (hbc : StrandedOverflow b c a) (hca : StrandedOverflow c a b) : False := by
  obtain ⟨s, _, _, ha, hb, hc, -⟩ := hab
  obtain ⟨t, _, _, hb', hc', ha', -⟩ := hbc
  obtain ⟨u, _, _, hc'', ha'', hb'', -⟩ := hca
  cases s <;> cases t <;> cases u <;> simp_all

/-- **Negotiation and order.**  Whatever way of negotiating three descriptions succeeds, it gives
the same value.  All ways have the same outcome exactly if an alignment overflow is shared by all
three — then all of them fail — or no two boundaries overflow over a strategy that the third does
not offer. -/
theorem negotiation_orders (a b c : CloudFilesCapabilities) :
    (∃ shared, ∀ x y z, [x, y, z].Perm [a, b, c] → ∀ result,
      leftGrouping negotiate x y z = some result ∨ rightGrouping negotiate x y z = some result →
        result = shared) ∧
    (OrderIndependent negotiate a b c ↔
      SharedOverflow a b c ∨ ∀ x y z, [x, y, z].Perm [a, b, c] → ¬ StrandedOverflow x y z) := by
  have hshared : ∀ {x y z}, [x, y, z].Perm [a, b, c] → sharedByAll x y z = sharedByAll a b c :=
    eq_of_perm_three sharedByAll_swap sharedByAll_rotate
  have hrot : ∀ {x y z : CloudFilesCapabilities}, [x, y, z].Perm [a, b, c] →
      [y, z, x].Perm [a, b, c] := fun h =>
    List.Perm.trans (by simpa using @List.perm_append_comm _ [_, _] [_]) h
  constructor
  · refine ⟨sharedByAll a b c, fun x y z hp result hr => ?_⟩
    rcases hr with hr | hr
    · rw [leftGrouping_negotiate_eq_some hr, hshared hp]
    · rw [rightGrouping_eq negotiate_comm] at hr
      rw [leftGrouping_negotiate_eq_some hr, hshared (hrot hp)]
  rw [orderIndependent_iff negotiate_comm]
  by_cases hover : SharedOverflow a b c
  · have hn : ∀ {x y z}, SharedOverflow x y z → leftGrouping negotiate x y z = none :=
      fun h => (leftGrouping_negotiate_eq_none _ _ _).mpr (.inl h)
    have hb := (sharedOverflow_rotate a b c).mpr hover
    have hc := (sharedOverflow_rotate b c a).mpr hb
    simp [hn hover, hn hb, hn hc, hover]
  -- without a shared overflow a way fails only where it strands a pair
  have hnotbca : ¬ SharedOverflow b c a := (sharedOverflow_rotate a b c).not.mpr hover
  have hnotcab : ¬ SharedOverflow c a b := (sharedOverflow_rotate b c a).not.mpr hnotbca
  have hab := leftGrouping_negotiate_eq_none a b c
  have hbc := leftGrouping_negotiate_eq_none b c a
  have hca := leftGrouping_negotiate_eq_none c a b
  simp only [hover, hnotbca, hnotcab, false_or] at hab hbc hca ⊢
  constructor
  · rintro ⟨hb, hc⟩
    have hindependent : OrderIndependent negotiate a b c :=
      (orderIndependent_iff negotiate_comm a b c).mpr ⟨hb, hc⟩
    intro x y z hp hs
    have hfails : leftGrouping negotiate a b c = none := by
      rw [← (hindependent x y z hp).1]
      exact (leftGrouping_negotiate_eq_none x y z).mpr (.inr hs)
    exact not_strandedOverflow_all a b c (hab.mp hfails) (hbc.mp (hb.trans hfails)) (hca.mp (hc.trans hfails))
  · intro hn
    have hgives : ∀ {x y z}, [x, y, z].Perm [a, b, c] → ¬ SharedOverflow x y z →
        leftGrouping negotiate x y z = some (sharedByAll a b c) := by
      intro x y z hp hsh
      cases hr : leftGrouping negotiate x y z with
      | none =>
        rcases (leftGrouping_negotiate_eq_none x y z).mp hr with h | h
        · exact absurd h hsh
        · exact absurd h (hn x y z hp)
      | some result => rw [leftGrouping_negotiate_eq_some hr, hshared hp]
    have hpermbca := hrot (List.Perm.refl [a, b, c])
    rw [hgives (List.Perm.refl _) hover, hgives hpermbca hnotbca, hgives (hrot hpermbca) hnotcab]
    exact ⟨rfl, rfl⟩

/-- A boundary that offers nothing: the default of every dimension. -/
def CloudFilesCapabilities.unsupported : CloudFilesCapabilities where
  identity := ⟨false, false, false, false⟩
  revisions := ⟨false, false, false⟩
  enumeration := ⟨false, false⟩
  changes := ⟨none, false, false⟩
  hydration := ⟨false, none, none, false⟩
  mutations := ⟨false, false, false, false, false, false, false⟩
  materialization := ⟨⟨false, false, false⟩⟩
  eviction := ⟨false, false, false, false⟩
  cancellation := .none
  naming := ⟨false, false, false⟩
  limits := ⟨none, none, none, none, none⟩

def CloudFilesCapabilities.withRange (alignment : Alignment) : CloudFilesCapabilities :=
  { CloudFilesCapabilities.unsupported with
    hydration := ⟨false, some ⟨alignment, false⟩, none, false⟩ }

/-- Alignments of `2 ^ 63` and `3` have no common multiple within a `u64`: intersected first they
fail, and intersected after a boundary without range reads they are not looked at. -/
theorem negotiation_depends_on_order :
    ¬ ∀ a b c : CloudFilesCapabilities, OrderIndependent negotiate a b c := by
  intro h
  let a := withRange ⟨2 ^ 63, by decide, by decide⟩
  let b := withRange ⟨3, by decide, by decide⟩
  let c := unsupported
  have hfails : leftGrouping negotiate a b c = none := by
    refine (leftGrouping_negotiate_eq_none a b c).mpr (.inr ⟨.range, _, _, rfl, rfl, rfl, ?_⟩)
    decide
  have hsucceeds : leftGrouping negotiate b c a ≠ none := by
    rintro (⟨_ | _, _, _, _, -, ⟨⟩, -⟩ | ⟨_ | _, _, _, -, ⟨⟩, -⟩)
  have hbca := ((orderIndependent_iff negotiate_comm a b c).mp (h a b c)).1
  exact hsucceeds (hbca.trans hfails)

end AsterForge.Core
