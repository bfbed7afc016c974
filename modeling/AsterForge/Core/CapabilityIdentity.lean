import AsterForge.Core.Capabilities

/-!
# The identity of capability negotiation

Negotiating with `unconstrained()` is meant to change nothing.  The eviction dimension is gated, though:
an intersection clears its guards where eviction is not supported, so negotiation brings a description
to its *normalized* form, and changes nothing more.

* **`intersection_identity`** — negotiating with `unconstrained()`, on either side, or with itself
  normalizes a description, and the descriptions that are kept exactly as they are.
-/

namespace AsterForge.Core

open CloudFilesCapabilities

/-! ## The unconstrained boundary -/

/-- Byte alignment with no additional physical constraint. -/
def Alignment.one : Alignment := ⟨1, Nat.one_pos, one_le_u64Max⟩

def RangeHydrationCapabilities.unconstrained : RangeHydrationCapabilities where
  alignment := Alignment.one
  partialCancel := true

/-- The description of a boundary that constrains no dimension. -/
def CloudFilesCapabilities.unconstrained : CloudFilesCapabilities where
  identity := ⟨true, true, true, true⟩
  revisions := ⟨true, true, true⟩
  enumeration := ⟨true, true⟩
  changes := ⟨some ⟨true, true⟩, true, true⟩
  hydration :=
    ⟨true, some RangeHydrationCapabilities.unconstrained, some RangeHydrationCapabilities.unconstrained, true⟩
  mutations := ⟨true, true, true, true, true, true, true⟩
  materialization := ⟨⟨true, true, true⟩⟩
  eviction := ⟨true, true, true, true⟩
  cancellation := .rangeSubset
  naming := ⟨true, true, true⟩
  limits := ⟨none, none, none, none, none⟩

/-! ## The normalized form -/

def EvictionCapabilities.normalized (self : EvictionCapabilities) : EvictionCapabilities where
  supported := self.supported
  pinning := self.supported && self.pinning
  dirtyGuard := self.supported && self.dirtyGuard
  openLeaseGuard := self.supported && self.openLeaseGuard

def CloudFilesCapabilities.normalized (self : CloudFilesCapabilities) : CloudFilesCapabilities :=
  { self with eviction := self.eviction.normalized }

/-- Eviction is supported, or none of its guards is claimed. -/
def EvictionCapabilities.Consistent (self : EvictionCapabilities) : Prop :=
  self.supported = true ∨ (self.pinning = false ∧ self.dirtyGuard = false ∧ self.openLeaseGuard = false)

lemma EvictionCapabilities.normalized_eq_iff (s : EvictionCapabilities) : s.normalized = s ↔ s.Consistent := by
  obtain ⟨sp, p, dg, olg⟩ := s
  cases sp
  · simp [EvictionCapabilities.normalized, EvictionCapabilities.Consistent, eq_comm]
  · simp [EvictionCapabilities.normalized, EvictionCapabilities.Consistent]

lemma CloudFilesCapabilities.normalized_eq_iff (s : CloudFilesCapabilities) :
    s.normalized = s ↔ s.eviction.Consistent := by
  rw [← EvictionCapabilities.normalized_eq_iff]
  constructor
  · intro h
    exact congrArg eviction h
  · intro h
    simp only [normalized, h]

/-! ## Alignments and range strategies

`Nat.lcm` with itself and with one is the number again, so no overflow can occur. -/

lemma alignment_intersection_eq {a b c : Alignment} (h : Nat.lcm a.bytes b.bytes = c.bytes) :
    a.intersection b = .ok c := by
  have hfits : a.bytes / greatestCommonDivisor a.bytes b.bytes * b.bytes ≤ u64Max := by
    rw [lcm_eq, h]
    exact c.le_max
  simp only [Alignment.intersection, hfits, dite_true, Except.ok.injEq]
  simp only [lcm_eq, h]

variable (a : RangeHydrationCapabilities)

lemma range_intersection_unconstrained : a.intersection .unconstrained = .ok a := by
  have halign : a.alignment.intersection .one = .ok a.alignment :=
    alignment_intersection_eq (Nat.lcm_one_right _)
  rw [RangeHydrationCapabilities.intersection, RangeHydrationCapabilities.unconstrained, halign]
  simp [Except.map]

lemma range_unconstrained_intersection : RangeHydrationCapabilities.unconstrained.intersection a = .ok a := by
  have halign : Alignment.one.intersection a.alignment = .ok a.alignment :=
    alignment_intersection_eq (Nat.lcm_one_left _)
  rw [RangeHydrationCapabilities.intersection, RangeHydrationCapabilities.unconstrained, halign]
  simp [Except.map]

lemma range_intersection_self : a.intersection a = .ok a := by
  have halign : a.alignment.intersection a.alignment = .ok a.alignment :=
    alignment_intersection_eq (Nat.lcm_self _)
  rw [RangeHydrationCapabilities.intersection, halign]
  simp [Except.map]

/-! ## Hydration

The strategies of three descriptions `a`, `b` and `c`, where `a` and `b` combine to `c` wherever
both are present. -/

lemma intersectRange_eq {a b c : Option RangeHydrationCapabilities} (ha : a = none ∨ b = none → c = none)
    (hp : ∀ x y, a = some x → b = some y → ∃ z, c = some z ∧ x.intersection y = .ok z) :
    intersectRange a b = .ok c := by
  cases a with
  | none => rw [ha (.inl rfl)]; rfl
  | some x =>
    cases b with
    | none => rw [ha (.inr rfl)]; rfl
    | some y =>
      obtain ⟨z, hz, hxy⟩ := hp x y rfl rfl
      rw [intersectRange, hxy, hz]
      rfl

variable (a : Option RangeHydrationCapabilities)

lemma intersectRange_unconstrained : intersectRange a (some .unconstrained) = .ok a := by
  refine intersectRange_eq ?_ ?_
  · simp
  · rintro x y hx ⟨⟩
    exact ⟨x, hx, range_intersection_unconstrained x⟩

lemma unconstrained_intersectRange : intersectRange (some .unconstrained) a = .ok a := by
  refine intersectRange_eq ?_ ?_
  · simp
  · rintro x y ⟨⟩ hy
    exact ⟨y, hy, range_unconstrained_intersection y⟩

lemma intersectRange_self : intersectRange a a = .ok a := by
  refine intersectRange_eq ?_ ?_
  · simp
  · intro x y hx hy
    rw [hx, Option.some.injEq] at hy
    exact ⟨x, hx, hy ▸ range_intersection_self x⟩

lemma hydration_intersection_eq {a b c : HydrationCapabilities}
    (hw : (a.wholeFile && b.wholeFile) = c.wholeFile) (hr : intersectRange a.range b.range = .ok c.range)
    (hp : intersectRange a.progressiveRange b.progressiveRange = .ok c.progressiveRange)
    (hi : (a.incrementalFromExisting && b.incrementalFromExisting) = c.incrementalFromExisting) :
    a.intersection b = .ok c := by
  rw [HydrationCapabilities.intersection, hr, hp, hw, hi]
  rfl

/-! ## The other dimensions -/

variable (a : ChangeCapabilities)

lemma anchored_unconstrained : a.intersection unconstrained.changes = a := by
  obtain ⟨an, sd, ei⟩ := a
  cases an <;>
    simp [ChangeCapabilities.intersection, unconstrained, AnchoredChangeCapabilities.intersection]

lemma unconstrained_anchored : unconstrained.changes.intersection a = a := by
  obtain ⟨an, sd, ei⟩ := a
  cases an <;>
    simp [ChangeCapabilities.intersection, unconstrained, AnchoredChangeCapabilities.intersection]

lemma changes_intersection_self : a.intersection a = a := by
  obtain ⟨an, sd, ei⟩ := a
  cases an <;>
    simp [ChangeCapabilities.intersection, AnchoredChangeCapabilities.intersection]

variable (a : CancellationLevel)

lemma cancellation_unconstrained : a.intersection .rangeSubset = a := by
  cases a <;> rfl

lemma unconstrained_cancellation : CancellationLevel.rangeSubset.intersection a = a := by
  cases a <;> rfl

lemma cancellation_intersection_self : a.intersection a = a := by
  simp [CancellationLevel.intersection]

variable (a : Option NonZeroUsize)

lemma minimumOptionalLimit_none : minimumOptionalLimit a none = a := by
  cases a <;> rfl

lemma minimumOptionalLimit_self : minimumOptionalLimit a a = a := by
  cases a <;> simp [minimumOptionalLimit]

lemma none_minimumOptionalLimit : minimumOptionalLimit none a = a := by
  rw [minimumOptionalLimit_comm, minimumOptionalLimit_none]

variable (a : EvictionCapabilities)

/-- Intersected with what supports eviction and claims every guard, a dimension is normalized. -/
lemma eviction_unconstrained : a.intersection unconstrained.eviction = a.normalized := by
  simp [EvictionCapabilities.intersection, EvictionCapabilities.normalized, unconstrained]

lemma unconstrained_eviction : unconstrained.eviction.intersection a = a.normalized := by
  simp [EvictionCapabilities.intersection, EvictionCapabilities.normalized, unconstrained]

lemma eviction_intersection_self : a.intersection a = a.normalized := by
  simp [EvictionCapabilities.intersection, EvictionCapabilities.normalized]

/-! ## The whole description -/

lemma intersection_of_hydration {a b : CloudFilesCapabilities} {hy : HydrationCapabilities}
    (h : a.hydration.intersection b.hydration = .ok hy) : a.intersection b = .ok (a.intersectAround b hy) := by
  rw [intersection, h]
  rfl

variable (a : CloudFilesCapabilities)

theorem intersection_unconstrained : a.intersection .unconstrained = .ok a.normalized := by
  have hhydration : a.hydration.intersection unconstrained.hydration = .ok a.hydration :=
    hydration_intersection_eq (Bool.and_true _) (intersectRange_unconstrained _)
      (intersectRange_unconstrained _) (Bool.and_true _)
  rw [intersection_of_hydration hhydration, intersectAround, anchored_unconstrained, eviction_unconstrained]
  simp [normalized, unconstrained, IdentityCapabilities.intersection, RevisionCapabilities.intersection,
    EnumerationCapabilities.intersection, MutationCapabilities.intersection,
    MaterializationCapabilities.intersection, ContentStorageModes.intersection,
    NamingCapabilities.intersection, CloudFilesLimits.intersection, minimumOptionalLimit_none,
    cancellation_unconstrained]

theorem unconstrained_intersection : unconstrained.intersection a = .ok a.normalized := by
  have hhydration : unconstrained.hydration.intersection a.hydration = .ok a.hydration :=
    hydration_intersection_eq (Bool.true_and _) (unconstrained_intersectRange _)
      (unconstrained_intersectRange _) (Bool.true_and _)
  rw [intersection_of_hydration hhydration, intersectAround, unconstrained_anchored, unconstrained_eviction]
  simp [normalized, unconstrained, IdentityCapabilities.intersection, RevisionCapabilities.intersection,
    EnumerationCapabilities.intersection, MutationCapabilities.intersection,
    MaterializationCapabilities.intersection, ContentStorageModes.intersection,
    NamingCapabilities.intersection, CloudFilesLimits.intersection, none_minimumOptionalLimit,
    unconstrained_cancellation]

theorem intersection_self : a.intersection a = .ok a.normalized := by
  have hhydration : a.hydration.intersection a.hydration = .ok a.hydration :=
    hydration_intersection_eq (Bool.and_self _) (intersectRange_self _) (intersectRange_self _)
      (Bool.and_self _)
  rw [intersection_of_hydration hhydration, intersectAround,
    changes_intersection_self, eviction_intersection_self, cancellation_intersection_self]
  simp [normalized, IdentityCapabilities.intersection,
    RevisionCapabilities.intersection, EnumerationCapabilities.intersection,
    MutationCapabilities.intersection, MaterializationCapabilities.intersection,
    ContentStorageModes.intersection, NamingCapabilities.intersection,
    CloudFilesLimits.intersection, minimumOptionalLimit_self]

/-- **Identity and idempotence.**  Intersecting a description with `unconstrained()` on either side,
or with itself, succeeds and gives the description with the guards of unsupported eviction cleared.
That is the description itself exactly if it supports eviction or claims no guard. -/
theorem intersection_identity (c : CloudFilesCapabilities) :
    c.intersection .unconstrained = .ok c.normalized ∧ unconstrained.intersection c = .ok c.normalized ∧
      c.intersection c = .ok c.normalized ∧ (c.normalized = c ↔ c.eviction.Consistent) :=
  ⟨intersection_unconstrained c, unconstrained_intersection c, intersection_self c, normalized_eq_iff c⟩

/-- A description that offers nothing but a pin state, without supporting eviction. -/
def CloudFilesCapabilities.pinningOnly : CloudFilesCapabilities :=
  { CloudFilesCapabilities.unsupported with eviction := ⟨false, true, false, false⟩ }

/-- The pin state of a boundary without eviction is lost on negotiation. -/
theorem intersection_unconstrained_counterexample :
    ¬ ∀ c : CloudFilesCapabilities, c.intersection .unconstrained = .ok c ∧
      unconstrained.intersection c = .ok c ∧ c.intersection c = .ok c := by
  intro h
  have hkept := (h .pinningOnly).1
  rw [intersection_unconstrained, Except.ok.injEq, normalized_eq_iff] at hkept
  rcases hkept with hs | ⟨hp, -, -⟩
  · cases hs
  · cases hp

end AsterForge.Core
