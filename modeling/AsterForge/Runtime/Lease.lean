import AsterForge.Library.Text
import AsterForge.Library.Time

/-!
# Runtime leases

A lease decides which process runs a group of workers.  Who holds it and until when is kept by a store that
all processes share; a holder renews it before it expires.

* **`LeaseRegister.Step.keeps`** — an unexpired lease is changed by its holder only.
-/

namespace AsterForge.Runtime

open Library Function

/-! ## Settings -/

structure RuntimeLeaseConfig where
  leaseId : Text
  ownerId : Text
  ttl : ℕ
  renewInterval : ℕ
  standbyRetryInterval : ℕ

def defaultRuntimeLeaseTtl : ℕ := 30 * second

def defaultRuntimeLeaseRetryInterval : ℕ := 5 * second

/-- Halves and thirds of a duration, which are computed in floating point: where a duration is longer than
a second, the rounding is far from making up for the division. -/
structure FloatQuotients where
  durationHalf : ℕ → ℕ
  durationThird : ℕ → ℕ
  half_lt : ∀ duration, second < duration → durationHalf duration < duration
  third_lt : ∀ duration, second < duration → durationThird duration < duration

/-- The quotients rounded to the nearest nanosecond, as floating point has them for short durations. -/
def FloatQuotients.nearest : FloatQuotients where
  durationHalf duration := (duration + 1) / 2
  durationThird duration := (duration + 1) / 3
  half_lt := by
    intro duration hlong
    unfold second at hlong
    omega
  third_lt := by
    intro duration hlong
    unfold second at hlong
    omega

namespace RuntimeLeaseConfig

variable (config : RuntimeLeaseConfig)

def effectiveTtl : ℕ := if config.ttl = 0 then defaultRuntimeLeaseTtl else config.ttl

def effectiveRenewInterval (floats : FloatQuotients) : ℕ :=
  let ttl := config.effectiveTtl
  if config.renewInterval = 0 then max (floats.durationThird ttl) second
  else if ttl ≤ config.renewInterval then max (floats.durationHalf ttl) second
  else config.renewInterval

def effectiveStandbyRetryInterval : ℕ :=
  if config.standbyRetryInterval = 0 then defaultRuntimeLeaseRetryInterval
  else config.standbyRetryInterval

def expiresAt (now : ℤ) : ℤ := saturatingAdd now (signedDuration config.effectiveTtl)

/-- Whether the lease outlasts the interval after which it is renewed, in terms of the settings. -/
def Outlasts : Prop :=
  config.ttl = 0 ∨ second < config.ttl ∨ (0 < config.renewInterval ∧ config.renewInterval < config.ttl)

/-- **The interval is shorter than the lease** exactly for settings that say so, once a lease of no length
stands for the default one: an interval that is missing or too long is replaced by a part of the lease, but
never by less than a second. -/
theorem effectiveRenewInterval_lt_iff (f : FloatQuotients) :
    config.effectiveRenewInterval f < config.effectiveTtl ↔ config.Outlasts := by
  have hdef : second < defaultRuntimeLeaseTtl := by decide
  have hlong : second < config.effectiveTtl ↔ config.ttl = 0 ∨ second < config.ttl := by
    unfold effectiveTtl
    split_ifs with hzero
    · simp [hzero, hdef]
    · simp [hzero]
  unfold effectiveRenewInterval Outlasts
  dsimp only
  split_ifs with hzero hclamped
  · rw [max_lt_iff, hlong]
    constructor
    · rintro ⟨-, h⟩
      exact h.imp_right .inl
    · intro h
      have hlasts : second < config.effectiveTtl := hlong.mpr (h.imp_right fun h => h.resolve_right (by omega))
      exact ⟨f.third_lt _ hlasts, hlong.mp hlasts⟩
  · rw [max_lt_iff]
    constructor
    · rintro ⟨-, h⟩
      exact (hlong.mp h).imp_right .inl
    · intro h
      have hlasts : second < config.effectiveTtl := by
        refine hlong.mpr (h.imp_right fun h => h.resolve_right fun ⟨hp, hlt⟩ => ?_)
        have hnonzero : config.ttl ≠ 0 := by omega
        rw [effectiveTtl, if_neg hnonzero] at hclamped
        omega
      exact ⟨f.half_lt _ hlasts, hlasts⟩
  · refine iff_of_true (not_le.mp hclamped) ?_
    by_cases hnone : config.ttl = 0
    · exact .inl hnone
    · rw [effectiveTtl, if_neg hnone] at hclamped
      exact .inr (.inr ⟨Nat.pos_of_ne_zero hzero, not_le.mp hclamped⟩)

lemma expiresAt_le (now : ℤ) : config.expiresAt now ≤ now + config.effectiveTtl := by
  have hcut : signedDuration config.effectiveTtl ≤ config.effectiveTtl := min_le_left _ _
  calc config.expiresAt now ≤ now + signedDuration config.effectiveTtl := by
        rw [expiresAt, saturatingAdd_eq_min]
        exact min_le_left _ _
    _ ≤ now + config.effectiveTtl := by omega

lemma effectiveTtl_le_of_not_outlasts (h : ¬ config.Outlasts) : config.effectiveTtl ≤ second := by
  unfold Outlasts at h
  push Not at h
  rw [effectiveTtl, if_neg h.1]
  exact h.2.1

end RuntimeLeaseConfig

/-! ## Claims and answers -/

structure RuntimeLeaseClaim where
  leaseId : Text
  ownerId : Text
  now : ℤ
  expiresAt : ℤ

structure RuntimeLeaseOwner where
  ownerId : Text
  expiresAt : ℤ

/-- Result of one acquisition attempt. -/
inductive RuntimeLeaseAcquire
  | acquired
  | standby (owner : Option RuntimeLeaseOwner)

/-! ## What a store is for -/

/-- Who holds each lease, and until when. -/
abbrev LeaseRegister := Text → Option RuntimeLeaseOwner

inductive LeaseOp
  | grant (claim : RuntimeLeaseClaim)
  | refuse (leaseId : Text) (holder : Option RuntimeLeaseOwner)
  | renew (leaseId ownerId : Text) (expiresAt : ℤ)
  | refuseRenewal (leaseId ownerId : Text)
  | release (leaseId ownerId : Text)
  | ignoreRelease (leaseId ownerId : Text)

namespace LeaseRegister

def HeldBy (register : LeaseRegister) (leaseId ownerId : Text) : Prop :=
  ∃ expiresAt, register leaseId = some ⟨ownerId, expiresAt⟩

def FreeFor (register : LeaseRegister) (claim : RuntimeLeaseClaim) : Prop :=
  ∀ holder, register claim.leaseId = some holder →
    holder.ownerId = claim.ownerId ∨ holder.expiresAt ≤ claim.now

/-- The atomic lease register.  A claim may be refused at any time, but what is said of the holder then is
what the register holds. -/
inductive Step : LeaseRegister → LeaseOp → LeaseRegister → Prop
  | grant {register : LeaseRegister} (claim : RuntimeLeaseClaim) (free : FreeFor register claim) :
      Step register (.grant claim) (update register claim.leaseId (some ⟨claim.ownerId, claim.expiresAt⟩))
  | refuse {register : LeaseRegister} (leaseId : Text) : Step register (.refuse leaseId (register leaseId)) register
  | renew {register : LeaseRegister} {leaseId ownerId : Text} (held : HeldBy register leaseId ownerId) (expiresAt : ℤ) :
      Step register (.renew leaseId ownerId expiresAt) (update register leaseId (some ⟨ownerId, expiresAt⟩))
  | refuseRenewal {register : LeaseRegister} {leaseId ownerId : Text} (lost : ¬ HeldBy register leaseId ownerId) :
      Step register (.refuseRenewal leaseId ownerId) register
  | release {register : LeaseRegister} {leaseId ownerId : Text} (held : HeldBy register leaseId ownerId) :
      Step register (.release leaseId ownerId) (update register leaseId none)
  | ignoreRelease {register : LeaseRegister} {leaseId ownerId : Text} (lost : ¬ HeldBy register leaseId ownerId) :
      Step register (.ignoreRelease leaseId ownerId) register

namespace Step

variable {r r' : LeaseRegister} {li oi : Text} {ea : ℤ}

lemma held_of_renew (h : Step r (.renew li oi ea) r') : HeldBy r li oi := by
  cases h with
  | renew hl => exact hl

lemma held_of_release (h : Step r (.release li oi) r') : HeldBy r li oi := by
  cases h with
  | release hl => exact hl

end Step

end LeaseRegister

/-- The owner on whose behalf the register does something. -/
def LeaseOp.ownerId : LeaseOp → Option Text
  | .grant claim => some claim.ownerId
  | .refuse .. => none
  | .renew _ ownerId _ | .refuseRenewal _ ownerId | .release _ ownerId | .ignoreRelease _ ownerId =>
    some ownerId

def LeaseOp.TakenAt (op : LeaseOp) (now : ℤ) : Prop := ∀ claim, op = .grant claim → claim.now = now

/-- **An unexpired lease** is changed on behalf of its holder only. -/
theorem LeaseRegister.Step.keeps {register register' : LeaseRegister} {op : LeaseOp} {leaseId ownerId : Text}
    {expiresAt now : ℤ} (hs : LeaseRegister.Step register op register') (hn : op.TakenAt now)
    (hh : register leaseId = some ⟨ownerId, expiresAt⟩) (hu : now < expiresAt)
    (ho : op.ownerId ≠ some ownerId) : register' leaseId = some ⟨ownerId, expiresAt⟩ := by
  have hhl : ∀ {li' oi'}, HeldBy register li' oi' → some oi' ≠ some ownerId → leaseId ≠ li' := by
    rintro li' oi' ⟨ea', hhl⟩ hne rfl
    rw [hh] at hhl
    cases hhl
    exact hne rfl
  cases hs with
  | grant c f =>
    refine (update_of_ne ?_ _ _).trans hh
    rintro rfl
    obtain hsm | he := f _ hh
    · exact ho (congrArg some hsm.symm)
    · rw [hn c rfl] at he
      exact absurd hu (not_lt.mpr he)
  | refuse li' => exact hh
  | renew held ea' | release held =>
    exact (update_of_ne (hhl held ho) _ _).trans hh
  | refuseRenewal l => exact hh
  | ignoreRelease l => exact hh

end AsterForge.Runtime
