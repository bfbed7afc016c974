import Mathlib.Algebra.Order.Ring.Nat

/-!
# Failures of the cloud-files core

The error values the core's constructors and transitions return, with the texts they carry, and
the bound of the machine integers they check against.  Only the variants that a modelled function
builds are here.
-/

namespace AsterForge.Core

/-- The largest `u64`.  Machine integers are natural numbers in this development, and every place
where the source checks, saturates or promises a bound says so with `u64Max`. -/
def u64Max : ℕ := 2 ^ 64 - 1

lemma one_le_u64Max : 1 ≤ u64Max := by decide

lemma four_le_u64Max : 4 ≤ u64Max := by decide

/-- The largest `usize` of the 64-bit targets the adapters are built for. -/
def usizeMax : ℕ := u64Max

/-- Product-neutral failures produced while validating core values and transitions. -/
inductive CloudFilesCoreError
  | emptyValue (field : String)
  | alignmentIntersectionOverflow (left right : ℕ)
  | missingRequiredCapability (capability : String)
  | invalidItemShape (reason : String)
  | invalidByteRange (reason : String)
  | invalidContentResponse (reason : String)
  | invalidMutationIntent (reason : String)
  | invalidMutationTransition (reason : String)
  | invalidSessionGeneration
  | invalidLocalContentGeneration
  | invalidContentStorageState (reason : String)
  | invalidContentEvictionTransition (reason : String)
  | invalidContentCacheWriteTransition (reason : String)
  | invalidContentUploadTransition (reason : String)
  deriving DecidableEq

inductive CloudBackendErrorKind
  | notFound
  | authenticationRequired
  | permissionDenied
  | conflict
  | preconditionFailed
  | invalidRequest
  | rateLimited
  | temporarilyUnavailable
  | unsupported
  | invalidResponse
  | internal
  deriving DecidableEq

/-- Retry guidance attached to a backend error; the delay is in nanoseconds. -/
inductive RetryAdvice
  | never
  | retry
  | retryAfter (delay : ℕ)
  deriving DecidableEq

/-- Product-neutral failure returned by a product-owned backend adapter. -/
structure CloudBackendError where
  kind : CloudBackendErrorKind
  retry : RetryAdvice
  deriving DecidableEq

def CloudBackendError.new (kind : CloudBackendErrorKind) : CloudBackendError :=
  ⟨kind, .never⟩

end AsterForge.Core
