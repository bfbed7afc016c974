import AsterForge.Core.Hydration
import AsterForge.Core.Store

/-!
# Failures of the Windows adapter

Only the variants that a modelled function builds are here.
-/

namespace AsterForge.Windows

open AsterForge.Core

/-- Product-neutral classifications for Windows-specific mapping and native-call failures. -/
inductive WindowsCloudFilesError
  | fileIdentityTooLarge (actual maximum : ℕ)
  | invalidFileIdentity (reason : String)
  | identityItemMismatch
  | invalidCallbackSnapshot (reason : String)
  | missingNativeCompletionAuthority
  | invalidFetchTransfer (reason : String)
  | hydration (error : HydrationError)
  | staleConnectionGeneration (expected actual : ℕ)
  | connectionNotAccepting (state : SessionState)
  | invalidConnectionTransition (source target : SessionState)
  | activeCallbackCountOverflow
  | activeFetchWaiterIdOverflow
  | activeFetchWaiterCountOverflow
  | invalidProviderProgress (reason : String)
  | fetchDataWatchdogTimeout
  | native (code : ℤ)
  | core (error : CloudFilesCoreError)

end AsterForge.Windows
