import AsterForge.Core.Error
import AsterForge.Webdav.Path
import Mathlib.Data.Finset.Insert
import Mathlib.Data.List.Lex

/-!
# Bounded paging and traversal accounting

A recursive operation reads directories page by page and counts what it visits, what it has queued and
what has failed.  The backend is untrusted: it answers a page request with anything.

* `DavDirectoryEnumerator`, `DavCancellation` — the ports; they answer from a world that every call may
  change.
-/

namespace AsterForge.Webdav

open AsterForge.Core Library

/-! ## The backend -/

inductive DavBackendErrorKind
  | notFound
  | forbidden
  | conflict
  | alreadyExists
  | insufficientStorage
  | payloadTooLarge
  | locked
  | invalidInput
  | unsupported
  | internal
  deriving DecidableEq

/-- Product-neutral failure returned by a product adapter. -/
structure DavBackendError where
  kind : DavBackendErrorKind
  deriving DecidableEq

structure DavDirectoryEntry where
  name : List UInt8
  stableKey : List UInt8
  isDir : Bool

structure DavDirectoryPage (κ : Type) where
  entries : List DavDirectoryEntry
  nextCursor : Option κ

structure DavDirectoryPageRequest (κ : Type) where
  path : DavPath
  cursor : Option κ
  maximumEntries : ℕ

structure DavDirectoryEnumerator (σ κ : Type) where
  readDirectoryPage : σ → DavDirectoryPageRequest κ → Except DavBackendError (DavDirectoryPage κ) × σ

structure DavCancellation (σ : Type) where
  isCancelled : σ → Bool × σ

/-! ## Pages -/

inductive DavDirectoryPageValidationError
  | invalidLimit
  | tooManyEntries
  | emptyContinuation
  | cursorLoop
  | emptyStableKey
  | duplicateEntry
  | outOfOrderEntry

structure DavDirectoryPageLimits where
  maximumEntries : ℕ
  maximumPages : ℕ

section

variable {κ : Type} [DecidableEq κ]

def validateEntryKeys : Option (List UInt8) → List DavDirectoryEntry →
    Except DavDirectoryPageValidationError Unit
  | _, [] => .ok ()
  | previous, entry :: entries => do
    refuse (entry.stableKey = []) .emptyStableKey
    refuse (previous = some entry.stableKey) .duplicateEntry
    refuse (∃ key ∈ previous, entry.stableKey < key) .outOfOrderEntry
    validateEntryKeys (some entry.stableKey) entries

def validateDirectoryPage (currentCursor : Option κ) (seenCursors : Finset κ)
    (previousStableKey : Option (List UInt8)) (maximumEntries : ℕ) (page : DavDirectoryPage κ) :
    Except DavDirectoryPageValidationError Unit := do
  refuse (maximumEntries = 0) .invalidLimit
  refuse (maximumEntries < page.entries.length) .tooManyEntries
  refuse (page.entries = [] ∧ page.nextCursor.isSome) .emptyContinuation
  refuse (∃ cursor ∈ page.nextCursor, currentCursor = some cursor ∨ cursor ∈ seenCursors) .cursorLoop
  validateEntryKeys previousStableKey page.entries

structure DavDirectoryPageState (κ : Type) where
  currentCursor : Option κ
  seenCursors : Finset κ
  lastStableKey : Option (List UInt8)
  poisoned : Option DavDirectoryPageValidationError
  finished : Bool
  pagesRead : ℕ

def DavDirectoryPageState.new : DavDirectoryPageState κ := ⟨none, ∅, none, none, false, 0⟩

/-- Failure while requesting the next bounded directory page. -/
inductive DavDirectoryReadError
  | invalidLimit
  | cancelled
  | pageLimitExceeded
  | backend (error : DavBackendError)
  | invalidPage (error : DavDirectoryPageValidationError)

def DavDirectoryPageState.accept (state : DavDirectoryPageState κ) (page : DavDirectoryPage κ) :
    DavDirectoryPageState κ where
  currentCursor := page.nextCursor
  seenCursors :=
    match page.nextCursor, state.currentCursor with
    | some _, some previous => insert previous state.seenCursors
    | _, _ => state.seenCursors
  lastStableKey := (page.entries.getLast?.map DavDirectoryEntry.stableKey).or state.lastStableKey
  poisoned := state.poisoned
  finished := page.nextCursor.isNone
  pagesRead := state.pagesRead + 1

structure DavValidatedDirectoryPage where
  entries : List DavDirectoryEntry
  hasMore : Bool

def readNextDirectoryPage {σ : Type} (enumerator : DavDirectoryEnumerator σ κ)
    (cancellation : DavCancellation σ) (world : σ) (path : DavPath)
    (state : DavDirectoryPageState κ) (requestedEntries : ℕ) (limits : DavDirectoryPageLimits) :
    Except DavDirectoryReadError (Option DavValidatedDirectoryPage) × DavDirectoryPageState κ × σ :=
  match state.poisoned with
  | some error => (.error (.invalidPage error), state, world)
  | none =>
    if state.finished then (.ok none, state, world)
    else if requestedEntries = 0 ∨ limits.maximumEntries = 0 ∨ limits.maximumPages = 0 then
      (.error .invalidLimit, state, world)
    else
      let (cancelled, world) := cancellation.isCancelled world
      if cancelled then (.error .cancelled, state, world)
      else if limits.maximumPages ≤ state.pagesRead then (.error .pageLimitExceeded, state, world)
      else
        let maximumEntries := min requestedEntries limits.maximumEntries
        let (answer, world) :=
          enumerator.readDirectoryPage world ⟨path, state.currentCursor, maximumEntries⟩
        match answer with
        | .error error => (.error (.backend error), state, world)
        | .ok page =>
          match validateDirectoryPage state.currentCursor state.seenCursors state.lastStableKey
            maximumEntries page with
          | .error error =>
            (.error (.invalidPage error), { state with poisoned := some error }, world)
          | .ok () => (.ok (some ⟨page.entries, page.nextCursor.isSome⟩), state.accept page, world)

end

/-! ## Accounting -/

structure DavTraversalLimits where
  maximumVisitedResources : ℕ
  maximumQueuedWorkItems : ℕ
  maximumFailures : ℕ
  maximumDepth : Option ℕ

structure DavTraversalProgress where
  visitedResources : ℕ
  queuedWorkItems : ℕ
  failures : ℕ
  completedMutations : ℕ

/-- Typed recursive traversal stop reason. -/
inductive DavTraversalErrorKind
  | invalidLimits
  | cancelled
  | visitedResourceLimitExceeded
  | queuedWorkLimitExceeded
  | failureLimitExceeded
  | depthLimitExceeded

/-- Recursive traversal failure with partial-execution accounting. -/
structure DavTraversalError where
  kind : DavTraversalErrorKind
  progress : DavTraversalProgress

structure DavTraversalBudget where
  limits : DavTraversalLimits
  progress : DavTraversalProgress

def checkedIncrement (value maximum : ℕ) : Option ℕ :=
  (checkedAdd usizeMax value 1).filter fun next => next ≤ maximum

namespace DavTraversalBudget

def new (limits : DavTraversalLimits) : Except DavTraversalError DavTraversalBudget := do
  refuse (limits.maximumVisitedResources = 0 ∨ limits.maximumQueuedWorkItems = 0 ∨
      limits.maximumFailures = 0) ⟨.invalidLimits, ⟨0, 0, 0, 0⟩⟩
  return ⟨limits, ⟨0, 0, 0, 0⟩⟩

lemma new_ok {l : DavTraversalLimits} {b : DavTraversalBudget} (h : new l = .ok b) :
    b = ⟨l, ⟨0, 0, 0, 0⟩⟩ ∧ ¬ (l.maximumVisitedResources = 0 ∨
      l.maximumQueuedWorkItems = 0 ∨ l.maximumFailures = 0) := by
  obtain ⟨_, hr, hn⟩ := bind_eq_ok.mp h
  exact ⟨(Except.ok.inj hn).symm, refuse_eq_ok.mp hr⟩

variable (budget : DavTraversalBudget)

def error (kind : DavTraversalErrorKind) : DavTraversalError := ⟨kind, budget.progress⟩

def visit (depth : ℕ) : Except DavTraversalError DavTraversalBudget := do
  refuse (∃ maximum ∈ budget.limits.maximumDepth, maximum < depth) (budget.error .depthLimitExceeded)
  let visited ← okOr (budget.error .visitedResourceLimitExceeded)
    (checkedIncrement budget.progress.visitedResources budget.limits.maximumVisitedResources)
  return { budget with progress := { budget.progress with visitedResources := visited } }

def reserveWork (additional : ℕ) : Except DavTraversalError DavTraversalBudget := do
  let queued ← okOr (budget.error .queuedWorkLimitExceeded)
    (checkedAdd usizeMax budget.progress.queuedWorkItems additional)
  refuse (budget.limits.maximumQueuedWorkItems < queued) (budget.error .queuedWorkLimitExceeded)
  return { budget with progress := { budget.progress with queuedWorkItems := queued } }

def completeWork : DavTraversalBudget :=
  { budget with
    progress := { budget.progress with queuedWorkItems := budget.progress.queuedWorkItems - 1 } }

def recordFailure : Except DavTraversalError DavTraversalBudget := do
  let failures ← okOr (budget.error .failureLimitExceeded)
    (checkedIncrement budget.progress.failures budget.limits.maximumFailures)
  return { budget with progress := { budget.progress with failures } }

def recordCompletedMutation : DavTraversalBudget :=
  { budget with progress := { budget.progress with
      completedMutations := min (budget.progress.completedMutations + 1) usizeMax } }

end DavTraversalBudget

end AsterForge.Webdav
