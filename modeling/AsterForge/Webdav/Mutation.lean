import AsterForge.Webdav.Traversal
import Mathlib.Data.List.Sort

/-!
# Recursive COPY, MOVE and DELETE

The recursion keeps its own stack.  An item of work transfers or deletes a resource, or closes the frame
of a collection once everything above it on the stack is done.  A failure marks its frame, and a frame
that is left hands its failure to the frame it was opened in.

The run records what it does, in order, beside what the executor itself keeps; the executor never reads
the record.

* `MutationContext.perform` — what one item of work does; `MutationContext.step` is one round of the
  loop.
-/

namespace AsterForge.Webdav

open AsterForge.Core Library

/-! ## Commands -/

/-- Recursive mutation selected by the request method. -/
inductive DavMutationOperation
  | copy
  | move
  | delete
  deriving DecidableEq

/-- Product mutation performed by one authoritative commit. -/
inductive DavMutationStepKind
  | copyFile
  | moveFile
  | prepareCollection
  | deleteFile
  | deleteCollection
  deriving DecidableEq

inductive DavMutationTargetRole
  | source
  | destination
  deriving DecidableEq

structure DavMutationCommand where
  operation : DavMutationOperation
  step : DavMutationStepKind
  role : DavMutationTargetRole
  source : DavPath
  destination : Option DavPath
  deriving DecidableEq

/-- One resource-level failure from a recursive operation. -/
structure DavMutationFailure where
  path : DavPath
  status : ℕ
  lockPath : Option DavPath
  deriving DecidableEq

/-- Typed failure returned by the authoritative product mutation port. -/
inductive DavMutationStepError
  | locked (affectedPath lockRoot : DavPath)
  | status (affectedPath : DavPath) (status : ℕ)

/-- Maps one typed backend failure to the canonical resource status. -/
def DavMutationStepError.fromBackend (affectedPath : DavPath) (error : DavBackendError) :
    DavMutationStepError :=
  .status affectedPath <|
    match error.kind with
    | .notFound => 404
    | .forbidden => 403
    | .conflict | .alreadyExists => 409
    | .insufficientStorage => 507
    | .payloadTooLarge => 413
    | .locked => 423
    | .invalidInput => 400
    | .unsupported => 405
    | .internal => 500

def DavMutationStepError.intoFailure : DavMutationStepError → DavMutationFailure
  | .locked affectedPath lockRoot => ⟨affectedPath, 423, some lockRoot⟩
  | .status affectedPath code => ⟨affectedPath, code, none⟩

structure DavMutationPort (σ : Type) where
  execute : σ → DavMutationCommand → Except DavMutationStepError Unit × σ

/-! ## Requests and outcomes -/

structure DavMutationExecutorLimits where
  traversal : DavTraversalLimits
  directoryPages : DavDirectoryPageLimits
  directoryPageEntries : ℕ
  maximumDirectoryEntries : ℕ

inductive DavResourceKind
  | file
  | collection
  deriving DecidableEq

structure DavMutationRequest where
  operation : DavMutationOperation
  source : DavPath
  sourceKind : DavResourceKind
  destination : Option DavPath
  destinationKind : Option DavResourceKind
  destinationExisted : Bool
  recurseCollections : Bool

/-- Terminal reason when bounded execution stops before draining its work queue. -/
inductive DavMutationStop
  | cancelled
  | insufficientStorage
  | backend
  deriving DecidableEq

/-- Complete or partial result of recursive mutation execution. -/
structure DavMutationOutcome where
  operation : DavMutationOperation
  requestTarget : DavPath
  destinationExisted : Bool
  failures : List DavMutationFailure
  stop : Option DavMutationStop
  progress : DavTraversalProgress

def stopFromTraversal (error : DavTraversalError) : DavMutationStop :=
  match error.kind with
  | .cancelled => .cancelled
  | .invalidLimits | .visitedResourceLimitExceeded | .queuedWorkLimitExceeded
  | .failureLimitExceeded | .depthLimitExceeded => .insufficientStorage

/-! ## Work -/

/-- One entry of a directory, with the path it has there. -/
structure Child where
  name : List UInt8
  key : List UInt8
  path : DavPath
  isCollection : Bool
  deriving DecidableEq

inductive Work
  | transferDirectory (source destination : DavPath) (depth : ℕ) (parent : Option ℕ)
  | transferFile (source destination : DavPath) (depth : ℕ) (parent : Option ℕ)
  | replaceWithFile (source destination : DavPath) (depth : ℕ) (parent : Option ℕ)
  | deleteNode (path : DavPath) (isCollection : Bool) (role : DavMutationTargetRole) (depth : ℕ)
      (parent : Option ℕ)
  | finalizeTransfer (source : DavPath) (frame : ℕ)
  | finalizeFileReplacement (source destination : DavPath) (depth frame : ℕ)
  | finalizeDelete (path : DavPath) (role : DavMutationTargetRole) (frame : ℕ)

structure Frame where
  parent : Option ℕ
  failed : Bool

/-! ### Merging two directories -/

section

variable (destinationRoot : DavPath) (depth frame : ℕ)

def pushSourceChild (child : Child) : Except DavPathError Work := do
  let destination ← destinationRoot.joinChild child.name child.isCollection
  if child.isCollection then
    return .transferDirectory child.path destination depth (some frame)
  else
    return .transferFile child.path destination depth (some frame)

def pushMatchingChildren (source destination : Child) : Except DavPathError Work := do
  let destinationPath ← destinationRoot.joinChild source.name source.isCollection
  if source.isCollection then
    return .transferDirectory source.path destinationPath depth (some frame)
  else if destination.isCollection then
    return .replaceWithFile source.path destination.path depth (some frame)
  else
    return .transferFile source.path destinationPath depth (some frame)

def destinationDeleteWork (child : Child) : Work :=
  .deleteNode child.path child.isCollection .destination depth (some frame)

/-- The order in which children are merged: by name, and then by key. -/
def Child.Le (left right : Child) : Prop :=
  left.name < right.name ∨ (left.name = right.name ∧ left.key ≤ right.key)
  deriving Decidable

/-- The merge of two sorted directories; `fuel` is the number of children that are left. -/
def mergeChildren : ℕ → List Child → List Child → Except DavPathError (List Work)
  | fuel + 1, source :: sources, destination :: destinations =>
    if source.name < destination.name then do
      let first ← pushSourceChild destinationRoot depth frame source
      let rest ← mergeChildren fuel sources (destination :: destinations)
      return first :: rest
    else if source.name = destination.name then do
      let first ← pushMatchingChildren destinationRoot depth frame source destination
      let rest ← mergeChildren fuel sources destinations
      return first :: rest
    else do
      let rest ← mergeChildren fuel (source :: sources) destinations
      return destinationDeleteWork depth frame destination :: rest
  | fuel + 1, source :: sources, [] => do
    let first ← pushSourceChild destinationRoot depth frame source
    let rest ← mergeChildren fuel sources []
    return first :: rest
  | fuel + 1, [], destination :: destinations => do
    let rest ← mergeChildren fuel [] destinations
    return destinationDeleteWork depth frame destination :: rest
  | _, _, _ => .ok []

/-- `merge_transfer_children`.  The keys of a directory are pairwise different, so how ties are sorted
does not matter. -/
def mergeTransferChildren (source destination : List Child) : Except DavPathError (List Work) :=
  mergeChildren destinationRoot depth frame (source.length + destination.length)
    (source.insertionSort Child.Le) (destination.insertionSort Child.Le)

end

/-! ## Runs -/

/-- What the children of a directory are read for. -/
inductive ListingPurpose
  /-- They are transferred. -/
  | transferSource
  /-- They are replaced or deleted where the source's children come. -/
  | transferDestination
  /-- They are deleted. -/
  | deletion (role : DavMutationTargetRole)
  deriving DecidableEq

/-- What a run records. -/
inductive MutationEvent
  | opened (frame : ℕ) (parent : Option ℕ)
  | replacing (frame : ℕ) (source destination : DavPath)
  | listed (frame : ℕ) (purpose : ListingPurpose) (path : DavPath) (children : List Child)
  | unreadable (frame : ℕ) (path : DavPath)
  | answered (frame : ℕ) (command : DavMutationCommand) (succeeded : Bool)
  | stopped (reason : DavMutationStop)
  deriving DecidableEq

/-- The state of a run: the world behind the ports, what the executor keeps, and the record. -/
structure MutationRun (σ : Type) where
  world : σ
  /-- The work stack, the next item first. -/
  work : List Work
  frames : List Frame
  failures : List DavMutationFailure
  budget : DavTraversalBudget
  stop : Option DavMutationStop
  /-- The record, in the order of events. -/
  events : List MutationEvent

namespace MutationRun

variable {σ : Type} (run : MutationRun σ)

def record (event : MutationEvent) : MutationRun σ := { run with events := run.events ++ [event] }

def stopWith (reason : DavMutationStop) : MutationRun σ :=
  { run.record (.stopped reason) with stop := some reason }

def visiting (depth : ℕ) (visit : MutationRun σ → MutationRun σ) : MutationRun σ :=
  match run.budget.visit depth with
  | .error error => run.stopWith (stopFromTraversal error)
  | .ok budget => visit { run with budget }

def openFrame (parent : Option ℕ) : ℕ × MutationRun σ :=
  (run.frames.length,
    { run.record (.opened run.frames.length parent) with frames := run.frames ++ [⟨parent, false⟩] })

def frameOrNew : Option ℕ → ℕ × MutationRun σ
  | some frame => (frame, run)
  | none => run.openFrame none

def frameFailed (frame : ℕ) : Bool := run.frames[frame]?.elim false Frame.failed

def markFailed (frame : ℕ) : MutationRun σ :=
  { run with frames := run.frames.modify frame fun entry => { entry with failed := true } }

def propagateFrameFailure (frame : ℕ) : MutationRun σ :=
  match run.frames[frame]? with
  | some ⟨some parent, true⟩ => run.markFailed parent
  | _ => run

/-- `apply_step`. -/
def applyStep (port : DavMutationPort σ) (command : DavMutationCommand) (frame : ℕ) :
    Except DavTraversalError Bool × MutationRun σ :=
  let (answer, world) := port.execute run.world command
  let run := { run.record (.answered frame command answer.isOk) with world }
  match answer with
  | .ok () => (.ok true, { run with budget := run.budget.recordCompletedMutation })
  | .error error =>
    let run := run.markFailed frame
    match run.budget.recordFailure with
    | .error error => (.error error, run)
    | .ok budget =>
      (.ok false, { run with budget, failures := run.failures ++ [error.intoFailure] })

/-- `apply_step`, with what all its callers do of an error: they stop. -/
def issue (port : DavMutationPort σ) (command : DavMutationCommand) (frame : ℕ) : Bool × MutationRun σ :=
  match run.applyStep port command frame with
  | (.ok applied, run) => (applied, run)
  | (.error error, run) => (false, run.stopWith (stopFromTraversal error))

/-- `record_directory_read_failure`. -/
def recordDirectoryReadFailure (error : DavDirectoryReadError) (path : DavPath) (frame : ℕ) : MutationRun σ :=
  match error with
  | .cancelled => run.stopWith .cancelled
  | .backend ⟨.insufficientStorage⟩ => run.stopWith .insufficientStorage
  | .pageLimitExceeded | .invalidLimit | .invalidPage _ => run.stopWith .insufficientStorage
  | .backend error =>
    let run := (run.record (.unreadable frame path)).markFailed frame
    match run.budget.recordFailure with
    | .error error => run.stopWith (stopFromTraversal error)
    | .ok budget =>
      { run with
        budget
        failures := run.failures ++ [(DavMutationStepError.fromBackend path error).intoFailure] }

def queueWork (next : List Work) : MutationRun σ :=
  match run.budget.reserveWork next.length with
  | .error error => run.stopWith (stopFromTraversal error)
  | .ok budget => { run with budget, work := next ++ run.work }

end MutationRun

/-! ## The executor -/

/-- What stays the same in a run: the ports, the limits and the request's operation. -/
structure MutationContext (σ κ : Type) where
  enumerator : DavDirectoryEnumerator σ κ
  port : DavMutationPort σ
  cancellation : DavCancellation σ
  limits : DavMutationExecutorLimits
  operation : DavMutationOperation
  recurseCollections : Bool

namespace MutationContext

variable {σ κ : Type} [DecidableEq κ] (context : MutationContext σ κ)

def childOf (path : DavPath) (entry : DavDirectoryEntry) : Except DavPathError Child := do
  let childPath ← path.joinChild entry.name entry.isDir
  return ⟨entry.name, entry.stableKey, childPath, entry.isDir⟩

/-- The pages of a directory that are left, after the children that were read.  The page limit ends
the loop before `fuel` does. -/
def readPages (path : DavPath) : ℕ → DavDirectoryPageState κ → List Child → σ →
    Except DavDirectoryReadError (List Child) × σ
  | 0, _, _, world => (.error .pageLimitExceeded, world)
  | fuel + 1, state, children, world =>
    match readNextDirectoryPage context.enumerator context.cancellation world path state
      context.limits.directoryPageEntries context.limits.directoryPages with
    | (.error error, _, world) => (.error error, world)
    | (.ok none, _, world) => (.ok children, world)
    | (.ok (some page), state, world) =>
      if ∃ count ∈ checkedAdd usizeMax children.length page.entries.length,
          count ≤ context.limits.maximumDirectoryEntries then
        match page.entries.mapM (childOf path) with
        | .error _ => (.error (.backend ⟨.internal⟩), world)
        | .ok more => readPages path fuel state (children ++ more) world
      else (.error (.backend ⟨.insufficientStorage⟩), world)

/-- `read_children`. -/
def readChildren (world : σ) (path : DavPath) : Except DavDirectoryReadError (List Child) × σ :=
  context.readPages path (context.limits.directoryPages.maximumPages + 1) .new [] world

def transferCommand (source destination : DavPath) : DavMutationCommand where
  operation := context.operation
  step := if context.operation = .move then .moveFile else .copyFile
  role := .destination
  source := source
  destination := some destination

def deleteCommand (step : DavMutationStepKind) (role : DavMutationTargetRole) (path : DavPath) :
    DavMutationCommand where
  operation := context.operation
  step := step
  role := role
  source := path
  destination := none

variable (run : MutationRun σ)

/-- The work `TransferFile`. -/
def transferFile (source destination : DavPath) (depth : ℕ) (parent : Option ℕ) : MutationRun σ :=
  run.visiting depth fun run =>
    let (frame, run) := run.frameOrNew parent
    (run.issue context.port (context.transferCommand source destination) frame).2

/-- The work `ReplaceWithFile`. -/
def replaceWithFile (source destination : DavPath) (depth : ℕ) (parent : Option ℕ) : MutationRun σ :=
  let (frame, run) := run.openFrame parent
  (run.record (.replacing frame source destination)).queueWork
    [.deleteNode destination true .destination depth (some frame),
      .finalizeFileReplacement source destination depth frame]

def unread (error : DavDirectoryReadError) (path : DavPath) (frame : ℕ) : MutationRun σ :=
  (run.recordDirectoryReadFailure error path frame).propagateFrameFailure frame

/-- The work `TransferDirectory`, once both directories are read. -/
def mergeDirectories (source destination : DavPath) (depth frame : ℕ)
    (sourceChildren destinationChildren : List Child) : MutationRun σ :=
  match checkedAdd usizeMax depth 1 with
  | none => run.stopWith .insufficientStorage
  | some childDepth =>
    match mergeTransferChildren destination childDepth frame sourceChildren destinationChildren with
    | .error _ => (run.stopWith .backend).propagateFrameFailure frame
    | .ok next => run.queueWork (next ++ [.finalizeTransfer source frame])

/-- The work `TransferDirectory`, once its collection is prepared. -/
def transferChildren (source destination : DavPath) (depth frame : ℕ) : MutationRun σ :=
  match context.readChildren run.world source with
  | (.error error, world) => unread { run with world } error source frame
  | (.ok sourceChildren, world) =>
    let run := { run.record (.listed frame .transferSource source sourceChildren) with world }
    match context.readChildren run.world destination with
    | (.error error, world) => unread { run with world } error destination frame
    | (.ok destinationChildren, world) =>
      let run :=
        { run.record (.listed frame .transferDestination destination destinationChildren) with world }
      mergeDirectories run source destination depth frame sourceChildren destinationChildren

/-- The work `TransferDirectory`. -/
def transferDirectory (source destination : DavPath) (depth : ℕ) (parent : Option ℕ) : MutationRun σ :=
  run.visiting depth fun run =>
    let (frame, run) := run.openFrame parent
    let (applied, run) := run.issue context.port
      ⟨context.operation, .prepareCollection, .destination, source, some destination⟩ frame
    if applied = false ∨ context.recurseCollections = false then run.propagateFrameFailure frame
    else context.transferChildren run source destination depth frame

/-- The work `DeleteNode` of a file. -/
def deleteFile (run : MutationRun σ) (path : DavPath) (role : DavMutationTargetRole) (depth : ℕ)
    (parent : Option ℕ) : MutationRun σ :=
  run.visiting depth fun run =>
    let (frame, run) := run.frameOrNew parent
    (run.issue context.port (context.deleteCommand .deleteFile role path) frame).2

/-- The work `DeleteNode` of a collection. -/
def deleteCollection (path : DavPath) (role : DavMutationTargetRole)
    (depth : ℕ) (parent : Option ℕ) : MutationRun σ :=
  run.visiting depth fun run =>
    let (frame, run) := run.openFrame parent
    match context.readChildren run.world path with
    | (.error error, world) => unread { run with world } error path frame
    | (.ok children, world) =>
      let run := { run.record (.listed frame (.deletion role) path children) with world }
      match checkedAdd usizeMax depth 1 with
      | none => run.stopWith .insufficientStorage
      | some childDepth =>
        run.queueWork ((children.map fun child =>
          .deleteNode child.path child.isCollection role childDepth (some frame)) ++
            [.finalizeDelete path role frame])

/-- The work `FinalizeTransfer`. -/
def finalizeTransfer (source : DavPath) (frame : ℕ) : MutationRun σ :=
  if context.operation ≠ .move ∨ run.frameFailed frame then run.propagateFrameFailure frame
  else
    (run.issue context.port (context.deleteCommand .deleteCollection .source source)
      frame).2.propagateFrameFailure frame

/-- The work `FinalizeFileReplacement`. -/
def finalizeFileReplacement (source destination : DavPath) (depth frame : ℕ) : MutationRun σ :=
  if run.frameFailed frame then run.propagateFrameFailure frame
  else
    run.visiting depth fun run =>
      (run.issue context.port (context.transferCommand source destination)
        frame).2.propagateFrameFailure frame

/-- The work `FinalizeDelete`. -/
def finalizeDelete (path : DavPath) (role : DavMutationTargetRole) (frame : ℕ) : MutationRun σ :=
  if run.frameFailed frame then run.propagateFrameFailure frame
  else
    (run.issue context.port (context.deleteCommand .deleteCollection role path)
      frame).2.propagateFrameFailure frame

def perform : Work → MutationRun σ
  | .transferFile source destination depth parent =>
    context.transferFile run source destination depth parent
  | .replaceWithFile source destination depth parent =>
    replaceWithFile run source destination depth parent
  | .transferDirectory source destination depth parent =>
    context.transferDirectory run source destination depth parent
  | .deleteNode path false role depth parent => context.deleteFile run path role depth parent
  | .deleteNode path true role depth parent => context.deleteCollection run path role depth parent
  | .finalizeTransfer source frame => context.finalizeTransfer run source frame
  | .finalizeFileReplacement source destination depth frame =>
    context.finalizeFileReplacement run source destination depth frame
  | .finalizeDelete path role frame => context.finalizeDelete run path role frame

/-- One round of the loop, or nothing where the loop ends. -/
def step : Option (MutationRun σ) :=
  match run.stop with
  | some _ => none
  | none =>
    let (cancelled, world) := context.cancellation.isCancelled run.world
    let run := { run with world }
    if cancelled then some (run.stopWith (stopFromTraversal (run.budget.error .cancelled)))
    else
      match run.work with
      | [] => none
      | item :: work =>
        some (context.perform { run with work, budget := run.budget.completeWork } item)

def loop : ℕ → MutationRun σ → MutationRun σ
  | 0, run => run
  | fuel + 1, run =>
    match context.step run with
    | none => run
    | some next => loop fuel next

def maximumRounds : ℕ :=
  context.limits.traversal.maximumVisitedResources *
    (3 * context.limits.traversal.maximumQueuedWorkItems + 2) + 5

end MutationContext

/-- The item that a request starts with, if its shape is valid. -/
def rootWork (request : DavMutationRequest) : Option Work :=
  match request.operation, request.sourceKind, request.destination, request.destinationKind with
  | .move, .collection, some destination, _ =>
    if request.recurseCollections then
      some (.transferDirectory request.source destination 0 none)
    else none
  | .delete, kind, _, _ => some (.deleteNode request.source (kind = .collection) .source 0 none)
  | .copy, .file, some destination, some .collection
  | .move, .file, some destination, some .collection =>
    some (.replaceWithFile request.source destination 0 none)
  | .copy, .file, some destination, _
  | .move, .file, some destination, _ => some (.transferFile request.source destination 0 none)
  | .copy, .collection, some destination, _ =>
    some (.transferDirectory request.source destination 0 none)
  | _, _, _, _ => none

def initialRun {σ : Type} (world : σ) (budget : DavTraversalBudget) (root : Work) : MutationRun σ :=
  match budget.reserveWork 1 with
  | .error error =>
    MutationRun.stopWith ⟨world, [root], [], [], budget, none, []⟩ (stopFromTraversal error)
  | .ok budget => ⟨world, [root], [], [], budget, none, []⟩

/-- The outcome of an execution, with the record and the world it leaves. -/
structure MutationReport (σ : Type) where
  outcome : DavMutationOutcome
  events : List MutationEvent
  world : σ

def executeRecursiveMutation {σ κ : Type} [DecidableEq κ] (request : DavMutationRequest)
    (enumerator : DavDirectoryEnumerator σ κ) (port : DavMutationPort σ)
    (cancellation : DavCancellation σ) (limits : DavMutationExecutorLimits) (world : σ) : MutationReport σ :=
  let outcome (failures : List DavMutationFailure) (stop : Option DavMutationStop)
      (progress : DavTraversalProgress) : DavMutationOutcome :=
    ⟨request.operation, request.destination.getD request.source, request.destinationExisted,
      failures, stop, progress⟩
  match DavTraversalBudget.new limits.traversal with
  | .error error => ⟨outcome [] (some (stopFromTraversal error)) error.progress, [], world⟩
  | .ok budget =>
    if limits.directoryPageEntries = 0 ∨ limits.maximumDirectoryEntries = 0 then
      ⟨outcome [] (some .insufficientStorage) budget.progress, [], world⟩
    else
      match rootWork request with
      | none => ⟨outcome [] (some .backend) budget.progress, [], world⟩
      | some root =>
        let context : MutationContext σ κ :=
          ⟨enumerator, port, cancellation, limits, request.operation, request.recurseCollections⟩
        let run := context.loop context.maximumRounds (initialRun world budget root)
        ⟨outcome run.failures run.stop run.budget.progress, run.events, run.world⟩

end AsterForge.Webdav
