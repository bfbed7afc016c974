import AsterForge.Core.ContentRead
import AsterForge.Library.Containers
import AsterForge.Library.Intervals
import Mathlib.Data.Prod.Lex

/-!
# The hydration coordinator

The coordinator shares backend reads between local waiters: a request reuses the works in flight for its
content and adds works only for the physical gaps that none of them covers.  This module is the
coordinator as the code has it.  A backend future is modelled by its identity and the request it sends,
`SharedRead`; what it answers, and when, belongs to the system of `HydrationSystem`.
-/

namespace AsterForge.Core

open Library

/-! ## Requests, limits and errors -/

/-- Product-neutral hydration coordination failure. -/
inductive HydrationError
  | cancelled
  | backend (error : CloudBackendError)
  | contract (error : CloudFilesCoreError)
  | inFlightLimitExceeded (scope : String)
  deriving DecidableEq

structure HydrationLimits where
  maxInFlightWork : ℕ
  maxInFlightPerContent : ℕ
  maxInFlightWork_le : maxInFlightWork ≤ usizeMax
  maxInFlightPerContent_le : maxInFlightPerContent ≤ usizeMax

/-- Conservative defaults suitable for a provider process. -/
def HydrationLimits.default : HydrationLimits :=
  ⟨1024, 128, by decide, by decide⟩

/-- Non-zero physical range alignment in bytes. -/
@[ext]
structure Alignment where
  bytes : ℕ
  nonzero : 0 < bytes
  le_max : bytes ≤ u64Max

instance : DecidableEq Alignment := fun _ _ => decidable_of_iff' _ Alignment.ext_iff

structure HydrationRequest where
  read : ContentReadRequest
  alignment : Alignment
  sessionGeneration : SessionGeneration

/-- What two requests must agree on to share work. -/
structure HydrationContentKey where
  key : CloudItemKey
  revision : ContentRevision
  expectedSize : ℕ
  sessionGeneration : SessionGeneration
  alignment : Alignment
  deriving DecidableEq

def HydrationContentKey.fromRequest (request : HydrationRequest) : HydrationContentKey where
  key := request.read.key
  revision := request.read.revision
  expectedSize := request.read.expectedSize
  sessionGeneration := request.sessionGeneration
  alignment := request.alignment

/-! ## Coordinator state -/

/-- A shared backend future: clones of one future have its identity, and `request` is what it
reads once it is driven. -/
structure SharedRead where
  id : ℕ
  request : ContentReadRequest
  deriving DecidableEq

structure WorkDependency where
  id : ℕ
  start : ℕ
  stop : ℕ
  future : SharedRead

structure WorkEntry where
  content : HydrationContentKey
  start : ℕ
  stop : ℕ
  whole : Bool
  future : SharedRead
  waiterCount : ℕ

/-- An element `(start, end, id)` of the index, in the order of the source's tuples. -/
abbrev WorkIndexKey := ℕ ×ₗ ℕ ×ₗ ℕ

def workIndexKey (start stop id : ℕ) : WorkIndexKey := toLex (start, toLex (stop, id))

structure CoordinatorState where
  nextWorkId : ℕ
  work : AList fun _ : ℕ => WorkEntry
  byContent : AList fun _ : HydrationContentKey => OrderedSet WorkIndexKey

def CoordinatorState.empty : CoordinatorState := ⟨0, ∅, ∅⟩

variable (state : CoordinatorState)

def CoordinatorState.index (content : HydrationContentKey) : OrderedSet WorkIndexKey :=
  (state.byContent.lookup content).getD OrderedSet.empty

/-- Puts a work into both indices, under the next identity. -/
def CoordinatorState.addEntry (entry : WorkEntry) : CoordinatorState where
  nextWorkId := state.nextWorkId + 1
  work := state.work.insert state.nextWorkId entry
  byContent := state.byContent.insert entry.content
    ((state.index entry.content).insert (workIndexKey entry.start entry.stop state.nextWorkId))

/-- Takes a work out of both indices, and an emptied set out of the content index. -/
def CoordinatorState.removeEntry (id : ℕ) (entry : WorkEntry) : CoordinatorState where
  nextWorkId := state.nextWorkId
  work := state.work.erase id
  byContent :=
    match state.byContent.lookup entry.content with
    | none => state.byContent
    | some index =>
      let index := index.erase (workIndexKey entry.start entry.stop id)
      if index.isEmpty then state.byContent.erase entry.content
      else state.byContent.insert entry.content index

def CoordinatorState.setWaiterCount (id : ℕ) (entry : WorkEntry) (waiterCount : ℕ) : CoordinatorState :=
  { state with work := state.work.insert id { entry with waiterCount } }

/-! ## Extents -/

/-- The logical extent `[target_start, target_end)` of a request. -/
def logicalExtent (request : ContentReadRequest) : Except HydrationError (ℕ × ℕ) :=
  match request.readRange with
  | .whole => .ok (0, request.expectedSize)
  | .range range =>
    if range.offset > request.expectedSize then
      .error (.backend (CloudBackendError.new .invalidRequest))
    else .ok (range.offset, min range.endExclusive request.expectedSize)

/-- The physical extent of a logical one: both ends moved outwards to the alignment, but never
past the end of the file. -/
def alignedExtent (start stop totalSize : ℕ) (alignment : Alignment) : Except HydrationError (ℕ × ℕ) :=
  let alignedStart := start / alignment.bytes * alignment.bytes
  if stop = totalSize then .ok (alignedStart, totalSize)
  else
    let remainder := stop % alignment.bytes
    if remainder = 0 then .ok (alignedStart, min stop totalSize)
    else if stop + (alignment.bytes - remainder) ≤ u64Max then
      .ok (alignedStart, min (stop + (alignment.bytes - remainder)) totalSize)
    else .error (.contract (.invalidByteRange "aligned hydration range exceeds u64"))

def rangesOverlap (leftStart leftEnd rightStart rightEnd : ℕ) : Bool :=
  decide (leftStart < rightEnd) && decide (rightStart < leftEnd)

/-! ## Registration -/

/-- Rejects `additional` works when they would exceed the global or the per-content limit. -/
def ensureCapacity (content : HydrationContentKey) (additional : ℕ)
    (limits : HydrationLimits) : Except HydrationError Unit :=
  if limits.maxInFlightWork = 0 ∨ min (mapSize state.work + additional) usizeMax > limits.maxInFlightWork then
    .error (.inFlightLimitExceeded "global")
  else
    let perContent := ((state.byContent.lookup content).map OrderedSet.size).getD 0
    if limits.maxInFlightPerContent = 0
        ∨ min (perContent + additional) usizeMax > limits.maxInFlightPerContent then
      .error (.inFlightLimitExceeded "content")
    else .ok ()

/-- Adds one work without waiters to both indices.  It fails without effect when the work
identities are used up. -/
def insertWork (content : HydrationContentKey)
    (request : ContentReadRequest) (start stop : ℕ) (whole : Bool) :
    Except HydrationError WorkDependency × CoordinatorState :=
  let id := state.nextWorkId
  if id + 1 ≤ u64Max then
    let future : SharedRead := ⟨id, request⟩
    (.ok ⟨id, start, stop, future⟩, state.addEntry ⟨content, start, stop, whole, future, 0⟩)
  else
    (.error (.contract (.invalidContentResponse "hydration work identity exhausted")), state)

def insertRangeWork (content : HydrationContentKey) (originalRequest : ContentReadRequest) (start stop : ℕ) :
    Except HydrationError WorkDependency × CoordinatorState :=
  match ByteRange.new start (stop - start) with
  | .error error => (.error (.contract error), state)
  | .ok range =>
    insertWork state content { originalRequest with readRange := .range range } start stop false

/-- Adds a work for every gap, in order.  The source's loop leaves by `?`: the works inserted
before a failing one stay in the state. -/
def insertGaps (content : HydrationContentKey) (originalRequest : ContentReadRequest) :
    CoordinatorState → List (ℕ × ℕ) → Except HydrationError (List WorkDependency) × CoordinatorState
  | state, [] => (.ok [], state)
  | state, (start, stop) :: gaps =>
    match insertRangeWork state content originalRequest start stop with
    | (.error error, state) => (.error error, state)
    | (.ok dependency, state) =>
      match insertGaps content originalRequest state gaps with
      | (.error error, state) => (.error error, state)
      | (.ok dependencies, state) => (.ok (dependency :: dependencies), state)

/-- One more waiter on a work.  The source saturates; a count never comes near `usize::MAX`,
since every waiter it counts owns an allocation. -/
def addWaiter (id : ℕ) : CoordinatorState :=
  match state.work.lookup id with
  | some entry => state.setWaiterCount id entry (entry.waiterCount + 1)
  | none => state

/-- Reuses the work that `find` picks, or inserts the one it describes: the common body of
`register_whole` and `register_empty_range`. -/
def registerSingle (limits : HydrationLimits) (state : CoordinatorState)
    (content : HydrationContentKey) (request : ContentReadRequest)
    (find : WorkEntry → Bool) (start stop : ℕ) (whole : Bool) :
    Except HydrationError (List WorkDependency) × CoordinatorState :=
  match state.work.entries.find? fun slot => find slot.2 with
  | some ⟨id, entry⟩ =>
    (.ok [⟨id, entry.start, entry.stop, entry.future⟩], state.setWaiterCount id entry (entry.waiterCount + 1))
  | none =>
    match ensureCapacity state content 1 limits with
    | .error error => (.error error, state)
    | .ok () =>
      match insertWork state content request start stop whole with
      | (.error error, state) => (.error error, state)
      | (.ok dependency, state) =>
        match state.work.lookup dependency.id with
        | some entry => (.ok [dependency], state.setWaiterCount dependency.id entry 1)
        | none => (.ok [dependency], state)

/-- Registers a whole-object read.  At most one work of a content key is whole, so it does not
matter in which order the hash map is searched. -/
def registerWhole (limits : HydrationLimits) (state : CoordinatorState)
    (content : HydrationContentKey) (request : ContentReadRequest) :
    Except HydrationError (List WorkDependency) × CoordinatorState :=
  registerSingle limits state content request
    (fun entry => entry.content == content && entry.whole) 0 content.expectedSize true

def registerEmptyRange (limits : HydrationLimits) (state : CoordinatorState)
    (content : HydrationContentKey) (request : ContentReadRequest) (offset : ℕ) :
    Except HydrationError (List WorkDependency) × CoordinatorState :=
  registerSingle limits state content request
    (fun entry => entry.content == content && !entry.whole && entry.start == offset
      && entry.stop == offset) offset offset false

/-- The order of `sort_by_key(|dependency| (dependency.start, dependency.end))`. -/
def dependencyLe (a b : WorkDependency) : Prop :=
  toLex (a.start, a.stop) ≤ toLex (b.start, b.stop)
  deriving Decidable

def reusableDependency (physicalStart physicalEnd : ℕ) (slot : WorkIndexKey) : Option WorkDependency :=
  let start := (ofLex slot).1
  let stop := (ofLex (ofLex slot).2).1
  let id := (ofLex (ofLex slot).2).2
  match state.work.lookup id with
  | none => none
  | some entry =>
    if entry.whole || rangesOverlap physicalStart physicalEnd start stop then
      some ⟨id, start, stop, entry.future⟩
    else none

/-- The works in flight that a physical range can reuse, sorted by their extent. -/
def existingDependencies (content : HydrationContentKey)
    (physicalStart physicalEnd : ℕ) : List WorkDependency :=
  (((state.index content).toList.takeWhile fun slot => decide ((ofLex slot).1 < physicalEnd)
    ).filterMap (reusableDependency state physicalStart physicalEnd)).insertionSort dependencyLe

/-- The gaps between the dependencies, met in order: the source's loop over `existing` with its
`cursor`. -/
def physicalGaps (physicalEnd : ℕ) : ℕ → List WorkDependency → List (ℕ × ℕ)
  | cursor, [] => if cursor < physicalEnd then [(cursor, physicalEnd)] else []
  | cursor, dependency :: existing =>
    let gapEnd := min dependency.start physicalEnd
    let later := physicalGaps physicalEnd (max cursor (min dependency.stop physicalEnd)) existing
    if cursor < gapEnd then (cursor, gapEnd) :: later else later

def gapsOf (content : HydrationContentKey) (physicalStart physicalEnd : ℕ) : List (ℕ × ℕ) :=
  physicalGaps physicalEnd physicalStart (existingDependencies state content physicalStart physicalEnd)

def registerRange (limits : HydrationLimits) (state : CoordinatorState)
    (content : HydrationContentKey) (originalRequest : ContentReadRequest) (physicalStart physicalEnd : ℕ) :
    Except HydrationError (List WorkDependency) × CoordinatorState :=
  let existing := existingDependencies state content physicalStart physicalEnd
  let gaps := gapsOf state content physicalStart physicalEnd
  match ensureCapacity state content gaps.length limits with
  | .error error => (.error error, state)
  | .ok () =>
    match insertGaps content originalRequest state gaps with
    | (.error error, state) => (.error error, state)
    | (.ok inserted, state) =>
      let dependencies := (existing ++ inserted).insertionSort dependencyLe
      (.ok dependencies, (dependencies.map WorkDependency.id).foldl addWaiter state)

def register (limits : HydrationLimits) (state : CoordinatorState) (request : HydrationRequest)
    (targetStart targetEnd : ℕ) : Except HydrationError (List WorkDependency) × CoordinatorState :=
  let content := HydrationContentKey.fromRequest request
  match request.read.readRange with
  | .whole => registerWhole limits state content request.read
  | .range _ =>
    if targetStart = targetEnd then
      registerEmptyRange limits state content request.read targetStart
    else
      match alignedExtent targetStart targetEnd content.expectedSize request.alignment with
      | .error error => (.error error, state)
      | .ok (physicalStart, physicalEnd) =>
        registerRange limits state content request.read physicalStart physicalEnd

structure Registration where
  targetStart : ℕ
  targetEnd : ℕ
  dependencies : List WorkDependency

/-- `HydrationCoordinator::request`: registers one waiter. -/
def request (limits : HydrationLimits) (state : CoordinatorState) (request : HydrationRequest) :
    Except HydrationError Registration × CoordinatorState :=
  match logicalExtent request.read with
  | .error error => (.error error, state)
  | .ok (targetStart, targetEnd) =>
    match register limits state request targetStart targetEnd with
    | (.error error, state) => (.error error, state)
    | (.ok dependencies, state) => (.ok ⟨targetStart, targetEnd, dependencies⟩, state)

/-! ## Release -/

/-- Takes one waiter off a work, and takes the work out of both indices with its last one. -/
def releaseOne (id : ℕ) : CoordinatorState :=
  match state.work.lookup id with
  | none => state
  | some entry =>
    if entry.waiterCount - 1 = 0 then state.removeEntry id entry
    else state.setWaiterCount id entry (entry.waiterCount - 1)

/-- The locked section of `WaiterInner::release_work`. -/
def releaseWork (workIds : List ℕ) : CoordinatorState :=
  workIds.foldl releaseOne state

/-! ## Assembly -/

/-- Adds up slice lengths, rejecting a sum beyond `usize`. -/
def checkedSliceTotal : ℕ → List ℕ → Except HydrationError ℕ
  | total, [] => .ok total
  | total, length :: lengths =>
    if total + length ≤ usizeMax then checkedSliceTotal (total + length) lengths
    else .error (.contract (.invalidContentResponse "hydration result length exceeds usize"))

def combineSlices : List (List UInt8) → Except HydrationError (List UInt8)
  | [] => .ok []
  | [bytes] => .ok bytes
  | slices =>
    match checkedSliceTotal 0 (slices.map List.length) with
    | .error error => .error error
    | .ok _ => .ok slices.flatten

/-- The copy loop of `assemble`: walks the dependencies with their responses, cutting out what
the cursor has not reached yet.  It returns the slices and the final cursor. -/
def copySlices (targetEnd : ℕ) : ℕ → List (WorkDependency × ContentReadResponse) →
      Except HydrationError (List (List UInt8) × ℕ)
  | cursor, [] => .ok ([], cursor)
  | cursor, (dependency, response) :: rest =>
    if dependency.stop ≤ cursor ∨ dependency.start ≥ targetEnd then
      copySlices targetEnd cursor rest
    else
      let copyStart := max cursor dependency.start
      let copyEnd := min targetEnd dependency.stop
      let relativeStart := copyStart - response.offset
      let relativeEnd := copyEnd - response.offset
      if relativeEnd > response.bytes.length ∨ relativeStart > relativeEnd then
        .error (.contract (.invalidContentResponse
          "hydration dependency did not cover its claimed logical range"))
      else if copyEnd = targetEnd then
        .ok ([slice response.bytes relativeStart relativeEnd], copyEnd)
      else
        match copySlices targetEnd copyEnd rest with
        | .error error => .error error
        | .ok (slices, cursor) =>
          .ok (slice response.bytes relativeStart relativeEnd :: slices, cursor)

/-- `HydrationWaiter::assemble`: the exact logical bytes of a waiter, from the answers of its
works. -/
def assemble (request : HydrationRequest) (registration : Registration)
    (responses : List ContentReadResponse) : Except HydrationError ContentReadResponse :=
  let revision := request.read.revision
  let totalSize := request.read.expectedSize
  if registration.targetStart = registration.targetEnd then
    (ContentReadResponse.new revision registration.targetStart [] totalSize).mapError .contract
  else if responses.length ≠ registration.dependencies.length then
    .error (.contract (.invalidContentResponse "hydration dependency result count changed"))
  else
    match copySlices registration.targetEnd registration.targetStart
        (registration.dependencies.zip responses) with
    | .error error => .error error
    | .ok (slices, cursor) =>
      if cursor ≠ registration.targetEnd then
        .error (.contract (.invalidContentResponse
          "hydration dependencies left an uncovered logical range"))
      else
        match combineSlices slices with
        | .error error => .error error
        | .ok bytes =>
          match ContentReadResponse.new revision registration.targetStart bytes totalSize with
          | .error error => .error (.contract error)
          | .ok response =>
            match request.read.validateResponse response with
            | .error error => .error (.contract error)
            | .ok () => .ok response

end AsterForge.Core
