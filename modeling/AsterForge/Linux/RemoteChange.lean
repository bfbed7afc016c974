import AsterForge.Linux.Writeback

/-!
# Remote changes

A remote change is already durable when the engine hears of it.  The engine compares it with what it
shows at the places the change speaks of, checks it against its layers under the lock, and only then
updates the overlay.  All early returns of the source stand before its first update, so a change is
the pair of its checks and its update.
-/

namespace AsterForge.Linux

open AsterForge.Core Library

/-! ## The checks -/

def LinuxRemoteLocation.nameKey (location : LinuxRemoteLocation) : ParentNameKey :=
  (location.parentKey.itemId, location.name.value)

def LinuxRemoteDelete.nameKey (deleted : LinuxRemoteDelete) : ParentNameKey :=
  (deleted.parentKey.itemId, deleted.name.value)

namespace LinuxWritableEngine

variable (engine : LinuxWritableEngine) (state : WritableState)

/-- `validate_remote_entry`. -/
def validateRemoteEntry (entry : LinuxRemoteEntry) : Except LinuxCloudFilesError Unit := do
  refuse (entry.item.key ≠ entry.inodeRecord.key ∨ entry.item.key.scope ≠ engine.table.scope ∨
      entry.item.isRoot ∨ entry.inodeRecord.inode = linuxRootInode)
    (.invalidBackendResponse "remote overlay entry violated scope, identity, or root boundaries")
  let _ ← nodeFromItemAndRecord entry.item entry.inodeRecord
  refuse (∃ existing ∈ engine.keyForInode state entry.inodeRecord.inode, existing ≠ entry.item.key)
    (.invalidBackendResponse "remote overlay reused an inode assigned to another stable item")
  refuse (∃ existing ∈ engine.recordForKey state entry.item.key, existing ≠ entry.inodeRecord)
    (.invalidBackendResponse "remote overlay changed a stable item inode or generation")

/-- `validate_remote_delete`. -/
def validateRemoteDelete (deleted : LinuxRemoteDelete) : Except LinuxCloudFilesError Unit :=
  refuse (deleted.key ≠ deleted.inodeRecord.key ∨ deleted.key.scope ≠ engine.table.scope ∨
      deleted.parentKey.scope ≠ engine.table.scope ∨
      engine.recordForKey state deleted.key ≠ some deleted.inodeRecord)
    (.invalidBackendResponse
      "remote deletion substituted scope, stable identity, or inode generation")

/-- `lookup_remote_validation_target`: a lookup in which nothing may be found. -/
def lookupRemoteValidationTarget (backend : CloudFilesBackend) (state : WritableState)
    (parent : LinuxInode) (name : String) : Except LinuxCloudFilesError (Option LinuxNode) :=
  match engine.lookup backend state parent name with
  | .ok node => .ok (some node)
  | .error error => if error.errorCode = .notFound then .ok none else .error error

/-- Whether what is found at the destination of an upsert is what the upsert says it replaces. -/
def checkTarget (key parentKey : CloudItemKey) (name : String) :
    Option LinuxNode → Option LinuxRemoteDelete → Except LinuxCloudFilesError Unit
  | some existing, none =>
    refuse (existing.key ≠ key)
      (.invalidBackendResponse "remote upsert omitted the item replaced at its destination")
  | none, none => .ok ()
  | some existing, some replaced =>
    refuse (¬ (existing.key = replaced.key ∧ existing.inode = replaced.inodeRecord.inode ∧
        existing.generation = replaced.inodeRecord.generation ∧ existing.kind = replaced.kind ∧
        replaced.parentKey = parentKey ∧ replaced.name.value = name))
      (.invalidBackendResponse "remote upsert replacement did not match its current destination")
  | none, some _ =>
    .error
      (.invalidBackendResponse "remote upsert replacement did not match its current destination")

def checkPrevious (backend : CloudFilesBackend) (state : WritableState) (key : CloudItemKey)
    (inode : LinuxInode) (location : LinuxRemoteLocation) : Except LinuxCloudFilesError LinuxInode := do
  refuse (location.parentKey.scope ≠ key.scope)
    (.invalidBackendResponse "remote upsert previous location escaped the active scope")
  let previousParent ← okOr .missingInodeRecord (engine.inodeForKey state location.parentKey)
  let found ← engine.lookupRemoteValidationTarget backend state previousParent location.name.value
  let node ← okOr (.invalidBackendResponse "remote upsert previous location did not exist") found
  refuse (node.key ≠ key ∨ node.inode ≠ inode)
    (.invalidBackendResponse "remote upsert previous location named another stable item")
  return previousParent

def checkUpsert (entry : LinuxRemoteEntry)
    (previous : Option LinuxRemoteLocation) (replaced : Option LinuxRemoteDelete)
    (nameKey : ParentNameKey) : Except LinuxCloudFilesError Unit := do
  let key := entry.item.key
  engine.validateRemoteEntry state entry
  refuse (key ∈ state.namespaceByKey ∨ key ∈ state.createdByKey ∨ key ∈ state.deletedKeys ∨
      nameKey ∈ state.tombstonesByName)
    (.invalidBackendResponse "remote change collided with a pending local namespace mutation")
  (match replaced with
    | some replaced => do
      engine.validateRemoteDelete state replaced
      refuse (replaced.key = key)
        (.invalidBackendResponse "remote upsert replaced its own stable identity")
    | none => .ok ())
  refuse ((∃ candidate ∈ state.namespaceByName.lookup nameKey,
        engine.keyForInode state candidate ≠ some key) ∨
      ∃ candidate ∈ state.createdByName.lookup nameKey, engine.keyForInode state candidate ≠ some key)
    (.invalidBackendResponse "remote change destination collided with a local namespace mutation")
  refuse (∃ existing ∈ state.remoteByName.lookup nameKey, engine.keyForInode state existing ≠ some key ∧
      replaced.map LinuxRemoteDelete.key ≠ engine.keyForInode state existing)
    (.invalidBackendResponse "remote upsert did not identify the current destination replacement")
  match (state.remoteByKey.lookup key).bind state.remoteByInode.lookup with
  | some current => do
    let currentParent ← okOr (.invalidBackendResponse
      "current remote overlay item omitted its parent") current.item.parentId
    refuse ((currentParent, current.item.name) ≠ (previous.map LinuxRemoteLocation.nameKey).getD nameKey)
      (.invalidBackendResponse "remote upsert previous location was not the current location")
  | none => .ok ()

def upsertInvalidations (entry : LinuxRemoteEntry) (parent : LinuxInode)
    (previous : Option (LinuxInode × LinuxRemoteLocation)) (replaced : Option LinuxRemoteDelete) :
    Except LinuxCloudFilesError (List LinuxInvalidation) := do
  let moved : List LinuxInvalidation :=
    match previous with
    | some (previousParent, location) => [.entry previousParent location.name.value]
    | none => []
  let deleted ← (match replaced with
    | some replaced => do
      let replacedParent ← okOr .missingInodeRecord (engine.inodeForKey state replaced.parentKey)
      return [.delete replacedParent replaced.inodeRecord.inode replaced.name.value]
    | none => .ok [])
  return moved ++ deleted ++ [.entry parent entry.item.name, .inode entry.inodeRecord.inode]

/-- Everything `apply_remote_upsert` does before it updates the state: the name the entry is placed
at, and the invalidations. -/
def prepareRemoteUpsert (backend : CloudFilesBackend) (state : WritableState) (upsert : LinuxRemoteUpsert) :
    Except LinuxCloudFilesError (ParentNameKey × List LinuxInvalidation) := do
  let entry := upsert.entry
  let key := entry.item.key
  let parentId ← okOr (.invalidBackendResponse "remote overlay item omitted its parent")
    entry.item.parentId
  let parentKey : CloudItemKey := ⟨key.scope, parentId⟩
  let parent ← okOr .missingInodeRecord (engine.inodeForKey state parentKey)
  let target ← engine.lookupRemoteValidationTarget backend state parent entry.item.name
  checkTarget key parentKey entry.item.name target upsert.replaced
  let previous ← (match upsert.previous with
    | some location => do
      let previousParent ← engine.checkPrevious backend state key entry.inodeRecord.inode location
      return some (previousParent, location)
    | none => .ok none)
  let nameKey := (parentId, entry.item.name)
  engine.checkUpsert state entry upsert.previous upsert.replaced nameKey
  let invalidations ← engine.upsertInvalidations state entry parent previous upsert.replaced
  return (nameKey, invalidations)

end LinuxWritableEngine

/-! ## The updates -/

namespace WritableState

variable (state : WritableState)

def leaveRemoteName (location : LinuxRemoteLocation) : WritableState :=
  { state with
    remoteByName := state.remoteByName.erase location.nameKey
    remoteTombstonesByName := state.remoteTombstonesByName.insert location.nameKey () }

def replaceRemote (replaced : LinuxRemoteDelete) : WritableState :=
  { state with
    remoteByInode :=
      match state.remoteByKey.lookup replaced.key with
      | some inode => state.remoteByInode.erase inode
      | none => state.remoteByInode
    remoteByKey := state.remoteByKey.erase replaced.key
    remoteByName := state.remoteByName.erase replaced.nameKey
    remoteTombstonesByName := state.remoteTombstonesByName.insert replaced.nameKey ()
    remoteDeletedKeys := insert replaced.key state.remoteDeletedKeys
    remoteDeletedInodes := insert replaced.inodeRecord.inode state.remoteDeletedInodes }

def placeRemote (entry : LinuxRemoteEntry) (nameKey : ParentNameKey) :
    WritableState :=
  { state with
    remoteTombstonesByName := state.remoteTombstonesByName.erase nameKey
    remoteDeletedKeys := state.remoteDeletedKeys.erase entry.item.key
    remoteDeletedInodes := state.remoteDeletedInodes.erase entry.inodeRecord.inode
    remoteByKey := state.remoteByKey.insert entry.item.key entry.inodeRecord.inode
    remoteByName := state.remoteByName.insert nameKey entry.inodeRecord.inode
    remoteByInode := state.remoteByInode.insert entry.inodeRecord.inode entry }

/-- The update of `apply_remote_upsert`. -/
def publishUpsert (upsert : LinuxRemoteUpsert) (nameKey : ParentNameKey) :
    WritableState :=
  let state :=
    match upsert.previous with
    | some location => state.leaveRemoteName location
    | none => state
  let state :=
    match upsert.replaced with
    | some replaced => state.replaceRemote replaced
    | none => state
  state.placeRemote upsert.entry nameKey

/-- The update of `apply_remote_delete`. -/
def publishDelete (deleted : LinuxRemoteDelete) : WritableState :=
  { state with
    remoteByKey := state.remoteByKey.erase deleted.key
    remoteByInode := state.remoteByInode.erase deleted.inodeRecord.inode
    remoteByName := state.remoteByName.erase deleted.nameKey
    remoteTombstonesByName := state.remoteTombstonesByName.insert deleted.nameKey ()
    remoteDeletedKeys := insert deleted.key state.remoteDeletedKeys
    remoteDeletedInodes := insert deleted.inodeRecord.inode state.remoteDeletedInodes }

end WritableState

/-! ## The changes -/

namespace LinuxWritableEngine

variable (engine : LinuxWritableEngine) (backend : CloudFilesBackend)

/-- Applies one remote create, metadata update, or move. -/
def applyRemoteUpsert (state : WritableState) (upsert : LinuxRemoteUpsert) :
    Except LinuxCloudFilesError (List LinuxInvalidation) × WritableState :=
  match engine.prepareRemoteUpsert backend state upsert with
  | .error error => (.error error, state)
  | .ok (nameKey, invalidations) => (.ok invalidations, state.publishUpsert upsert nameKey)

/-- Everything `apply_remote_delete` does before it updates the state. -/
def prepareRemoteDelete (state : WritableState)
    (deleted : LinuxRemoteDelete) : Except LinuxCloudFilesError (List LinuxInvalidation) := do
  let parent ← okOr .missingInodeRecord (engine.inodeForKey state deleted.parentKey)
  let found ← engine.lookupRemoteValidationTarget backend state parent deleted.name.value
  let current ← okOr (.invalidBackendResponse "remote deletion location did not exist") found
  refuse (current.key ≠ deleted.key ∨ current.inode ≠ deleted.inodeRecord.inode ∨
      current.generation ≠ deleted.inodeRecord.generation ∨ current.kind ≠ deleted.kind)
    (.invalidBackendResponse "remote deletion did not match the current namespace entry")
  engine.validateRemoteDelete state deleted
  refuse (deleted.key ∈ state.namespaceByKey ∨ deleted.key ∈ state.createdByKey ∨
      deleted.key ∈ state.deletedKeys ∨ deleted.nameKey ∈ state.tombstonesByName)
    (.invalidBackendResponse "remote deletion collided with a pending local namespace mutation")
  refuse (∃ existing ∈ state.remoteByName.lookup deleted.nameKey, existing ≠ deleted.inodeRecord.inode)
    (.invalidBackendResponse "remote deletion location changed before commit")
  return [.delete parent deleted.inodeRecord.inode deleted.name.value]

def applyRemoteDelete (state : WritableState) (deleted : LinuxRemoteDelete) :
    Except LinuxCloudFilesError (List LinuxInvalidation) × WritableState :=
  match engine.prepareRemoteDelete backend state deleted with
  | .error error => (.error error, state)
  | .ok invalidations => (.ok invalidations, state.publishDelete deleted)

/-- Applies one already-durable remote namespace transition. -/
def applyRemoteChange (state : WritableState) :
    LinuxRemoteChange → Except LinuxCloudFilesError (List LinuxInvalidation) × WritableState
  | .upsert upsert => engine.applyRemoteUpsert backend state upsert
  | .delete deleted => engine.applyRemoteDelete backend state deleted

end LinuxWritableEngine

end AsterForge.Linux
