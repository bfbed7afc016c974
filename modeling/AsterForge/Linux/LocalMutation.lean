import AsterForge.Linux.RemoteChange

/-!
# Local mutations

A local mutation is a request made of what the kernel names, the store's durable answer, and the
acceptance of that answer into the overlay.  The store has committed by then, so an acceptance that
is refused leaves the overlay behind it.

* `acceptCreatedFile`, `acceptNamespaceCreate`, `acceptRename`, `acceptRemove` — the acceptances,
  each of them checks followed by an update.
* `restoreNamespaceItem`, `restoreTombstone`, `restoreCreatedFile`, `restoreDirtySnapshot` — one
  item of a recovery each, and `activate` for all of them.
-/

namespace AsterForge.Linux

open AsterForge.Core Library

def LinuxNamespaceTombstone.nameKey (tombstone : LinuxNamespaceTombstone) : ParentNameKey :=
  (tombstone.parentKey.itemId, tombstone.name.value)

def LinuxCreateFileRequest.nameKey (request : LinuxCreateFileRequest) : ParentNameKey :=
  (request.parentKey.itemId, request.name.value)

@[inherit_doc LinuxCreateFileRequest.nameKey]
def LinuxCreateDirectoryRequest.nameKey (request : LinuxCreateDirectoryRequest) : ParentNameKey :=
  (request.parentKey.itemId, request.name.value)

@[inherit_doc LinuxCreateFileRequest.nameKey]
def LinuxRemoveRequest.nameKey (request : LinuxRemoveRequest) : ParentNameKey :=
  (request.parentKey.itemId, request.name.value)

def LinuxRenameRequest.oldNameKey (request : LinuxRenameRequest) : ParentNameKey :=
  (request.oldParentKey.itemId, request.oldName.value)

def LinuxRenameRequest.newNameKey (request : LinuxRenameRequest) : ParentNameKey :=
  (request.newParentKey.itemId, request.newName.value)

namespace LinuxWritableEngine

variable (engine : LinuxWritableEngine)

/-! ## What an answer must be -/

/-- `validate_namespace_item`. -/
def validateNamespaceItem (item : LinuxNamespaceItem) : Except LinuxCloudFilesError Unit := do
  item.mutationIntent.validateForPersistence.mapError fun _ =>
    .invalidBackendResponse "namespace item returned an invalid mutation intent"
  refuse (item.item.isRoot ∨ item.item.key ≠ item.inodeRecord.key ∨
      item.inodeRecord.inode = linuxRootInode ∨ item.item.key.scope ≠ engine.table.scope ∨
      engine.sessionGeneration.value < item.mutationIntent.sessionGeneration.value)
    (.invalidBackendResponse "namespace item returned an invalid stable mapping")
  validateLinuxName item.item.name

/-- `validate_namespace_create`. -/
def validateNamespaceCreate (request : LinuxCreateDirectoryRequest) (item : LinuxNamespaceItem) :
    Except LinuxCloudFilesError Unit := do
  engine.validateNamespaceItem item
  match item.mutationIntent.desired with
  | .create scope parentId name kind =>
    refuse (item.item.kind ≠ .directory ∨ item.item.content.isSome ∨
        item.item.parentId ≠ some request.parentKey.itemId ∨
        item.item.name ≠ request.name.value ∨ scope ≠ request.parentKey.scope ∨
        parentId ≠ request.parentKey.itemId ∨ name ≠ request.name.value ∨ kind ≠ .directory ∨
        item.mutationIntent.sessionGeneration ≠ request.sessionGeneration)
      (.invalidBackendResponse "directory create acceptance did not match the native request")
  | _ => .error (.invalidBackendResponse "directory create did not persist a create mutation")

/-- Whether the tombstone of a replaced destination is the one of the destination that was asked
for. -/
def checkReplaced (request : LinuxRenameRequest) :
    Option LinuxRenameDestination → Option LinuxNamespaceTombstone → Except LinuxCloudFilesError Unit
  | none, none => .ok ()
  | some destination, replaced =>
    if request.noReplace then
      .error (.invalidBackendResponse "no-replace rename accepted an existing destination")
    else
      refuse (¬ ∃ tombstone ∈ replaced, tombstone.key = destination.key ∧
          tombstone.inodeGeneration = destination.inodeGeneration ∧
          tombstone.kind = destination.kind ∧ tombstone.parentKey = request.newParentKey ∧
          tombstone.name = request.newName)
        (.invalidBackendResponse "rename replacement tombstone did not match the destination")
  | none, some _ =>
    .error (.invalidBackendResponse "rename replacement tombstone did not match the destination")

/-- `validate_rename_acceptance`. -/
def validateRenameAcceptance (request : LinuxRenameRequest) (acceptance : LinuxRenameAcceptance) :
    Except LinuxCloudFilesError Unit := do
  let item := acceptance.item
  let source := acceptance.source
  engine.validateNamespaceItem item
  match item.mutationIntent.desired with
  | .modifyMetadata key parentId name =>
    refuse (item.item.key ≠ request.key ∨ item.inodeRecord.key ≠ request.key ∨
        item.inodeRecord.generation ≠ request.inodeGeneration ∨
        LinuxNodeKind.of item.item.kind ≠ request.kind ∨
        item.item.parentId ≠ some request.newParentKey.itemId ∨
        item.item.name ≠ request.newName.value ∨ key ≠ request.key ∨
        parentId ≠ some request.newParentKey.itemId ∨ name ≠ some request.newName.value ∨
        item.mutationIntent.origin ≠ .platformCommand ∨
        item.mutationIntent.sessionGeneration ≠ request.sessionGeneration ∨
        source.key ≠ request.key ∨ source.inodeGeneration ≠ request.inodeGeneration ∨
        source.parentKey ≠ request.oldParentKey ∨ source.name ≠ request.oldName ∨ source.kind ≠ request.kind ∨
        source.mutationIntent.operationId ≠ item.mutationIntent.operationId)
      (.invalidBackendResponse "rename acceptance substituted namespace identity or intent")
    checkReplaced request request.destination acceptance.replaced
  | _ => .error (.invalidBackendResponse "rename did not persist a metadata mutation")

/-- `validate_remove_acceptance`. -/
def validateRemoveAcceptance (request : LinuxRemoveRequest) (tombstone : LinuxNamespaceTombstone) :
    Except LinuxCloudFilesError Unit :=
  refuse (tombstone.key ≠ request.key ∨ tombstone.inodeGeneration ≠ request.inodeGeneration ∨
      tombstone.parentKey ≠ request.parentKey ∨ tombstone.name ≠ request.name ∨
      tombstone.kind ≠ request.kind ∨ tombstone.mutationIntent.origin ≠ .platformCommand ∨
      tombstone.mutationIntent.sessionGeneration ≠ request.sessionGeneration ∨
      tombstone.mutationIntent.desired ≠ .delete request.key)
    (.invalidBackendResponse "remove acceptance substituted namespace identity or intent")

/-- What `ensure_namespace_item_is_unique` refuses.  `replacingKey` is the key of a rename's source,
whose own bindings are no conflict. -/
def NamespaceConflict (state : WritableState) (item : LinuxNamespaceItem) (nameKey : ParentNameKey)
    (replacingKey : Option CloudItemKey) : Prop :=
  (∃ existing ∈ engine.table.byKey item.item.key, replacingKey ≠ some existing.key) ∨
  (∃ existing ∈ engine.table.byInode item.inodeRecord.inode, replacingKey ≠ some existing.key) ∨
  (item.item.key ∈ state.namespaceByKey ∧ replacingKey ≠ some item.item.key) ∨
  (∃ existing ∈ state.namespaceByInode.lookup item.inodeRecord.inode, replacingKey ≠ some existing.item.key) ∨
  ∃ inode ∈ (state.namespaceByName.lookup nameKey).or (state.createdByName.lookup nameKey),
    inode ≠ item.inodeRecord.inode
  deriving Decidable

/-- `ensure_namespace_item_is_unique`. -/
def ensureNamespaceItemIsUnique (state : WritableState) (item : LinuxNamespaceItem)
    (nameKey : ParentNameKey) (replacingKey : Option CloudItemKey) : Except LinuxCloudFilesError Unit :=
  refuse (engine.NamespaceConflict state item nameKey replacingKey) (.invalidBackendResponse
      "namespace store returned a duplicate key, inode, or parent/name mapping")

/-- `validate_created_session`. -/
def validateCreatedSession (created : LinuxCreatedFile) (session : LinuxWriteSession) :
    Except LinuxCloudFilesError Unit := do
  refuse (session.key ≠ created.item.key)
    (.invalidBackendResponse "create staging session returned a different stable item identity")
  refuse (session.size ≠ 0 ∨ session.snapshot.isSome)
    (.invalidBackendResponse "create staging session was not a clean empty file")
  refuse (session.sessionGeneration ≠ engine.sessionGeneration)
    (.invalidBackendResponse "create staging session used another mount generation")

/-- `validate_created_file`. -/
def validateCreatedFile (created : LinuxCreatedFile) (request : Option LinuxCreateFileRequest) :
    Except LinuxCloudFilesError Unit := do
  let item := created.item
  let record := created.inodeRecord
  let intent := created.mutationIntent
  intent.validateForPersistence.mapError fun _ =>
    .invalidBackendResponse "namespace store returned an invalid durable mutation intent"
  refuse (item.kind ≠ .file ∨ item.isRoot)
    (.invalidBackendResponse "namespace store create did not return a non-root regular file")
  refuse (item.content.map CloudContentMetadata.size ≠ some 0)
    (.invalidBackendResponse "namespace store create did not return empty file metadata")
  refuse (record.key ≠ item.key ∨ record.inode = linuxRootInode) (.invalidBackendResponse
      "namespace store inode allocation did not match the created item")
  refuse (item.key.scope ≠ engine.table.scope) .scopeMismatch
  match intent.desired with
  | .create scope parentId name kind => do
    refuse (intent.origin ≠ .platformCommand ∨ scope ≠ item.key.scope ∨
        item.parentId ≠ some parentId ∨ item.name ≠ name ∨ kind ≠ .file)
      (.invalidBackendResponse "namespace store mutation intent did not match the created file")
    refuse (engine.sessionGeneration.value < intent.sessionGeneration.value)
      (.invalidBackendResponse "recovered create intent came from a future mount generation")
    refuse (∃ asked ∈ request, asked.parentKey.scope ≠ scope ∨
        asked.parentKey.itemId ≠ parentId ∨ asked.name.value ≠ name ∨
        asked.sessionGeneration ≠ intent.sessionGeneration)
      (.invalidBackendResponse "namespace store create acceptance did not match the native request")
    validateLinuxName item.name
  | _ =>
    .error (.invalidBackendResponse "namespace store did not persist a create mutation intent")

/-- `ensure_created_file_is_unique`. -/
def ensureCreatedFileIsUnique (state : WritableState) (created : LinuxCreatedFile)
    (nameKey : ParentNameKey) : Except LinuxCloudFilesError Unit :=
  refuse (engine.table.byKey created.item.key ≠ none ∨ engine.table.byInode created.inodeRecord.inode ≠ none ∨
      created.item.key ∈ state.createdByKey ∨
      created.inodeRecord.inode ∈ state.createdByInode ∨ nameKey ∈ state.createdByName)
    (.invalidBackendResponse
      "namespace store returned a duplicate key, inode, or parent/name mapping")

end LinuxWritableEngine

/-! ## The updates -/

namespace WritableState

variable (state : WritableState)

def insertCreated (created : LinuxCreatedFile) (nameKey : ParentNameKey) :
    WritableState :=
  { state with
    createdByKey := state.createdByKey.insert created.item.key created.inodeRecord.inode
    createdByName := state.createdByName.insert nameKey created.inodeRecord.inode
    createdByInode := state.createdByInode.insert created.inodeRecord.inode created }

def insertNamespaceItem (item : LinuxNamespaceItem) (nameKey : ParentNameKey) : WritableState :=
  { state with
    namespaceByKey := state.namespaceByKey.insert item.item.key item.inodeRecord.inode
    namespaceByName := state.namespaceByName.insert nameKey item.inodeRecord.inode
    namespaceByInode := state.namespaceByInode.insert item.inodeRecord.inode item }

def uncover (nameKey : ParentNameKey) : WritableState :=
  { state with
    tombstonesByName := state.tombstonesByName.erase nameKey
    remoteTombstonesByName := state.remoteTombstonesByName.erase nameKey }

def replacedInode (table : LinuxInodeTable) (key : CloudItemKey) : Option LinuxInode :=
  (state.namespaceByKey.lookup key).or <|
    (state.createdByKey.lookup key).or ((table.byKey key).map LinuxInodeRecord.inode)

def leaveName (nameKey : ParentNameKey) (tombstone : LinuxNamespaceTombstone) : WritableState :=
  { state with
    namespaceByName := state.namespaceByName.erase nameKey
    createdByName := state.createdByName.erase nameKey
    tombstonesByName := state.tombstonesByName.insert nameKey tombstone }

/-- The item at a rename's destination is replaced.  Its key goes from the first layer that has
it. -/
def replaceDestination (table : LinuxInodeTable) (replaced : LinuxNamespaceTombstone) : WritableState :=
  let inode := state.replacedInode table replaced.key
  { state with
    namespaceByKey := state.namespaceByKey.erase replaced.key
    createdByKey :=
      if replaced.key ∈ state.namespaceByKey then state.createdByKey
      else state.createdByKey.erase replaced.key
    namespaceByInode :=
      match inode with
      | some inode => state.namespaceByInode.erase inode
      | none => state.namespaceByInode
    createdByName :=
      if inode.isSome then state.createdByName.erase replaced.nameKey else state.createdByName
    deletedKeys := insert replaced.key state.deletedKeys
    tombstonesByName := state.tombstonesByName.insert replaced.nameKey replaced }

/-- A rename's source takes its new place; a created file is there in both layers. -/
def placeRenamed (key : CloudItemKey) (nameKey : ParentNameKey) (item : LinuxNamespaceItem) : WritableState :=
  { state with
    deletedKeys := state.deletedKeys.erase key
    tombstonesByName := state.tombstonesByName.erase nameKey
    remoteTombstonesByName := state.remoteTombstonesByName.erase nameKey
    namespaceByKey := state.namespaceByKey.insert key item.inodeRecord.inode
    namespaceByName := state.namespaceByName.insert nameKey item.inodeRecord.inode
    namespaceByInode := state.namespaceByInode.insert item.inodeRecord.inode item
    createdByName :=
      if key ∈ state.createdByKey then state.createdByName.insert nameKey item.inodeRecord.inode
      else state.createdByName }

/-- The update of `accept_rename`. -/
def publishRename (table : LinuxInodeTable) (request : LinuxRenameRequest)
    (acceptance : LinuxRenameAcceptance) : WritableState :=
  let left := state.leaveName request.oldNameKey acceptance.source
  let cleared :=
    match acceptance.replaced with
    | some replaced => left.replaceDestination table replaced
    | none => left
  cleared.placeRenamed request.key request.newNameKey acceptance.item

/-- The update of `accept_remove`. -/
def publishRemove (request : LinuxRemoveRequest) (tombstone : LinuxNamespaceTombstone) : WritableState :=
  { state with
    namespaceByInode :=
      match (state.namespaceByKey.lookup request.key).or (state.createdByKey.lookup request.key) with
      | some inode => state.namespaceByInode.erase inode
      | none => state.namespaceByInode
    namespaceByKey := state.namespaceByKey.erase request.key
    namespaceByName := state.namespaceByName.erase request.nameKey
    createdByName := state.createdByName.erase request.nameKey
    deletedKeys := insert request.key state.deletedKeys
    tombstonesByName := state.tombstonesByName.insert request.nameKey tombstone }

end WritableState

/-! ## The acceptances -/

namespace LinuxWritableEngine

variable (engine : LinuxWritableEngine) (state : WritableState)

/-- `accept_created_file`. -/
def acceptCreatedFile (request : LinuxCreateFileRequest)
    (acceptance : LinuxCreateFileAcceptance) (handle : LinuxFileHandle) :
    Except LinuxCloudFilesError (LinuxNode × WritableState) := do
  let created := acceptance.created
  let session := acceptance.session
  engine.validateCreatedFile created (some request)
  engine.validateCreatedSession created session
  let node ← nodeFromItemAndRecord created.item created.inodeRecord
  engine.ensureCreatedFileIsUnique state created request.nameKey
  refuse (∃ file ∈ state.files.entries, file.2.session = session.id)
    (.invalidBackendResponse "namespace store reused an active write session identity")
  let opened := (state.uncover request.nameKey).insertCreated created request.nameKey
  return (node, { opened with
    files := opened.files.insert handle ⟨created.inodeRecord.inode, request.access, session.id, 0, none⟩ })

/-- `accept_namespace_create`. -/
def acceptNamespaceCreate (request : LinuxCreateDirectoryRequest)
    (item : LinuxNamespaceItem) : Except LinuxCloudFilesError (LinuxNode × WritableState) := do
  engine.validateNamespaceCreate request item
  let node ← nodeFromItemAndRecord item.item item.inodeRecord
  engine.ensureNamespaceItemIsUnique state item request.nameKey none
  return (node, (state.uncover request.nameKey).insertNamespaceItem item request.nameKey)

/-- `accept_rename`. -/
def acceptRename (request : LinuxRenameRequest)
    (acceptance : LinuxRenameAcceptance) : Except LinuxCloudFilesError WritableState := do
  engine.validateRenameAcceptance request acceptance
  engine.ensureNamespaceItemIsUnique state acceptance.item request.newNameKey (some request.key)
  return state.publishRename engine.table request acceptance

/-- `accept_remove`. -/
def acceptRemove (request : LinuxRemoveRequest)
    (tombstone : LinuxNamespaceTombstone) : Except LinuxCloudFilesError WritableState := do
  validateRemoveAcceptance request tombstone
  return state.publishRemove request tombstone

/-! ## The operations -/

abbrev StoreAnswer (α : Type) := Except LinuxNamespaceMutationStoreError α

def parentDirectory (backend : CloudFilesBackend) (state : WritableState) (parent : LinuxInode) :
    Except LinuxCloudFilesError LinuxNode := do
  let node ← engine.getattr backend state parent none
  refuse (node.kind ≠ .directory) .notDirectory
  return node

/-- The request of a `create_file`. -/
def createFileRequest (backend : CloudFilesBackend) (state : WritableState) (parent : LinuxInode)
    (name : String) (access : LinuxFileAccess) : Except LinuxCloudFilesError LinuxCreateFileRequest := do
  refuse (engine.namespaceStore = false) .namespaceMutationNotConfigured
  let parentNode ← engine.parentDirectory backend state parent
  let name ← LinuxName.new name
  return ⟨parentNode.key, name, access, engine.sessionGeneration⟩

def createFile (backend : CloudFilesBackend) (state : WritableState) (parent : LinuxInode)
    (name : String) (access : LinuxFileAccess) (answer : StoreAnswer LinuxCreateFileAcceptance) :
    Except LinuxCloudFilesError (LinuxNode × LinuxFileHandle) × WritableState :=
  match engine.createFileRequest backend state parent name access with
  | .error error => (.error error, state)
  | .ok request =>
    match state.allocate with
    | .error error => (.error error, state)
    | .ok (handle, state) =>
      match answer with
      | .error error => (.error (.namespaceStore error), state)
      | .ok acceptance =>
        match engine.acceptCreatedFile state request acceptance handle with
        | .error error => (.error error, state)
        | .ok (node, state) => (.ok (node, handle), state)

def createDirectory (backend : CloudFilesBackend) (state : WritableState) (parent : LinuxInode)
    (name : String) (answer : StoreAnswer LinuxNamespaceItem) :
    Except LinuxCloudFilesError (LinuxNode × WritableState) := do
  refuse (engine.namespaceStore = false) .namespaceMutationNotConfigured
  let parentNode ← engine.parentDirectory backend state parent
  let name ← LinuxName.new name
  let item ← answer.mapError .namespaceStore
  engine.acceptNamespaceCreate state ⟨parentNode.key, name, engine.sessionGeneration⟩ item

/-- The request of a `rename`. -/
def renameRequest (backend : CloudFilesBackend) (state : WritableState) (parent : LinuxInode)
    (name : LinuxName) (newParent : LinuxInode) (newName : LinuxName) (noReplace : Bool) :
    Except LinuxCloudFilesError LinuxRenameRequest := do
  let oldParentNode ← engine.getattr backend state parent none
  let newParentNode ← engine.getattr backend state newParent none
  refuse (oldParentNode.kind ≠ .directory ∨ newParentNode.kind ≠ .directory) .notDirectory
  let source ← engine.lookup backend state parent name.value
  let destination ← engine.lookupRemoteValidationTarget backend state newParentNode.inode newName.value
  return ⟨source.key, source.generation, source.kind, oldParentNode.key, name, newParentNode.key,
    newName, destination.map fun node => ⟨node.key, node.generation, node.kind⟩, noReplace,
    engine.sessionGeneration⟩

def rename (backend : CloudFilesBackend) (state : WritableState) (parent : LinuxInode)
    (name : String) (newParent : LinuxInode) (newName : String) (noReplace : Bool)
    (answer : StoreAnswer LinuxRenameAcceptance) : Except LinuxCloudFilesError WritableState := do
  let name ← LinuxName.new name
  let newName ← LinuxName.new newName
  if parent = newParent ∧ name = newName then return state
  refuse (engine.namespaceStore = false) .namespaceMutationNotConfigured
  let request ← engine.renameRequest backend state parent name newParent newName noReplace
  let acceptance ← answer.mapError .namespaceStore
  engine.acceptRename state request acceptance

/-- The request of a `remove`. -/
def removeRequest (backend : CloudFilesBackend) (state : WritableState) (parent : LinuxInode)
    (name : String) (expectedKind : LinuxNodeKind) : Except LinuxCloudFilesError LinuxRemoveRequest := do
  let parentNode ← engine.parentDirectory backend state parent
  let child ← engine.lookup backend state parent name
  refuse (child.kind ≠ expectedKind) (match expectedKind with
      | .file => .notFile
      | .directory => .notDirectory)
  let name ← LinuxName.new name
  return ⟨child.key, child.generation, parentNode.key, name, expectedKind, engine.sessionGeneration⟩

def remove (backend : CloudFilesBackend) (state : WritableState) (parent : LinuxInode)
    (name : String) (expectedKind : LinuxNodeKind) (answer : StoreAnswer LinuxNamespaceTombstone) :
    Except LinuxCloudFilesError WritableState := do
  refuse (engine.namespaceStore = false) .namespaceMutationNotConfigured
  let request ← engine.removeRequest backend state parent name expectedKind
  let tombstone ← answer.mapError .namespaceStore
  acceptRemove state request tombstone

/-! ## Recovery -/

/-- One item of `restore_namespace_overlay`. -/
def restoreNamespaceItem (item : LinuxNamespaceItem) : Except LinuxCloudFilesError WritableState := do
  engine.validateNamespaceItem item
  let parentId ← okOr
    (.invalidBackendResponse "restored namespace item omitted its parent identity")
    item.item.parentId
  engine.ensureNamespaceItemIsUnique state item (parentId, item.item.name) none
  return state.insertNamespaceItem item (parentId, item.item.name)

/-- One tombstone of `restore_namespace_overlay`. -/
def restoreTombstone (tombstone : LinuxNamespaceTombstone) : Except LinuxCloudFilesError WritableState := do
  refuse (tombstone.key.scope ≠ engine.table.scope ∨ tombstone.parentKey.scope ≠ engine.table.scope ∨
      engine.sessionGeneration.value < tombstone.mutationIntent.sessionGeneration.value)
    (.invalidBackendResponse "restored namespace tombstone escaped the active scope or generation")
  refuse (tombstone.nameKey ∈ state.tombstonesByName)
    (.invalidBackendResponse "restored namespace overlay contained duplicate tombstones")
  let desired := tombstone.mutationIntent.desired
  let deletedKeys :=
    if desired = .delete tombstone.key ∨
        (tombstone.key ∉ state.namespaceByKey ∧ desired.existingItemKey ≠ some tombstone.key) then
      insert tombstone.key state.deletedKeys
    else state.deletedKeys
  return { state with
    deletedKeys
    tombstonesByName := state.tombstonesByName.insert tombstone.nameKey tombstone }

/-- The name a recovered create is placed at: where a later rename put it, or where it was made. -/
def recoveredName (created : LinuxCreatedFile) (parentId : CloudItemId) :
    ParentNameKey :=
  match (state.namespaceByKey.lookup created.item.key).bind state.namespaceByInode.lookup with
  | some item =>
    match item.item.parentId with
    | some currentParent => (currentParent, item.item.name)
    | none => (parentId, created.item.name)
  | none => (parentId, created.item.name)

/-- One file of `restore_created_files`. -/
def restoreCreatedFile (backend : CloudFilesBackend) (state : WritableState)
    (created : LinuxCreatedFile) : Except LinuxCloudFilesError WritableState := do
  engine.validateCreatedFile created none
  let parentId ← okOr (.invalidBackendResponse "recovered create omitted its parent identity")
    created.item.parentId
  let parentInode ← okOr
    (.invalidBackendResponse "recovered create parent omitted a restored inode record")
    (engine.inodeForKey state ⟨created.item.key.scope, parentId⟩)
  let parent ← engine.getattr backend state parentInode none
  refuse (parent.kind ≠ .directory)
    (.invalidBackendResponse "recovered create parent was not a directory")
  let nameKey := recoveredName state created parentId
  engine.ensureCreatedFileIsUnique state created nameKey
  return state.insertCreated created nameKey

/-- One snapshot of `restore_dirty_snapshots`. -/
def restoreDirtySnapshot (snapshot : LocalContentSnapshot) : Except LinuxCloudFilesError WritableState := do
  let key := snapshot.itemKey
  refuse (key.scope ≠ engine.table.scope) .scopeMismatch
  let inode ← (match engine.table.byKey key with
    | some record => .ok record.inode
    | none =>
      okOr (.invalidBackendResponse
          "writeback recovery returned an item without a restored inode record")
        ((state.createdByKey.lookup key).or <|
          (state.namespaceByKey.lookup key).or (state.remoteByKey.lookup key)))
  refuse (inode = linuxRootInode)
    (.invalidBackendResponse "writeback recovery returned a dirty snapshot for the mount root")
  refuse (∃ previous ∈ state.dirtySnapshots.lookup inode, previous ≠ snapshot)
    (.invalidBackendResponse "writeback recovery returned conflicting snapshots for one inode")
  return { state with dirtySnapshots := state.dirtySnapshots.insert inode snapshot }

structure ActivationAnswers where
  created : List LinuxCreatedFile
  snapshots : List LocalContentSnapshot
  items : List LinuxNamespaceItem
  tombstones : List LinuxNamespaceTombstone

/-- `activate_inner`: the state a mount is exposed with.  Without a namespace store there is no
overlay to recover. -/
def activate (backend : CloudFilesBackend) (answers : ActivationAnswers)
    (remoteEntries : List LinuxRemoteEntry) : Except LinuxCloudFilesError WritableState := do
  let items := if engine.namespaceStore then answers.items else []
  let tombstones := if engine.namespaceStore then answers.tombstones else []
  let created := if engine.namespaceStore then answers.created else []
  let state ← items.foldlM engine.restoreNamespaceItem .default
  let state ← tombstones.foldlM engine.restoreTombstone state
  let state ← remoteEntries.foldlM (fun state entry =>
    match engine.applyRemoteChange backend state (.upsert ⟨entry, none, none⟩) with
    | (.error error, _) => .error error
    | (.ok _, state) => .ok state) state
  let state ← created.foldlM (engine.restoreCreatedFile backend) state
  answers.snapshots.foldlM engine.restoreDirtySnapshot state

end LinuxWritableEngine

end AsterForge.Linux
