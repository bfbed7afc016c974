import AsterForge.Library.Containers
import AsterForge.Linux.Namespace
import Mathlib.Data.Finset.Basic

/-!
# The writable engine

The state behind the writable mount, in memory only: four layers of namespace facts (the restored
inode table, local namespace items, local creates and remote entries), tombstones, open files and
dirty snapshots.  What the kernel sees of it is a function of the state and of the backend's answers.

* `WritableState` — the state, with `overlayItem` and `overlayAt` for what its layers hold under an
  inode and under a name.
* `LinuxWritableEngine.recordForKey`, `keyForInode` — the identities, with the restored table as the
  last layer.
-/

namespace AsterForge.Linux

open AsterForge.Core Library

/-! ## The state -/

@[ext]
structure LinuxFileHandle where
  value : ℕ
  nonzero : 0 < value

instance : DecidableEq LinuxFileHandle := fun _ _ => decidable_of_iff' _ LinuxFileHandle.ext_iff

@[ext]
structure LinuxDirectoryHandle where
  value : ℕ
  nonzero : 0 < value

instance : DecidableEq LinuxDirectoryHandle := fun _ _ => decidable_of_iff' _ LinuxDirectoryHandle.ext_iff

structure OpenFile where
  inode : LinuxInode
  access : LinuxFileAccess
  session : LinuxWriteSessionId
  size : ℕ
  generation : Option LocalContentGeneration

/-- One child captured in an open-directory snapshot. -/
structure LinuxDirectoryEntry where
  inode : LinuxInode
  generation : LinuxInodeGeneration
  name : String
  kind : LinuxNodeKind
  deriving DecidableEq

def LinuxDirectoryEntry.fromNode (name : String) (node : LinuxNode) : LinuxDirectoryEntry :=
  ⟨node.inode, node.generation, name, node.kind⟩

/-- Immutable directory stream captured at `opendir` time. -/
structure LinuxDirectorySnapshot where
  directory : LinuxInode
  parent : LinuxInode
  entries : List LinuxDirectoryEntry
  deriving DecidableEq

abbrev ParentNameKey := CloudItemId × String

/-- Name index of an overlay; its buckets by directory only make enumeration cheaper. -/
abbrev ParentNameIndex (ν : Type) := AList fun _ : ParentNameKey => ν

def ParentNameIndex.children {ν : Type} (index : ParentNameIndex ν) (parent : CloudItemId) :
    List (String × ν) :=
  index.entries.filterMap fun entry =>
    if entry.1.1 = parent then some (entry.1.2, entry.2) else none

structure WritableState where
  next : ℕ
  files : AList fun _ : LinuxFileHandle => OpenFile
  directories : AList fun _ : LinuxDirectoryHandle => LinuxDirectorySnapshot
  dirtySnapshots : AList fun _ : LinuxInode => LocalContentSnapshot
  createdByInode : AList fun _ : LinuxInode => LinuxCreatedFile
  createdByKey : AList fun _ : CloudItemKey => LinuxInode
  createdByName : ParentNameIndex LinuxInode
  namespaceByInode : AList fun _ : LinuxInode => LinuxNamespaceItem
  namespaceByKey : AList fun _ : CloudItemKey => LinuxInode
  namespaceByName : ParentNameIndex LinuxInode
  remoteByInode : AList fun _ : LinuxInode => LinuxRemoteEntry
  remoteByKey : AList fun _ : CloudItemKey => LinuxInode
  remoteByName : ParentNameIndex LinuxInode
  remoteTombstonesByName : ParentNameIndex Unit
  remoteDeletedKeys : Finset CloudItemKey
  remoteDeletedInodes : Finset LinuxInode
  tombstonesByName : ParentNameIndex LinuxNamespaceTombstone
  deletedKeys : Finset CloudItemKey

abbrev OverlayEntry := CloudItem × LinuxInodeRecord

namespace WritableState

def default : WritableState :=
  ⟨0, ∅, ∅, ∅, ∅, ∅, ∅, ∅, ∅, ∅, ∅, ∅, ∅, ∅, ∅, ∅, ∅, ∅⟩

variable (state : WritableState)

def nextHandle : ℕ := if state.next = 0 then 1 else state.next

lemma nextHandle_pos (s : WritableState) : 0 < s.nextHandle := by
  unfold nextHandle
  split <;> omega

def allocate : Except LinuxCloudFilesError (LinuxFileHandle × WritableState) :=
  if state.nextHandle + 1 ≤ u64Max then
    .ok (⟨state.nextHandle, state.nextHandle_pos⟩, { state with next := state.nextHandle + 1 })
  else .error .handleExhausted

def allocateDirectory : Except LinuxCloudFilesError (LinuxDirectoryHandle × WritableState) :=
  if state.nextHandle + 1 ≤ u64Max then
    .ok (⟨state.nextHandle, state.nextHandle_pos⟩, { state with next := state.nextHandle + 1 })
  else .error .handleExhausted

/-- `overlay_item`: what the overlay layers hold under an inode. -/
def overlayItem (inode : LinuxInode) : Option OverlayEntry :=
  match state.namespaceByInode.lookup inode with
  | some item => some (item.item, item.inodeRecord)
  | none =>
    match state.createdByInode.lookup inode with
    | some created => some (created.item, created.inodeRecord)
    | none => (state.remoteByInode.lookup inode).map fun entry => (entry.item, entry.inodeRecord)

/-- What the overlay layers hold under a name, in the order in which a lookup asks them. -/
def overlayAt (nameKey : ParentNameKey) : Option OverlayEntry :=
  match (state.namespaceByName.lookup nameKey).bind state.namespaceByInode.lookup with
  | some item => some (item.item, item.inodeRecord)
  | none =>
    match (state.createdByName.lookup nameKey).bind state.createdByInode.lookup with
    | some created => some (created.item, created.inodeRecord)
    | none =>
      ((state.remoteByName.lookup nameKey).bind state.remoteByInode.lookup).map fun entry =>
        (entry.item, entry.inodeRecord)

/-- Whether a name is hidden from the backend's listing. -/
def Tombstoned (nameKey : ParentNameKey) : Prop :=
  nameKey ∈ state.tombstonesByName ∨ nameKey ∈ state.remoteTombstonesByName
  deriving Decidable

/-- The overlay entries of one directory: namespace items, then the creates and then the remote
entries whose names are not taken. -/
def overlayChildren (parent : CloudItemId) : List (String × OverlayEntry) :=
  let namespaceChildren := (state.namespaceByName.children parent).filterMap fun child =>
    (state.namespaceByInode.lookup child.2).map fun item => (child.1, item.item, item.inodeRecord)
  let createdChildren := (state.createdByName.children parent).filterMap fun child =>
    if child.1 ∈ namespaceChildren.map Prod.fst then none
    else (state.createdByInode.lookup child.2).map fun created =>
      (child.1, created.item, created.inodeRecord)
  let localChildren := namespaceChildren ++ createdChildren
  let remoteChildren := (state.remoteByName.children parent).filterMap fun child =>
    if child.1 ∈ localChildren.map Prod.fst then none
    else (state.remoteByInode.lookup child.2).map fun entry =>
      (child.1, entry.item, entry.inodeRecord)
  localChildren ++ remoteChildren

end WritableState

/-- What an engine is made with: the restored inode table, the mount's session, and whether there is
a namespace store. -/
structure LinuxWritableEngine where
  table : LinuxInodeTable
  sessionGeneration : SessionGeneration
  namespaceStore : Bool

namespace LinuxWritableEngine

variable (engine : LinuxWritableEngine) (state : WritableState)

/-- `record_for_key`: the record of a key in the first layer that has one. -/
def recordForKey (key : CloudItemKey) : Option LinuxInodeRecord :=
  match (state.namespaceByKey.lookup key).bind state.namespaceByInode.lookup with
  | some item => some item.inodeRecord
  | none =>
    match (state.createdByKey.lookup key).bind state.createdByInode.lookup with
    | some created => some created.inodeRecord
    | none =>
      match (state.remoteByKey.lookup key).bind state.remoteByInode.lookup with
      | some entry => some entry.inodeRecord
      | none => engine.table.byKey key

/-- `inode_for_key`. -/
def inodeForKey (key : CloudItemKey) : Option LinuxInode :=
  (engine.recordForKey state key).map LinuxInodeRecord.inode

/-- `key_for_inode_in_state`: the key of an inode in the first layer that has it. -/
def keyForInode (inode : LinuxInode) : Option CloudItemKey :=
  match state.overlayItem inode with
  | some entry => some entry.1.key
  | none => (engine.table.byInode inode).map LinuxInodeRecord.key

/-! ## What the kernel sees -/

def Deleted (inode : LinuxInode) : Prop :=
  inode ∈ state.remoteDeletedInodes ∨ (∃ record ∈ engine.table.byInode inode,
      record.key ∈ state.deletedKeys ∨ record.key ∈ state.remoteDeletedKeys) ∨
    ∃ created ∈ state.createdByInode.lookup inode,
      created.item.key ∈ state.deletedKeys ∨ created.item.key ∈ state.remoteDeletedKeys
  deriving Decidable

/-- Loads attributes, with the current staged size of a file. -/
def getattr (backend : CloudFilesBackend) (state : WritableState) (inode : LinuxInode)
    (handle : Option LinuxFileHandle) : Except LinuxCloudFilesError LinuxNode := do
  refuse (engine.Deleted state inode ∧ state.namespaceByInode.lookup inode = none ∧
    state.remoteByInode.lookup inode = none) (.unknownInode inode.value)
  let node ← (match state.overlayItem inode with
    | some (item, record) => nodeFromItemAndRecord item record
    | none => engine.table.getattr backend inode)
  match handle with
  | some handle => do
    let file ← okOr .staleHandle (state.files.lookup handle)
    refuse (file.inode ≠ inode) .staleHandle
    return node.withSize file.size
  | none =>
    match state.dirtySnapshots.lookup inode with
    | some snapshot => return node.withSize snapshot.size
    | none => return node

/-- Resolves one child, with its current dirty staging size. -/
def lookup (backend : CloudFilesBackend) (state : WritableState) (parent : LinuxInode)
    (name : String) : Except LinuxCloudFilesError LinuxNode := do
  validateLinuxName name
  let parentNode ← engine.getattr backend state parent none
  refuse (parentNode.kind ≠ .directory) .notDirectory
  let node ← (match state.overlayAt (parentNode.key.itemId, name) with
    | some (item, record) => nodeFromItemAndRecord item record
    | none =>
      if state.Tombstoned (parentNode.key.itemId, name) then .error (.unknownInode parent.value)
      else engine.table.lookup backend parent name)
  match state.dirtySnapshots.lookup node.inode with
  | some snapshot => return node.withSize snapshot.size
  | none => return node

/-- The backend's part of a directory snapshot: the children that no overlay entry or tombstone
hides. -/
def backendEntries (hidden : List String) (children : List CloudItem) :
    Except LinuxCloudFilesError (List LinuxDirectoryEntry) :=
  (children.filter fun item => item.name ∉ hidden).mapM fun item => do
    let record ← okOr .missingInodeRecord (engine.recordForKey state item.key)
    let child ← nodeFromItemAndRecord item record
    return .fromNode item.name child

def appendOverlay : List LinuxDirectoryEntry → List (String × OverlayEntry) →
    Except LinuxCloudFilesError (List LinuxDirectoryEntry)
  | entries, [] => .ok entries
  | entries, (name, item, record) :: overlay => do
    refuse (∃ entry ∈ entries, entry.name = name)
      (.invalidBackendResponse "durable overlay collided with another visible directory entry")
    let child ← nodeFromItemAndRecord item record
    appendOverlay (entries ++ [.fromNode name child]) overlay

/-- What `open_directory` captures. -/
def captureDirectory (backend : CloudFilesBackend) (state : WritableState) (inode : LinuxInode) :
    Except LinuxCloudFilesError LinuxDirectorySnapshot := do
  let node ← engine.getattr backend state inode none
  refuse (node.kind ≠ .directory) .notDirectory
  let directoryItem ← (match state.overlayItem inode with
    | some (item, _) => .ok item
    | none => engine.table.loadItemForOverlay backend inode)
  let backendChildren ← backend.loadChildrenForOverlay directoryItem.key
  let parent ← (match directoryItem.parentId with
    | some parentId =>
      okOr .missingInodeRecord (engine.inodeForKey state ⟨directoryItem.key.scope, parentId⟩)
    | none => .ok inode)
  let overlay := state.overlayChildren node.key.itemId
  let overlayNames := overlay.map Prod.fst
  -- an overlay entry is authoritative over an older tombstone of its name
  let tombstonedNames :=
    ((state.tombstonesByName.children node.key.itemId).map Prod.fst ++
      (state.remoteTombstonesByName.children node.key.itemId).map Prod.fst).filter
        fun name => name ∉ overlayNames
  let entries ← engine.backendEntries state (tombstonedNames ++ overlayNames) backendChildren
  let shown := overlay.filter fun child => child.1 ∉ tombstonedNames
  let entries ← appendOverlay entries (shown.insertionSort fun left right => left.1 ≤ right.1)
  return ⟨inode, parent, entries⟩

def openDirectory (backend : CloudFilesBackend) (state : WritableState) (inode : LinuxInode) :
    Except LinuxCloudFilesError (LinuxDirectoryHandle × WritableState) := do
  let snapshot ← engine.captureDirectory backend state inode
  let (handle, state) ← state.allocateDirectory
  return (handle, { state with directories := state.directories.insert handle snapshot })

end LinuxWritableEngine

def WritableState.directorySnapshot (state : WritableState) (inode : LinuxInode)
    (handle : LinuxDirectoryHandle) : Except LinuxCloudFilesError LinuxDirectorySnapshot := do
  let snapshot ← okOr .staleHandle (state.directories.lookup handle)
  refuse (snapshot.directory ≠ inode) .staleHandle
  return snapshot

def WritableState.releaseDirectory (state : WritableState) (handle : LinuxDirectoryHandle) :
    Except LinuxCloudFilesError WritableState := do
  refuse (handle ∉ state.directories) .staleHandle
  return { state with directories := state.directories.erase handle }

end AsterForge.Linux
