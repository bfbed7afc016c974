import AsterForge.Core.Mutation
import AsterForge.Linux.Engine

/-!
# Namespace requests and answers

What the writable engine asks of the product's namespace store, what the store durably accepts, and
the remote changes a product reports.  Of a request, the fields are here that an answer is compared
with; the access bits that a create passes through are not.

Names are checked where these values are built, so the requests, tombstones and remote locations
have names that are valid.
-/

namespace AsterForge.Linux

open AsterForge.Core Library

/-- A name of one directory component that passed its check. -/
structure LinuxName where
  value : String
  valid : validateLinuxName value = .ok ()
  deriving DecidableEq

def LinuxName.new (value : String) : Except LinuxCloudFilesError LinuxName :=
  match valid : validateLinuxName value with
  | .ok () => .ok ⟨value, valid⟩
  | .error error => .error error

lemma LinuxName.new_eq_ok {v : String} {n : LinuxName} : LinuxName.new v = .ok n ↔ n.value = v := by
  unfold LinuxName.new
  split
  · constructor
    · rintro ⟨⟩
      rfl
    · rintro rfl
      rfl
  · rename_i error herror
    simp only [reduceCtorEq, false_iff]
    rintro rfl
    rw [n.valid] at herror
    cases herror

/-! ## Requests -/

inductive LinuxFileAccess
  | read
  | write
  | readWrite

structure LinuxCreateFileRequest where
  parentKey : CloudItemKey
  name : LinuxName
  access : LinuxFileAccess
  sessionGeneration : SessionGeneration

structure LinuxCreateDirectoryRequest where
  parentKey : CloudItemKey
  name : LinuxName
  sessionGeneration : SessionGeneration

structure LinuxRenameDestination where
  key : CloudItemKey
  inodeGeneration : LinuxInodeGeneration
  kind : LinuxNodeKind
  deriving DecidableEq

/-- Native facts for one rename or move that preserves stable item identity. -/
structure LinuxRenameRequest where
  key : CloudItemKey
  inodeGeneration : LinuxInodeGeneration
  kind : LinuxNodeKind
  oldParentKey : CloudItemKey
  oldName : LinuxName
  newParentKey : CloudItemKey
  newName : LinuxName
  destination : Option LinuxRenameDestination
  noReplace : Bool
  sessionGeneration : SessionGeneration
  deriving DecidableEq

/-- Native facts for one unlink or rmdir transaction. -/
structure LinuxRemoveRequest where
  key : CloudItemKey
  inodeGeneration : LinuxInodeGeneration
  parentKey : CloudItemKey
  name : LinuxName
  kind : LinuxNodeKind
  sessionGeneration : SessionGeneration

/-! ## What the store accepts -/

abbrev LinuxWriteSessionId := StringIdentity "write session id"

/-- Product-owned durable staging session. -/
structure LinuxWriteSession where
  id : LinuxWriteSessionId
  key : CloudItemKey
  size : ℕ
  sessionGeneration : SessionGeneration
  snapshot : Option LocalContentSnapshot

/-- Durable product allocation restored into the local namespace. -/
structure LinuxCreatedFile where
  item : CloudItem
  inodeRecord : LinuxInodeRecord
  mutationIntent : MutationIntent

structure LinuxCreateFileAcceptance where
  created : LinuxCreatedFile
  session : LinuxWriteSession

structure LinuxNamespaceItem where
  item : CloudItem
  inodeRecord : LinuxInodeRecord
  mutationIntent : MutationIntent

/-- Durable local deletion marker. -/
structure LinuxNamespaceTombstone where
  key : CloudItemKey
  inodeGeneration : LinuxInodeGeneration
  parentKey : CloudItemKey
  name : LinuxName
  kind : LinuxNodeKind
  mutationIntent : MutationIntent

/-- Durable rename result, with the tombstone of a replaced destination. -/
structure LinuxRenameAcceptance where
  item : LinuxNamespaceItem
  source : LinuxNamespaceTombstone
  replaced : Option LinuxNamespaceTombstone

/-! ## Remote changes -/

/-- One durable remote item and its product-allocated mapping. -/
structure LinuxRemoteEntry where
  item : CloudItem
  inodeRecord : LinuxInodeRecord

/-- Last durable directory location of an upserted item. -/
structure LinuxRemoteLocation where
  parentKey : CloudItemKey
  name : LinuxName

/-- Exact durable facts for one remote deletion or destination replacement. -/
structure LinuxRemoteDelete where
  key : CloudItemKey
  inodeRecord : LinuxInodeRecord
  parentKey : CloudItemKey
  name : LinuxName
  kind : LinuxNodeKind

/-- Durable product transaction result for one remote create, metadata update, or move. -/
structure LinuxRemoteUpsert where
  entry : LinuxRemoteEntry
  previous : Option LinuxRemoteLocation
  replaced : Option LinuxRemoteDelete

/-- One product-persisted remote namespace transition. -/
inductive LinuxRemoteChange
  | upsert (upsert : LinuxRemoteUpsert)
  | delete (deleted : LinuxRemoteDelete)

/-- One native kernel-cache notification. -/
inductive LinuxInvalidation
  | entry (parent : LinuxInode) (name : String)
  | inode (inode : LinuxInode)
  | delete (parent child : LinuxInode) (name : String)
  deriving DecidableEq

end AsterForge.Linux
