import AsterForge.Core.Identity

/-!
# Items and local snapshots

Product-neutral item metadata, and the immutable local bytes that dirty tracking and uploads refer
to.  A `CloudItem` carries the shape its constructors enforce: a name, a parent other than itself,
and content metadata exactly for files, which always have a parent.
-/

namespace AsterForge.Core

/-! ## Items -/

inductive CloudItemKind
  | file
  | directory
  deriving DecidableEq

@[ext]
structure CloudContentMetadata where
  revision : ContentRevision
  digest : Option ContentDigest
  size : ℕ
  size_le : size ≤ u64Max

instance : DecidableEq CloudContentMetadata := fun _ _ => decidable_of_iff' _ CloudContentMetadata.ext_iff

/-- Stable item identity plus its current parent, name, kind and revisions. -/
@[ext]
structure CloudItem where
  key : CloudItemKey
  parentId : Option CloudItemId
  name : String
  kind : CloudItemKind
  metadataRevision : MetadataRevision
  content : Option CloudContentMetadata
  name_nonempty : name ≠ ""
  parent_ne : parentId ≠ some key.itemId
  shape : match kind with
    | .file => parentId.isSome ∧ content.isSome
    | .directory => content = none

instance : DecidableEq CloudItem := fun _ _ => decidable_of_iff' _ CloudItem.ext_iff

namespace CloudItem

lemma directory_shape : (none : Option CloudContentMetadata) = none := rfl

/-- The checks of `validate_item_location`, in their order. -/
def validateItemLocation (key : CloudItemKey) (parentId : Option CloudItemId) (name : String) :
    Except CloudFilesCoreError (PLift (name ≠ "" ∧ parentId ≠ some key.itemId)) :=
  if hname : name = "" then .error (.emptyValue "cloud item name")
  else if hparent : parentId = some key.itemId then
    .error (.invalidItemShape "an item must not be its own parent")
  else .ok ⟨hname, hparent⟩

def newDirectory (key : CloudItemKey) (parentId : Option CloudItemId) (name : String)
    (metadataRevision : MetadataRevision) : Except CloudFilesCoreError CloudItem :=
  (validateItemLocation key parentId name).map fun valid =>
    ⟨key, parentId, name, .directory, metadataRevision, none, valid.down.1, valid.down.2, directory_shape⟩

def newFile (key : CloudItemKey) (parentId : CloudItemId) (name : String)
    (metadataRevision : MetadataRevision) (content : CloudContentMetadata) :
    Except CloudFilesCoreError CloudItem :=
  (validateItemLocation key (some parentId) name).map fun valid =>
    ⟨key, some parentId, name, .file, metadataRevision, some content, valid.down.1, valid.down.2,
      rfl, rfl⟩

def isRoot (item : CloudItem) : Bool := item.parentId.isNone

end CloudItem

/-! ## Local snapshots -/

/-- Immutable local bytes captured for dirty tracking and upload. -/
@[ext]
structure LocalContentSnapshot where
  itemKey : CloudItemKey
  generation : LocalContentGeneration
  reference : LocalContentReference
  size : ℕ
  digest : Option ContentDigest
  size_le : size ≤ u64Max

instance : DecidableEq LocalContentSnapshot := fun _ _ => decidable_of_iff' _ LocalContentSnapshot.ext_iff

/-- Revision-bound identity of one logical cache entry. -/
structure ContentCacheKey where
  itemKey : CloudItemKey
  revision : ContentRevision
  deriving DecidableEq

end AsterForge.Core
