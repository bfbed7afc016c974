import AsterForge.Core.Error

/-!
# Identities, revisions and generations

The opaque values every other module is about.  The source generates them with two macros, one
for non-empty strings and one for non-empty byte tokens, that take the name of the field for the
error text; here that name is a parameter of the type, so two kinds of identity stay as distinct
as they are in the source.

Non-emptiness, and being non-zero for a generation, is a field: an invalid value cannot be built.
-/

namespace AsterForge.Core

/-! ## Opaque strings and tokens -/

/-- A non-empty opaque string; `field` is what the constructor's error calls it. -/
@[ext]
structure StringIdentity (field : String) where
  value : String
  nonempty : value ≠ ""
  deriving DecidableEq

def StringIdentity.new {field : String} (value : String) :
    Except CloudFilesCoreError (StringIdentity field) :=
  if h : value ≠ "" then .ok ⟨value, h⟩ else .error (.emptyValue field)

/-- A non-empty opaque byte token; `field` is what the constructor's error calls it. -/
structure OpaqueToken (field : String) where
  bytes : List UInt8
  nonempty : bytes ≠ []
  deriving DecidableEq

def OpaqueToken.new {field : String} (value : List UInt8) : Except CloudFilesCoreError (OpaqueToken field) :=
  if h : value ≠ [] then .ok ⟨value, h⟩ else .error (.emptyValue field)

abbrev CloudNamespaceId := StringIdentity "cloud namespace id"

abbrev CloudRootId := StringIdentity "cloud root id"

abbrev CloudItemId := StringIdentity "cloud item id"

abbrev MetadataRevision := OpaqueToken "metadata revision"

abbrev ContentRevision := OpaqueToken "content revision"

/-- Backend list-pagination position for one enumeration sequence. -/
abbrev PageCursor := OpaqueToken "page cursor"

abbrev ContentDigestAlgorithm := StringIdentity "content digest algorithm"

abbrev LocalContentReference := StringIdentity "local content reference"

structure ContentDigest where
  algorithm : ContentDigestAlgorithm
  value : List UInt8
  nonempty : value ≠ []
  deriving DecidableEq

/-! ## Scoped keys -/

/-- Namespace and root pair that scopes item identities. -/
structure CloudScope where
  namespaceId : CloudNamespaceId
  rootId : CloudRootId
  deriving DecidableEq

structure CloudItemKey where
  scope : CloudScope
  itemId : CloudItemId
  deriving DecidableEq

/-! ## Generations -/

@[ext]
structure SessionGeneration where
  value : ℕ
  nonzero : 0 < value
  le_max : value ≤ u64Max
  deriving DecidableEq

structure LocalContentGeneration where
  value : ℕ
  nonzero : 0 < value
  le_max : value ≤ u64Max
  deriving DecidableEq

/-! ## Values for the examples -/

def sampleItemKey : CloudItemKey := ⟨⟨⟨"namespace", by decide⟩, ⟨"drive", by decide⟩⟩, ⟨"item", by decide⟩⟩

def sampleRevision : ContentRevision := ⟨[1], by decide⟩

def firstGeneration : SessionGeneration := ⟨1, Nat.one_pos, one_le_u64Max⟩

end AsterForge.Core
