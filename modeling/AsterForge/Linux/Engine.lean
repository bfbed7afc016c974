import AsterForge.Core.Item
import AsterForge.Library.Checks
import AsterForge.Linux.Inode

/-!
# The read-only engine

What the mount shows of the backend alone.  The backend is a value of its answers: one item per key,
and one enumeration per directory, page after page.

* `loadChildrenForOverlay` — the page loop, with **`loadChildrenForOverlay_spec`** for what it lets
  through; `loadChildren` asks for a restored record of every child besides.
-/

namespace AsterForge.Linux

open AsterForge.Core Library List

/-! ## Failures -/

/-- Portable errno classification. -/
inductive LinuxErrorCode
  | notFound
  | alreadyExists
  | directoryNotEmpty
  | isDirectory
  | notDirectory
  | accessDenied
  | tryAgain
  | stale
  | notSupported
  | invalidArgument
  | io
  deriving DecidableEq

/-- Stable classification of a namespace persistence failure. -/
inductive LinuxNamespaceMutationStoreErrorKind
  | notFound
  | alreadyExists
  | directoryNotEmpty
  | isDirectory
  | notDirectory
  | unsupported
  | fenced
  | conflict
  | persistenceFailure
  deriving DecidableEq

structure LinuxNamespaceMutationStoreError where
  kind : LinuxNamespaceMutationStoreErrorKind
  context : String
  deriving DecidableEq

/-- Errors produced by the adapter's inode, handle and overlay mechanics. -/
inductive LinuxCloudFilesError
  | scopeMismatch
  | missingInodeRecord
  | unknownInode (inode : ℕ)
  | staleHandle
  | handleExhausted
  | invalidName (reason : String)
  | notDirectory
  | notFile
  | invalidBackendResponse (reason : String)
  | backend (error : CloudBackendError)
  | namespaceStore (error : LinuxNamespaceMutationStoreError)
  | namespaceMutationNotConfigured
  deriving DecidableEq

/-- `backend_error_code`. -/
def backendErrorCode : CloudBackendErrorKind → LinuxErrorCode
  | .notFound => .notFound
  | .authenticationRequired | .permissionDenied => .accessDenied
  | .conflict | .preconditionFailed => .stale
  | .invalidRequest => .invalidArgument
  | .rateLimited | .temporarilyUnavailable => .tryAgain
  | .unsupported => .notSupported
  | .invalidResponse | .internal => .io

/-- `namespace_store_error_code`. -/
def namespaceStoreErrorCode : LinuxNamespaceMutationStoreErrorKind → LinuxErrorCode
  | .notFound => .notFound
  | .alreadyExists => .alreadyExists
  | .directoryNotEmpty => .directoryNotEmpty
  | .isDirectory => .isDirectory
  | .notDirectory => .notDirectory
  | .unsupported => .notSupported
  | .fenced => .stale
  | .conflict | .persistenceFailure => .io

def LinuxCloudFilesError.errorCode : LinuxCloudFilesError → LinuxErrorCode
  | .unknownInode _ => .notFound
  | .staleHandle => .stale
  | .invalidName _ => .invalidArgument
  | .notDirectory => .notDirectory
  | .notFile => .isDirectory
  | .backend error => backendErrorCode error.kind
  | .namespaceStore error => namespaceStoreErrorCode error.kind
  | .namespaceMutationNotConfigured => .notSupported
  | .scopeMismatch | .missingInodeRecord | .handleExhausted | .invalidBackendResponse _ => .io

/-! ## Names and nodes -/

def validateLinuxName (name : String) : Except LinuxCloudFilesError Unit :=
  if name = "" then .error (.invalidName "name must not be empty")
  else if name = "." ∨ name = ".." then .error (.invalidName "dot components are reserved")
  else if '/' ∈ name.toList then .error (.invalidName "name must not contain a path separator")
  else if '\x00' ∈ name.toList then .error (.invalidName "name must not contain NUL")
  else .ok ()

inductive LinuxNodeKind
  | file
  | directory
  deriving DecidableEq

def LinuxNodeKind.of : CloudItemKind → LinuxNodeKind
  | .file => .file
  | .directory => .directory

/-- Metadata reply for one inode.  Of its attributes, those that do not come from the mount's
policy. -/
structure LinuxNode where
  key : CloudItemKey
  generation : LinuxInodeGeneration
  inode : LinuxInode
  size : ℕ
  kind : LinuxNodeKind
  deriving DecidableEq

def LinuxNode.withSize (node : LinuxNode) (size : ℕ) : LinuxNode := { node with size }

def validateItemName (item : CloudItem) : Except LinuxCloudFilesError Unit :=
  if item.isRoot then .ok () else validateLinuxName item.name

/-- `node_from_item_and_record`. -/
def nodeFromItemAndRecord (item : CloudItem) (record : LinuxInodeRecord) :
    Except LinuxCloudFilesError LinuxNode := do
  validateItemName item
  refuse (item.key ≠ record.key)
    (.invalidBackendResponse "linux inode record did not match the item stable identity")
  match item.kind, item.content with
  | .file, none => .error (.invalidBackendResponse "regular file omitted content metadata")
  | .file, some content => .ok ⟨item.key, record.generation, record.inode, content.size, .file⟩
  | .directory, _ => .ok ⟨item.key, record.generation, record.inode, 0, .directory⟩

/-! ## The backend's answers -/

/-- What a backend answers to one enumeration of a directory: page after page, up to the last one or
to a failure. -/
inductive Enumeration
  | failed (error : CloudBackendError)
  | last (items : List CloudItem)
  | page (items : List CloudItem) (cursor : PageCursor) (rest : Enumeration)

/-- The answers of a backend, as long as its items stay as they are. -/
structure CloudFilesBackend where
  getItem : CloudItemKey → Except CloudBackendError CloudItem
  listChildren : CloudItemKey → Enumeration

/-- One page of `load_children_for_overlay`; the names seen so far are those of the children. -/
def loadPage (parent : CloudItemKey) (children : List CloudItem) :
    List CloudItem → Except LinuxCloudFilesError (List CloudItem)
  | [] => .ok children
  | item :: items => do
    refuse (item.key.scope ≠ parent.scope ∨ item.parentId ≠ some parent.itemId)
      (.invalidBackendResponse "directory child escaped the requested parent scope")
    validateLinuxName item.name
    refuse (item.name ∈ children.map CloudItem.name)
      (.invalidBackendResponse "directory enumeration returned duplicate child names")
    loadPage parent (children ++ [item]) items

/-- The page loop of `load_children_for_overlay`. -/
def loadPages (parent : CloudItemKey) (seenCursors : List PageCursor) (children : List CloudItem) :
    Enumeration → Except LinuxCloudFilesError (List CloudItem)
  | .failed error => .error (.backend error)
  | .last items => loadPage parent children items
  | .page items cursor rest => do
    let children ← loadPage parent children items
    refuse (cursor ∈ seenCursors)
      (.invalidBackendResponse "directory pagination repeated a continuation cursor")
    loadPages parent (cursor :: seenCursors) children rest

def CloudFilesBackend.loadChildrenForOverlay (backend : CloudFilesBackend) (parent : CloudItemKey) :
    Except LinuxCloudFilesError (List CloudItem) :=
  loadPages parent [] [] (backend.listChildren parent)

/-! ## The operations -/

namespace LinuxInodeTable

variable (table : LinuxInodeTable)

/-- `load_item_for_overlay`. -/
def loadItemForOverlay (backend : CloudFilesBackend) (inode : LinuxInode) :
    Except LinuxCloudFilesError CloudItem := do
  let record ← okOr (.unknownInode inode.value) (table.byInode inode)
  let item ← (backend.getItem record.key).mapError .backend
  refuse (item.key ≠ record.key)
    (.invalidBackendResponse "get_item returned a different scoped stable identity")
  refuse (item.isRoot ≠ decide (inode = linuxRootInode))
    (.invalidBackendResponse "get_item root shape did not match the restored inode role")
  return item

/-- `load_children`: the children of a directory, each of which must have a restored record. -/
def loadChildren (backend : CloudFilesBackend) (parent : CloudItemKey) :
    Except LinuxCloudFilesError (List CloudItem) := do
  let children ← backend.loadChildrenForOverlay parent
  refuse (∃ item ∈ children, table.byKey item.key = none) .missingInodeRecord
  return children

/-- `node_from_item`. -/
def nodeFromItem (item : CloudItem) : Except LinuxCloudFilesError LinuxNode := do
  validateItemName item
  let record ← okOr .missingInodeRecord (table.byKey item.key)
  nodeFromItemAndRecord item record

/-- The read-only engine's `lookup`. -/
def lookup (backend : CloudFilesBackend) (parent : LinuxInode)
    (name : String) : Except LinuxCloudFilesError LinuxNode := do
  validateLinuxName name
  let parentItem ← table.loadItemForOverlay backend parent
  refuse (parentItem.kind ≠ .directory) .notDirectory
  let children ← table.loadChildren backend parentItem.key
  let item ← okOr (.backend (.new .notFound)) (children.find? fun item => item.name = name)
  table.nodeFromItem item

/-- The read-only engine's `getattr`. -/
def getattr (backend : CloudFilesBackend) (inode : LinuxInode) : Except LinuxCloudFilesError LinuxNode := do
  let item ← table.loadItemForOverlay backend inode
  table.nodeFromItem item

end LinuxInodeTable

/-! ## What the checks leave -/

section

variable {item : CloudItem} {r : LinuxInodeRecord} {n : LinuxNode}

/-- **A node is its item under its record.** -/
lemma nodeFromItemAndRecord_ok (h : nodeFromItemAndRecord item r = .ok n) :
    n.key = item.key ∧ r.key = item.key ∧ n.inode = r.inode ∧
      n.generation = r.generation ∧ n.kind = .of item.kind ∧ validateItemName item = .ok () := by
  simp only [nodeFromItemAndRecord, bind_eq_ok, exists_unit, refuse_eq_ok, not_not] at h
  obtain ⟨hn, hk, h⟩ := h
  split at h
  · cases h
  · rename_i hkind _
    cases h
    exact ⟨rfl, hk.symm, rfl, rfl, by rw [hkind]; rfl, hn⟩
  · rename_i hkind
    cases h
    exact ⟨rfl, hk.symm, rfl, rfl, by rw [hkind]; rfl, hn⟩

/-- The content of an item is there for files, so a node fails to be made of an item only by its
name or its record. -/
lemma nodeFromItemAndRecord_eq_ok (hn : validateItemName item = .ok ())
    (hk : r.key = item.key) : ∃ n, nodeFromItemAndRecord item r = .ok n := by
  have hshape := item.shape
  simp only [nodeFromItemAndRecord, hn, hk, ne_eq, not_true_eq_false, not_false_eq_true,
    refuse_of_not, ok_bind]
  cases hkind : item.kind <;> cases hcont : item.content <;> simp_all

variable {p : CloudItemKey}

/-- What is kept of the children of a directory while its pages are read. -/
structure ChildrenOf (parent : CloudItemKey) (children : List CloudItem) : Prop where
  parentId : ∀ item ∈ children, item.parentId = some parent.itemId
  name : ∀ item ∈ children, validateLinuxName item.name = .ok ()
  names_nodup : (children.map CloudItem.name).Nodup

variable {c' : List CloudItem}

lemma loadPage_childrenOf : ∀ {i c : List CloudItem}, ChildrenOf p c →
      loadPage p c i = .ok c' → ChildrenOf p c'
  | [], c, h, hl => by
    cases hl
    exact h
  | item :: i, c, h, hl => by
    simp only [loadPage, bind_eq_ok, exists_unit, refuse_eq_ok, not_or, not_not] at hl
    obtain ⟨⟨-, hp⟩, hn, hf, hl⟩ := hl
    refine loadPage_childrenOf ⟨?_, ?_, ?_⟩ hl
    · intro o ho
      rcases mem_append.mp ho with ho | ho
      · exact h.parentId o ho
      · rw [mem_singleton.mp ho, hp]
    · intro o ho
      rcases mem_append.mp ho with ho | ho
      · exact h.name o ho
      · rw [mem_singleton.mp ho, hn]
    · rw [map_append]
      refine List.Nodup.append h.names_nodup (nodup_singleton _) ?_
      simpa using hf

lemma loadPages_childrenOf : ∀ {e : Enumeration} {sc : List PageCursor} {c : List CloudItem},
      ChildrenOf p c → loadPages p sc c e = .ok c' → ChildrenOf p c'
  | .failed error, _, _, _, hl => by cases hl
  | .last items, _, _, h, hl => loadPage_childrenOf h hl
  | .page items cursor rest, _, _, h, hl => by
    simp only [loadPages, bind_eq_ok, exists_unit, refuse_eq_ok] at hl
    obtain ⟨c, hp, -, hl⟩ := hl
    exact loadPages_childrenOf (loadPage_childrenOf h hp) hl

/-- **What an enumeration lets through** is children of the directory under names of their own. -/
theorem loadChildrenForOverlay_spec {b : CloudFilesBackend} {c : List CloudItem}
    (h : b.loadChildrenForOverlay p = .ok c) : ChildrenOf p c :=
  loadPages_childrenOf ⟨by simp, by simp, by simp⟩ h

lemma ChildrenOf.find?_eq_some {c : List CloudItem} (h : ChildrenOf p c) {n : String} :
    c.find? (fun item => item.name = n) = some item ↔ item ∈ c ∧ item.name = n := by
  constructor
  · intro hf
    exact ⟨mem_of_find?_eq_some hf, by simpa using find?_some hf⟩
  · rintro ⟨hm, rfl⟩
    exact LinuxInodeTable.find?_of_nodup_map h.names_nodup hm

end

end AsterForge.Linux
