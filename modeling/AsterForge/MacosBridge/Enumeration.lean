import AsterForge.Core.Item
import AsterForge.MacosBridge.Identifier
import Mathlib.Algebra.BigOperators.Group.List.Basic
import Mathlib.Data.Finset.Card

/-!
# Enumeration of a directory

The platform enumerates a directory page by page, and the backend behind it is not trusted: a page may be too
large, name items of other directories, repeat itself or never end.  A page is validated by itself first and
then against everything that the enumeration has accepted so far.

* `MacosEnumerationPage` — a validated page; that no two of its items share an identifier or a filename is
  part of it.
* `MacosEnumeration` — an enumeration with the pages it has accepted, `receive` — one page of the backend.
* **`EnumerationInvariant.receive`** — what the state holds is what the accepted pages hold.
* **`enumeration_accumulates`** — nothing comes twice, the budgets are exact and kept, a rejected page changes
  nothing, and the terminal page is the last.
-/

namespace AsterForge.MacosBridge

open AsterForge.Core Library List

/-! ## Versions -/

/-- Maximum size of either `NSFileProviderItemVersion` component. -/
def fileProviderItemVersionComponentMaxBytes : ℕ := 128

def directoryContentVersion : List UInt8 := utf8Bytes "aster-forge-directory-v1"

structure MacosFileProviderItemVersion where
  metadata : MetadataRevision
  content : ContentRevision

def validateComponent (value : List UInt8) : Except MacosBridgeError Unit :=
  refuse (fileProviderItemVersionComponentMaxBytes < value.length)
    (.invalidItemVersion "item version component exceeds the File Provider 128-byte limit")

namespace MacosFileProviderItemVersion

def new (metadata : MetadataRevision) (content : ContentRevision) :
    Except MacosBridgeError MacosFileProviderItemVersion := do
  validateComponent metadata.bytes
  validateComponent content.bytes
  return ⟨metadata, content⟩

def directory (metadata : MetadataRevision) : Except MacosBridgeError MacosFileProviderItemVersion := do
  let content ← (OpaqueToken.new directoryContentVersion).mapError fun _ =>
    .invalidItemVersion "directory content version could not be represented"
  new metadata content

end MacosFileProviderItemVersion

/-! ## Items -/

inductive MacosFileProviderItemKind
  | file
  | directory

structure MacosFileProviderItem where
  identifier : MacosFileProviderIdentifier
  parentIdentifier : MacosFileProviderIdentifier
  filename : String
  kind : MacosFileProviderItemKind
  size : ℕ
  version : MacosFileProviderItemVersion

def invalidResponse (reason : String) : MacosBridgeError := .invalidBackendResponse reason

namespace MacosFileProviderItem

/-- The identifier of a parent: the reserved name for the root of the domain and for no parent at all. -/
def parentIdentifierOf (engine : TextCodec) (item : CloudItem) (rootKey : CloudItemKey) :
    Except MacosBridgeError MacosFileProviderIdentifier :=
  match item.parentId with
  | some parentId =>
    let parentKey : CloudItemKey := ⟨item.key.scope, parentId⟩
    if parentKey = rootKey then .ok (.system .root)
    else MacosFileProviderIdentifier.encode engine parentKey
  | none => .ok (.system .root)

def contentOf (item : CloudItem) :
    Except MacosBridgeError (MacosFileProviderItemKind × ℕ × MacosFileProviderItemVersion) :=
  match item.kind with
  | .directory => do
    let version ← MacosFileProviderItemVersion.directory item.metadataRevision
    return (.directory, 0, version)
  | .file => do
    let content ← okOr (invalidResponse "regular file omitted content metadata") item.content
    let version ← MacosFileProviderItemVersion.new item.metadataRevision content.revision
    return (.file, content.size, version)

def fromCloudItem (engine : TextCodec) (item : CloudItem) (rootKey : CloudItemKey) :
    Except MacosBridgeError MacosFileProviderItem := do
  refuse (item.key.scope ≠ rootKey.scope)
    (invalidResponse "item escaped the File Provider root scope")
  refuse (item.isRoot ≠ decide (item.key = rootKey))
    (invalidResponse "item root shape did not match the File Provider root role")
  refuse ('/' ∈ item.name.toList ∨ '\x00' ∈ item.name.toList)
    (invalidResponse "item filename is not one File Provider path component")
  let identifier ←
    if item.isRoot then .ok (.system .root) else MacosFileProviderIdentifier.encode engine item.key
  let parentIdentifier ← parentIdentifierOf engine item rootKey
  let (kind, size, version) ← contentOf item
  return ⟨identifier, parentIdentifier, item.name, kind, size, version⟩

end MacosFileProviderItem

/-! ## Pages -/

def maxEnumerationPageItems : ℕ := 4096

/-- Maximum number of items retained for cross-page duplicate detection by one enumerator. -/
def maxEnumerationItems : ℕ := 100000

/-- Maximum cumulative UTF-8 bytes retained for identifiers, filenames, and cursors. -/
def maxEnumerationStateBytes : ℕ := 16 * 1024 * 1024

structure CloudItemPage where
  items : List CloudItem
  nextCursor : Option PageCursor

def identifiersOf (items : List MacosFileProviderItem) : List String :=
  items.map fun item => item.identifier.asStr

def filenamesOf (items : List MacosFileProviderItem) : List String :=
  items.map MacosFileProviderItem.filename

/-- Owned, validated page returned to the Swift enumerator. -/
structure MacosEnumerationPage where
  items : List MacosFileProviderItem
  nextPage : Option PageCursor
  identifiers_nodup : (identifiersOf items).Nodup
  filenames_nodup : (filenamesOf items).Nodup

def convertItems (engine : TextCodec) (rootKey parent : CloudItemKey) :
    Finset String → Finset String → List CloudItem → Except MacosBridgeError (List MacosFileProviderItem)
  | _, _, [] => .ok []
  | identifiers, filenames, item :: items => do
    refuse (item.key.scope ≠ parent.scope ∨ item.parentId ≠ some parent.itemId)
      (invalidResponse "enumerated item escaped the requested parent scope")
    let converted ← MacosFileProviderItem.fromCloudItem engine item rootKey
    refuse (converted.identifier.asStr ∈ identifiers)
      (invalidResponse "enumeration returned duplicate persistent identifiers")
    refuse (converted.filename ∈ filenames)
      (invalidResponse "enumeration returned duplicate filenames")
    let rest ← convertItems engine rootKey parent (insert converted.identifier.asStr identifiers)
      (insert converted.filename filenames) items
    return converted :: rest

lemma convertItems_fresh {e : TextCodec} {rk p : CloudItemKey} :
    ∀ {i f : Finset String} {it : List CloudItem} {c : List MacosFileProviderItem},
      convertItems e rk p i f it = .ok c →
        ((identifiersOf c).Nodup ∧ ∀ ir ∈ identifiersOf c, ir ∉ i)
          ∧ (filenamesOf c).Nodup ∧ ∀ fl ∈ filenamesOf c, fl ∉ f
  | _, _, [], _, h => by
    cases h
    simp [identifiersOf, filenamesOf]
  | i, f, item :: it, _, h => by
    simp only [convertItems, bind_eq_ok, refuse_eq_ok, except_pure, Except.ok.injEq] at h
    obtain ⟨_, -, c, -, _, hi, _, hfl, r, hr, rfl⟩ := h
    obtain ⟨⟨hn, hf⟩, hn', hf'⟩ := convertItems_fresh hr
    simp only [Finset.mem_insert, not_or] at hf hf'
    refine ⟨⟨nodup_cons.mpr ⟨fun hm => (hf _ hm).1 rfl, hn⟩, ?_⟩,
      nodup_cons.mpr ⟨fun hm => (hf' _ hm).1 rfl, hn'⟩, ?_⟩
    · exact forall_mem_cons.mpr ⟨hi, fun ir hm => (hf ir hm).2⟩
    · exact forall_mem_cons.mpr ⟨hfl, fun fl hm => (hf' fl hm).2⟩

/-- Validates a backend page against the exact domain root and requested parent before exposing it to File
Provider. -/
def MacosEnumerationPage.fromBackend (engine : TextCodec) (rootKey parent : CloudItemKey)
    (page : CloudItemPage) : Except MacosBridgeError MacosEnumerationPage :=
  if maxEnumerationPageItems < page.items.length then
    .error (invalidResponse "enumeration page exceeded the item limit")
  else
    match hconvert : convertItems engine rootKey parent ∅ ∅ page.items with
    | .error error => .error error
    | .ok converted =>
      .ok ⟨converted, page.nextCursor, (convertItems_fresh hconvert).1.1, (convertItems_fresh hconvert).2.1⟩

/-! ## The state of an enumeration -/

/-- One File Provider enumeration request with a backend page cursor kept opaque. -/
structure MacosEnumerationRequest where
  container : MacosFileProviderIdentifier
  page : Option PageCursor

/-- Enumerator-scoped state that rejects duplicate items and repeated continuation cursors across multiple
backend pages. -/
structure MacosEnumerationState where
  container : MacosFileProviderIdentifier
  nextPage : Option PageCursor
  seenIdentifiers : Finset String
  seenFilenames : Finset String
  seenCursors : Finset PageCursor
  retainedBytes : ℕ
  finished : Bool

namespace MacosEnumerationState

/-- Creates a fresh enumerator for one immutable container identity. -/
def new (container : MacosFileProviderIdentifier) : MacosEnumerationState :=
  ⟨container, none, ∅, ∅, ∅, 0, false⟩

variable (state : MacosEnumerationState)

def request : Except MacosBridgeError MacosEnumerationRequest :=
  if state.finished then
    .error (invalidResponse "enumeration requested another page after terminal completion")
  else .ok ⟨state.container, state.nextPage⟩

def itemBytes : List MacosFileProviderItem → ℕ → Except MacosBridgeError ℕ
  | [], addedBytes => .ok addedBytes
  | item :: items, addedBytes => do
    refuse (item.identifier.asStr ∈ state.seenIdentifiers)
      (invalidResponse "enumeration repeated a persistent identifier across pages")
    refuse (item.filename ∈ state.seenFilenames)
      (invalidResponse "enumeration repeated a filename across pages")
    let addedBytes ← okOr (invalidResponse "enumeration retained byte count overflowed")
      ((checkedAdd usizeMax addedBytes item.identifier.asStr.utf8ByteSize).bind fun value =>
        checkedAdd usizeMax value item.filename.utf8ByteSize)
    itemBytes items addedBytes

def cursorBytes : Option PageCursor → ℕ → Except MacosBridgeError ℕ
  | none, addedBytes => .ok addedBytes
  | some cursor, addedBytes => do
    refuse (cursor ∈ state.seenCursors) (invalidResponse "enumeration repeated a continuation cursor")
    okOr (invalidResponse "enumeration retained byte count overflowed")
      (checkedAdd usizeMax addedBytes cursor.bytes.length)

def retainPage (page : MacosEnumerationPage) : Except MacosBridgeError ℕ := do
  refuse (state.finished = true)
    (invalidResponse "enumeration returned a page after terminal completion")
  let newItemCount ← okOr (invalidResponse "enumeration item count overflowed")
    (checkedAdd usizeMax state.seenIdentifiers.card page.items.length)
  refuse (maxEnumerationItems < newItemCount)
    (invalidResponse "enumeration exceeded the retained item limit")
  let addedBytes ← state.itemBytes page.items 0
  let addedBytes ← state.cursorBytes page.nextPage addedBytes
  let retainedBytes ← okOr (invalidResponse "enumeration retained byte count overflowed")
    (checkedAdd usizeMax state.retainedBytes addedBytes)
  refuse (maxEnumerationStateBytes < retainedBytes)
    (invalidResponse "enumeration exceeded the retained byte limit")
  return retainedBytes

/-- Accepts one page and advances the handle-scoped continuation state: the answer, and the state after the
call. -/
def acceptPage (page : MacosEnumerationPage) :
    Except MacosBridgeError MacosEnumerationPage × MacosEnumerationState :=
  match state.retainPage page with
  | .error error => (.error error, state)
  | .ok retainedBytes =>
    (.ok page,
      { state with
        nextPage := page.nextPage
        seenIdentifiers := state.seenIdentifiers ∪ (identifiersOf page.items).toFinset
        seenFilenames := state.seenFilenames ∪ (filenamesOf page.items).toFinset
        seenCursors := state.seenCursors ∪ page.nextPage.toList.toFinset
        retainedBytes := retainedBytes
        finished := state.finished || page.nextPage.isNone })

end MacosEnumerationState

/-! ## What is retained -/

def MacosFileProviderItem.retainedSize (item : MacosFileProviderItem) : ℕ :=
  item.identifier.asStr.utf8ByteSize + item.filename.utf8ByteSize

def MacosEnumerationPage.retainedSize (page : MacosEnumerationPage) : ℕ :=
  (page.items.map MacosFileProviderItem.retainedSize).sum +
    (page.nextPage.toList.map fun cursor => cursor.bytes.length).sum

namespace MacosEnumerationState

variable {s : MacosEnumerationState}

lemma itemBytes_eq_ok : ∀ {i : List MacosFileProviderItem} {ab t : ℕ},
    s.itemBytes i ab = .ok t → t = ab + (i.map MacosFileProviderItem.retainedSize).sum ∧
        (∀ ir ∈ identifiersOf i, ir ∉ s.seenIdentifiers) ∧ ∀ f ∈ filenamesOf i, f ∉ s.seenFilenames
  | [], _, _, h => by
    cases h
    simp [identifiersOf, filenamesOf]
  | item :: i, ab, t, h => by
    simp only [itemBytes, bind_eq_ok, refuse_eq_ok, okOr_eq_ok, Option.bind_eq_some_iff,
      checkedAdd_eq_some] at h
    obtain ⟨_, hid, _, hfl, m, ⟨_, ⟨rfl, -⟩, rfl, -⟩, hr⟩ := h
    obtain ⟨ht, hi, hf⟩ := itemBytes_eq_ok hr
    refine ⟨?_, forall_mem_cons.mpr ⟨hid, hi⟩, forall_mem_cons.mpr ⟨hfl, hf⟩⟩
    rw [map_cons, sum_cons, MacosFileProviderItem.retainedSize]
    omega

lemma cursorBytes_eq_ok {c : Option PageCursor} {ab t : ℕ} (h : s.cursorBytes c ab = .ok t) :
    t = ab + (c.toList.map fun c => c.bytes.length).sum ∧ ∀ o ∈ c.toList, o ∉ s.seenCursors := by
  cases c with
  | none =>
    cases h
    simp
  | some c =>
    simp only [cursorBytes, bind_eq_ok, refuse_eq_ok, okOr_eq_ok, checkedAdd_eq_some] at h
    obtain ⟨_, hf, rfl, -⟩ := h
    simp [hf]

/-- **What an accepted page has passed.** -/
theorem retainPage_eq_ok {p : MacosEnumerationPage} {rb : ℕ} (h : s.retainPage p = .ok rb) :
    s.finished = false ∧ s.seenIdentifiers.card + p.items.length ≤ maxEnumerationItems ∧
      (∀ i ∈ identifiersOf p.items, i ∉ s.seenIdentifiers) ∧
      (∀ f ∈ filenamesOf p.items, f ∉ s.seenFilenames) ∧ (∀ c ∈ p.nextPage.toList, c ∉ s.seenCursors) ∧
      rb = s.retainedBytes + p.retainedSize ∧ rb ≤ maxEnumerationStateBytes := by
  simp only [retainPage, bind_eq_ok, refuse_eq_ok, okOr_eq_ok, checkedAdd_eq_some, except_pure,
    Except.ok.injEq] at h
  obtain ⟨_, hu, _, ⟨rfl, -⟩, _, hcn, _, hit, _, hcr, _, ⟨rfl, -⟩, _, hb, rfl⟩ := h
  obtain ⟨ha, hi, hf⟩ := itemBytes_eq_ok hit
  obtain ⟨ha', hc⟩ := cursorBytes_eq_ok hcr
  refine ⟨by simpa using hu, Nat.le_of_not_lt hcn, hi, hf, hc, ?_, Nat.le_of_not_lt hb⟩
  rw [ha', ha, MacosEnumerationPage.retainedSize, Nat.zero_add]

end MacosEnumerationState

/-! ## An enumeration -/

structure MacosEnumeration where
  state : MacosEnumerationState
  accepted : List MacosEnumerationPage

structure BackendPage where
  rootKey : CloudItemKey
  parent : CloudItemKey
  page : CloudItemPage

namespace MacosEnumeration

def start (container : MacosFileProviderIdentifier) : MacosEnumeration := ⟨.new container, []⟩

variable (engine : TextCodec) (enumeration : MacosEnumeration)

def receive (backendPage : BackendPage) : Except MacosBridgeError MacosEnumerationPage × MacosEnumeration :=
  match MacosEnumerationPage.fromBackend engine backendPage.rootKey backendPage.parent backendPage.page with
  | .error error => (.error error, enumeration)
  | .ok page =>
    match enumeration.state.acceptPage page with
    | (.error error, state) => (.error error, ⟨state, enumeration.accepted⟩)
    | (.ok page, state) => (.ok page, ⟨state, enumeration.accepted ++ [page]⟩)

def receiveAll (backendPages : List BackendPage) : MacosEnumeration :=
  backendPages.foldl (fun current backendPage => (current.receive engine backendPage).2) enumeration

def items : List MacosFileProviderItem := enumeration.accepted.flatMap MacosEnumerationPage.items

def cursors : List PageCursor := enumeration.accepted.flatMap fun page => page.nextPage.toList

end MacosEnumeration

/-- **What the state holds is what the accepted pages hold.** -/
structure EnumerationInvariant (enumeration : MacosEnumeration) : Prop where
  identifiers : enumeration.state.seenIdentifiers = (identifiersOf enumeration.items).toFinset
  identifiers_nodup : (identifiersOf enumeration.items).Nodup
  filenames : enumeration.state.seenFilenames = (filenamesOf enumeration.items).toFinset
  filenames_nodup : (filenamesOf enumeration.items).Nodup
  cursors : enumeration.state.seenCursors = enumeration.cursors.toFinset
  cursors_nodup : enumeration.cursors.Nodup
  bytes : enumeration.state.retainedBytes = (enumeration.accepted.map MacosEnumerationPage.retainedSize).sum
  bytes_le : enumeration.state.retainedBytes ≤ maxEnumerationStateBytes
  count_le : enumeration.items.length ≤ maxEnumerationItems
  finished_iff : enumeration.state.finished = true ↔ ∃ page ∈ enumeration.accepted, page.nextPage = none

open MacosEnumeration

open MacosEnumerationState

lemma enumerationInvariant_start (c : MacosFileProviderIdentifier) : EnumerationInvariant (start c) where
  identifiers := rfl
  identifiers_nodup := nodup_nil
  filenames := rfl
  filenames_nodup := nodup_nil
  cursors := rfl
  cursors_nodup := nodup_nil
  bytes := rfl
  bytes_le := Nat.zero_le _
  count_le := Nat.zero_le _
  finished_iff := by simp [start, new]

def MacosEnumeration.accept (enumeration : MacosEnumeration) (page : MacosEnumerationPage)
    (retainedBytes : ℕ) : MacosEnumeration where
  state :=
    { enumeration.state with
      nextPage := page.nextPage
      seenIdentifiers := enumeration.state.seenIdentifiers ∪ (identifiersOf page.items).toFinset
      seenFilenames := enumeration.state.seenFilenames ∪ (filenamesOf page.items).toFinset
      seenCursors := enumeration.state.seenCursors ∪ page.nextPage.toList.toFinset
      retainedBytes := retainedBytes
      finished := enumeration.state.finished || page.nextPage.isNone }
  accepted := enumeration.accepted ++ [page]

/-- **What one page does**: it is rejected and nothing happens, or it is accepted and has passed the checks. -/
theorem MacosEnumeration.receive_cases (eg : TextCodec) (en : MacosEnumeration) (bp : BackendPage) :
    (∃ e, en.receive eg bp = (.error e, en)) ∨ ∃ p rb, en.state.retainPage p = .ok rb ∧
        en.receive eg bp = (.ok p, en.accept p rb) := by
  unfold receive
  cases MacosEnumerationPage.fromBackend eg bp.rootKey bp.parent bp.page with
  | error e => exact .inl ⟨e, rfl⟩
  | ok p =>
    simp only [acceptPage]
    cases hretain : en.state.retainPage p with
    | error e => exact .inl ⟨e, rfl⟩
    | ok rb => exact .inr ⟨p, rb, hretain, rfl⟩

lemma nodup_append_of_fresh {α : Type} [DecidableEq α] {old new : List α} (h : old.Nodup)
    (hn : new.Nodup) (hf : ∀ a ∈ new, a ∉ old.toFinset) : (old ++ new).Nodup := by
  refine nodup_append.mpr ⟨h, hn, fun a ha b hb heq => ?_⟩
  exact hf b hb (mem_toFinset.mpr (heq ▸ ha))

variable (i i' : List MacosFileProviderItem)

lemma identifiersOf_append : identifiersOf (i ++ i') = identifiersOf i ++ identifiersOf i' :=
  map_append

lemma filenamesOf_append : filenamesOf (i ++ i') = filenamesOf i ++ filenamesOf i' :=
  map_append

variable {e : MacosEnumeration}

/-- **An accepted page keeps the invariant.** -/
theorem EnumerationInvariant.accept (h : EnumerationInvariant e) {p : MacosEnumerationPage} {rb : ℕ}
    (hr : e.state.retainPage p = .ok rb) : EnumerationInvariant (e.accept p rb) := by
  obtain ⟨hu, hcn, hi, hf, hc, hb, hl⟩ :=
    retainPage_eq_ok hr
  have hitems : (e.accept p rb).items = e.items ++ p.items := by
    simp [MacosEnumeration.items, MacosEnumeration.accept]
  have hall : (e.accept p rb).cursors = e.cursors ++ p.nextPage.toList := by
    simp [MacosEnumeration.cursors, MacosEnumeration.accept]
  have hcard : e.state.seenIdentifiers.card = e.items.length := by
    rw [h.identifiers, toFinset_card_of_nodup h.identifiers_nodup, identifiersOf, length_map]
  rw [h.identifiers] at hi
  rw [h.filenames] at hf
  rw [h.cursors] at hc
  refine ⟨?_, ?_, ?_, ?_, ?_, ?_, ?_, hl, ?_, ?_⟩
  · rw [hitems, identifiersOf_append, toFinset_append, ← h.identifiers]
    rfl
  · rw [hitems, identifiersOf_append]
    exact nodup_append_of_fresh h.identifiers_nodup p.identifiers_nodup hi
  · rw [hitems, filenamesOf_append, toFinset_append, ← h.filenames]
    rfl
  · rw [hitems, filenamesOf_append]
    exact nodup_append_of_fresh h.filenames_nodup p.filenames_nodup hf
  · rw [hall, toFinset_append, ← h.cursors]
    rfl
  · rw [hall]
    exact nodup_append_of_fresh h.cursors_nodup (by cases p.nextPage <;> simp) hc
  · simp only [MacosEnumeration.accept, map_append, sum_append, map_singleton, sum_singleton, ← h.bytes]
    exact hb
  · rw [hitems, length_append, ← hcard]
    exact hcn
  · have hnone : ¬∃ p ∈ e.accepted, p.nextPage = none := by
      rw [← h.finished_iff, hu]
      exact Bool.false_ne_true
    simp only [MacosEnumeration.accept, hu, Bool.false_or, Option.isNone_iff_eq_none, mem_append,
      mem_singleton]
    constructor
    · intro he
      exact ⟨p, .inr rfl, he⟩
    · rintro ⟨f, hm | rfl, he⟩
      · exact absurd ⟨f, hm, he⟩ hnone
      · exact he

/-- **Every page of the backend keeps the invariant.** -/
theorem EnumerationInvariant.receive (h : EnumerationInvariant e) (en : TextCodec) (bp : BackendPage) :
    EnumerationInvariant (e.receive en bp).2 := by
  obtain ⟨_, heq⟩ | ⟨p, rb, hr, heq⟩ := e.receive_cases en bp
  · rw [heq]
    exact h
  · rw [heq]
    exact h.accept hr

theorem EnumerationInvariant.receiveAll (h : EnumerationInvariant e)
    (en : TextCodec) (bp : List BackendPage) : EnumerationInvariant (e.receiveAll en bp) := by
  induction bp generalizing e with
  | nil => exact h
  | cons b bp ih => exact ih (h.receive en b)

/-! ## After the terminal page -/

lemma MacosEnumeration.receive_finished {en : MacosEnumeration}
    (hf : en.state.finished = true) (eg : TextCodec) (bp : BackendPage) :
    ∃ e, en.receive eg bp = (.error e, en) := by
  obtain hr | ⟨p, rb, hrt, -⟩ := en.receive_cases eg bp
  · exact hr
  · have hunfin := (retainPage_eq_ok hrt).1
    exact absurd (hf.symm.trans hunfin) (by simp)

lemma MacosEnumeration.receiveAll_finished
    (hf : e.state.finished = true) (en : TextCodec) (bp : List BackendPage) : e.receiveAll en bp = e := by
  induction bp with
  | nil => rfl
  | cons b bp ih =>
    obtain ⟨_, heq⟩ := receive_finished hf en b
    rw [receiveAll, foldl_cons, heq]
    exact ih

/-- **An enumeration over every sequence of backend pages.**  The identifiers, the filenames and the cursors of all
accepted pages are unique; the retained bytes are exactly those of the accepted items and cursors, and they and
the number of items stay within their limits; a rejected page leaves the enumeration as it was; and after the
terminal page nothing is accepted or requested. -/
theorem enumeration_accumulates (engine : TextCodec) (container : MacosFileProviderIdentifier)
    (before after : List BackendPage) (backendPage : BackendPage) :
    let enumeration := (start container).receiveAll engine before
    (identifiersOf enumeration.items).Nodup ∧ (filenamesOf enumeration.items).Nodup
      ∧ enumeration.cursors.Nodup
      ∧ enumeration.state.retainedBytes = (enumeration.accepted.map MacosEnumerationPage.retainedSize).sum
      ∧ enumeration.state.retainedBytes ≤ maxEnumerationStateBytes
      ∧ enumeration.items.length ≤ maxEnumerationItems
      ∧ (∀ error, (enumeration.receive engine backendPage).1 = .error error →
          (enumeration.receive engine backendPage).2 = enumeration)
      ∧ ((∃ page ∈ enumeration.accepted, page.nextPage = none) →
          (∃ error, (enumeration.receive engine backendPage).1 = .error error)
            ∧ enumeration.receiveAll engine after = enumeration
            ∧ ∃ error, enumeration.state.request = .error error) := by
  intro enumeration
  have h : EnumerationInvariant enumeration := (enumerationInvariant_start container).receiveAll engine before
  refine ⟨h.identifiers_nodup, h.filenames_nodup, h.cursors_nodup, h.bytes, h.bytes_le, h.count_le,
    fun error he => ?_, fun hl => ?_⟩
  · obtain ⟨_, heq⟩ | ⟨page, retainedBytes, -, heq⟩ := enumeration.receive_cases engine backendPage
    · rw [heq]
    · rw [heq] at he
      cases he
  · have hfin := h.finished_iff.mpr hl
    obtain ⟨error, heq⟩ := receive_finished hfin engine backendPage
    refine ⟨⟨error, by rw [heq]⟩, receiveAll_finished hfin engine after, ?_⟩
    exact ⟨_, if_pos hfin⟩

end AsterForge.MacosBridge
