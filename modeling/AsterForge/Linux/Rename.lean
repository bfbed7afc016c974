import AsterForge.Linux.Transitions

/-!
# Accepting a rename

The store has committed a rename when the engine accepts it.  The acceptance removes the item that
was at the destination, but before that it refuses every destination that a local layer holds under
another inode, the replaced one included.

* `Publishable` — the condition: the accepted inode is the source's, the destination name is bound
  to no other inode by a local layer, and the inode to no other key.
* **`rename_published_iff`** — an acceptance is published, and its destination is the source's
  inode, exactly under the condition.
* **`rename_over_created_file`** — a rename of one created file over another.
-/

namespace AsterForge.Linux

open AsterForge.Core Library

def WritableState.Resolves (state : WritableState) (nameKey : ParentNameKey) (inode : LinuxInode) :
    Prop :=
  ∃ entry, state.overlayAt nameKey = some entry ∧ entry.2.inode = inode

def WritableState.localInode (state : WritableState) (nameKey : ParentNameKey) : Option LinuxInode :=
  (state.namespaceByName.lookup nameKey).or (state.createdByName.lookup nameKey)

namespace LinuxWritableEngine

/-- **The condition.**  The store accepted the source's own inode, the local layers bind the
destination name to that inode or to none, and neither the restored table nor the namespace layer
binds the inode to another key. -/
structure Publishable (engine : LinuxWritableEngine) (state : WritableState)
    (request : LinuxRenameRequest) (acceptance : LinuxRenameAcceptance) (source : LinuxInode) : Prop where
  inode : acceptance.item.inodeRecord.inode = source
  destination : ∀ inode ∈ state.localInode request.newNameKey, inode = source
  restored : ∀ record ∈ engine.table.byInode source, record.key = request.key
  overlay : ∀ item ∈ state.namespaceByInode.lookup source, item.item.key = request.key

variable {engine : LinuxWritableEngine} {backend : CloudFilesBackend} {state state' : WritableState}

/-! ## Lookups -/

lemma lookup_of_overlayAt {p : LinuxInode} {nm : String} {pn n : LinuxNode}
    {e : OverlayEntry} (hn : validateLinuxName nm = .ok ())
    (hp : engine.getattr backend state p none = .ok pn) (hk : pn.kind = .directory)
    (he : state.overlayAt (pn.key.itemId, nm) = some e) (hnd : nodeFromItemAndRecord e.1 e.2 = .ok n) :
    ∃ f, engine.lookup backend state p nm = .ok f ∧ f.inode = n.inode ∧
      f.generation = n.generation ∧ f.kind = n.kind ∧ f.key = n.key := by
  simp only [lookup, hn, hp, hk, he, hnd, ok_bind, ne_eq, not_true_eq_false, not_false_eq_true, refuse_of_not]
  cases state.dirtySnapshots.lookup n.inode with
  | none => exact ⟨n, rfl, rfl, rfl, rfl, rfl⟩
  | some s => exact ⟨_, rfl, rfl, rfl, rfl, rfl⟩

/-! ## What is accepted -/

variable {i : LinuxNamespaceItem}

lemma nodeFromItemAndRecord_of_valid (h : engine.validateNamespaceItem i = .ok ()) :
    ∃ n, nodeFromItemAndRecord i.item i.inodeRecord = .ok n := by
  obtain ⟨hr, hk, -, hn⟩ := validateNamespaceItem_ok h
  refine nodeFromItemAndRecord_eq_ok ?_ hk.symm
  simp [validateItemName, hr, hn]

lemma namespaceConflict_replacing {nk : ParentNameKey} : engine.NamespaceConflict state i nk (some i.item.key) ↔
    (∃ r ∈ engine.table.byInode i.inodeRecord.inode, r.key ≠ i.item.key) ∨
    (∃ e ∈ state.namespaceByInode.lookup i.inodeRecord.inode, e.item.key ≠ i.item.key) ∨
    ∃ ind ∈ state.localInode nk, ind ≠ i.inodeRecord.inode := by
  have hkey : ¬ ∃ e ∈ engine.table.byKey i.item.key, ¬ e.key = i.item.key := by
    rintro ⟨e, he, hne⟩
    exact hne (LinuxInodeTable.mem_of_byKey he).1
  simp only [NamespaceConflict, ne_eq, not_true_eq_false, and_false, false_or, Option.some.injEq,
    eq_comm (a := i.item.key), hkey, WritableState.localInode]

lemma overlayAt_publishRename (s : WritableState) (t : LinuxInodeTable)
    (r : LinuxRenameRequest) (a : LinuxRenameAcceptance) :
    (s.publishRename t r a).overlayAt r.newNameKey = some (a.item.item, a.item.inodeRecord) := by
  simp [WritableState.publishRename, WritableState.overlayAt, WritableState.placeRenamed]

/-- **When a durable rename is published.**  For every state, every rename whose source is found and
every valid acceptance of it: the acceptance succeeds and the destination is the source's inode
exactly under the condition.  What is published is found by every lookup in the destination's
directory. -/
theorem rename_published_iff {parent newParent : LinuxInode} {name newName : LinuxName}
    {noReplace : Bool} {request : LinuxRenameRequest} {acceptance : LinuxRenameAcceptance} {source : LinuxNode}
    (hrequest : engine.renameRequest backend state parent name newParent newName noReplace = .ok request)
    (hsource : engine.lookup backend state parent name.value = .ok source)
    (hvalid : engine.validateRenameAcceptance request acceptance = .ok ()) :
    ((∃ state', engine.acceptRename state request acceptance = .ok state' ∧
        state'.Resolves request.newNameKey source.inode) ↔
      engine.Publishable state request acceptance source.inode) ∧
    ∀ state', engine.acceptRename state request acceptance = .ok state' →
      ∀ backend' directory directoryNode, engine.getattr backend' state' directory none = .ok directoryNode →
      directoryNode.kind = .directory → directoryNode.key.itemId = request.newParentKey.itemId →
        ∃ found, engine.lookup backend' state' directory request.newName.value = .ok found ∧
          found.key = source.key ∧ found.inode = acceptance.item.inodeRecord.inode := by
  obtain ⟨hit, hk, -, hnm, -⟩ := validateRenameAcceptance_ok hvalid
  have hconflict := @namespaceConflict_replacing engine state acceptance.item request.newNameKey
  rw [hk] at hconflict
  constructor
  · constructor
    · rintro ⟨state', ha, en, he, hi⟩
      obtain ⟨-, hf, rfl⟩ := acceptRename_ok.mp ha
      rw [overlayAt_publishRename] at he
      cases he
      rw [hconflict, not_or, not_or] at hf
      obtain ⟨hr, ho, hd⟩ := hf
      rw [hi] at hr ho hd
      simp only [not_exists, not_and, not_not] at hr ho hd
      exact ⟨hi, hd, hr, ho⟩
    · rintro ⟨hi, hd, hr, ho⟩
      have hf : ¬ engine.NamespaceConflict state acceptance.item request.newNameKey (some request.key) := by
        rw [hconflict, hi]
        rintro (⟨r, hrc, hne⟩ | ⟨e, hex, hne⟩ | ⟨inode, hm, hne⟩)
        · exact hne (hr r hrc)
        · exact hne (ho e hex)
        · exact hne (hd inode hm)
      exact ⟨_, acceptRename_ok.mpr ⟨hvalid, hf, rfl⟩, _, overlayAt_publishRename _ _ _ _, hi⟩
  · intro state' ha backend' directory directoryNode hdr hkn hid
    obtain ⟨-, -, rfl⟩ := acceptRename_ok.mp ha
    obtain ⟨n, hn⟩ := nodeFromItemAndRecord_of_valid hit
    obtain ⟨hnk, -, hni, -⟩ := nodeFromItemAndRecord_ok hn
    obtain ⟨_, _, a, _, -, -, -, -, has, -, rfl⟩ := renameRequest_ok hrequest
    cases hsource.symm.trans has
    obtain ⟨found, hfn, hi, -, -, hfk⟩ :=
      lookup_of_overlayAt newName.valid hdr hkn (by rw [hid]; exact overlayAt_publishRename _ _ _ _) hn
    refine ⟨found, hfn, ?_, hi.trans hni⟩
    rw [hfk, hnk, hk]

end LinuxWritableEngine

/-! ## One created file over another -/

section

open SmallMount LinuxWritableEngine

/-- The intent of a rename of `b`. -/
def renameIntent (newName : String) : MutationIntent :=
  intent "rename" (.modifyMetadata (key "b") (some (itemId "root")) (some newName))

/-- The tombstone of a rename of `b` under a name of the root directory. -/
def renameTombstone (id newName : String) [Naming id] : LinuxNamespaceTombstone :=
  ⟨key id, generation, key "root", linuxName id, .file, renameIntent newName⟩

/-- The store's answer to the rename to `c`, where a file is replaced. -/
def renamedOver : LinuxRenameAcceptance where
  item := ⟨file "b" "c", record (key "b") (inode 10), renameIntent "c"⟩
  source := renameTombstone "b" "c"
  replaced := some (renameTombstone "c" "c")

/-- The store's answer to the rename to `d`, where nothing is. -/
def renamedFree : LinuxRenameAcceptance where
  item := ⟨file "b" "d", record (key "b") (inode 10), renameIntent "d"⟩
  source := renameTombstone "b" "d"
  replaced := none

def createTwoFiles : List LinuxOperation :=
  [.createFile (backend []) linuxRootInode "b" .write (.ok (createdAs "b" (inode 10))),
    .createFile (backend []) linuxRootInode "c" .write (.ok (createdAs "c" (inode 11)))]

/-- The request of the rename to `d`. -/
def requestFree : LinuxRenameRequest :=
  ⟨key "b", generation, .file, key "root", linuxName "b", key "root", linuxName "d", none, false, session⟩

/-- The request of the rename to `c`. -/
def requestOver : LinuxRenameRequest :=
  ⟨key "b", generation, .file, key "root", linuxName "b", key "root", linuxName "c",
    some ⟨key "c", generation, .file⟩, false, session⟩

/-- **A durable rename that is not published.**  Two files are created and one is renamed over the
other.  The store replaced the destination with the tombstone it was asked for, the acceptance is
valid, and it is refused. -/
theorem rename_over_created_file : engine.ReachableState (engine.after createTwoFiles) ∧
    engine.renameRequest (backend []) (engine.after createTwoFiles) linuxRootInode
      ⟨"b", by decide⟩ linuxRootInode ⟨"c", by decide⟩ false = .ok requestOver ∧
    engine.lookup (backend []) (engine.after createTwoFiles) linuxRootInode "b" =
      .ok ⟨key "b", generation, inode 10, 0, .file⟩ ∧
    engine.validateRenameAcceptance requestOver renamedOver = .ok () ∧
    renamedOver.item.inodeRecord.inode = inode 10 ∧
    ¬ ∃ state', engine.acceptRename (engine.after createTwoFiles) requestOver renamedOver = .ok state' := by
  refine ⟨reachableState_after _, by decide, by decide, by decide, rfl, ?_⟩
  rintro ⟨state', ha⟩
  obtain ⟨-, hf, -⟩ := acceptRename_ok.mp ha
  exact hf (by decide)

/-- A rename to a free name is published. -/
theorem rename_published_iff_free :
    (∃ state', engine.acceptRename (engine.after createTwoFiles) requestFree renamedFree = .ok state' ∧
      state'.Resolves requestFree.newNameKey (inode 10)) ∧
    engine.Publishable (engine.after createTwoFiles) requestFree renamedFree (inode 10) := by
  have hpublishable : engine.Publishable (engine.after createTwoFiles) requestFree renamedFree (inode 10) :=
    ⟨rfl, by decide, by decide, by decide⟩
  have hreq : engine.renameRequest (backend []) (engine.after createTwoFiles) linuxRootInode
      ⟨"b", by decide⟩ linuxRootInode ⟨"d", by decide⟩ false = .ok requestFree := by decide
  have hsrc : engine.lookup (backend []) (engine.after createTwoFiles) linuxRootInode "b" =
      .ok ⟨key "b", generation, inode 10, 0, .file⟩ := by decide
  have hvalid : engine.validateRenameAcceptance requestFree renamedFree = .ok () := by decide
  obtain ⟨hi, -⟩ := rename_published_iff hreq hsrc hvalid
  exact ⟨hi.mpr hpublishable, hpublishable⟩

end

end AsterForge.Linux
