import AsterForge.Linux.DirectoryListing
/-!
# Names that were removed or renamed away
A removal and a rename leave a tombstone at the old name and take the name out of the namespace and
the created index.  The remote index keeps it.
* **`hidden_until_placed`** — it stays hidden in every run that places nothing there.
* **`removed_remote_file`** — a removed file that came from a remote change.
-/
namespace AsterForge.Linux
open AsterForge.Core Library AList
/-- Nothing of the overlay is at a name, and a tombstone keeps the backend's child from it. -/
structure WritableState.Hides (state : WritableState) (nameKey : ParentNameKey) : Prop where
  tombstoned : state.Tombstoned nameKey
  namespaceFree : state.namespaceByName.lookup nameKey = none
  createdFree : state.createdByName.lookup nameKey = none
  remoteFree : state.remoteByName.lookup nameKey = none
namespace LinuxWritableEngine
variable {engine : LinuxWritableEngine} {backend : CloudFilesBackend} {state : WritableState}
  {nameKey : ParentNameKey}
/-! ## What is hidden -/
lemma Hides.overlayAt (h : state.Hides nameKey) : state.overlayAt nameKey = none := by
  simp [WritableState.overlayAt, h.namespaceFree, h.createdFree, h.remoteFree]
lemma Hides.lookup (h : state.Hides nameKey) (hn : validateLinuxName nameKey.2 = .ok ())
    {d : LinuxInode} {n : LinuxNode} (hnd : engine.getattr backend state d none = .ok n) (hk : n.kind = .directory)
    (hid : n.key.itemId = nameKey.1) :
    engine.lookup backend state d nameKey.2 = .error (.unknownInode d.value) := by
  have hentry : state.overlayAt (n.key.itemId, nameKey.2) = none := by
    rw [hid]
    exact Hides.overlayAt h
  have htomb : state.Tombstoned (n.key.itemId, nameKey.2) := by
    rw [hid]
    exact h.tombstoned
  simp [LinuxWritableEngine.lookup, hn, hnd, hk, hentry, htomb, ok_bind, except_error_bind, refuse_of_not]
lemma Hides.notListed (h : state.Hides nameKey) {d : LinuxInode} {n : LinuxNode} {s : LinuxDirectorySnapshot}
    (hn : engine.getattr backend state d none = .ok n) (hid : n.key.itemId = nameKey.1)
    (hsn : engine.captureDirectory backend state d = .ok s) : ∀ e ∈ s.entries, e.name ≠ nameKey.2 := by
  rintro e he hnm
  obtain ⟨n', c, hn', -, hc, hl, -, -⟩ := captureDirectory_spec hsn
  cases hn.symm.trans hn'
  obtain ⟨sh, -, hs, -⟩ := (hl e).mp he
  rw [hid, hnm] at hs
  rcases (shownAt_eq_some (loadChildrenForOverlay_spec hc)).mp hs with
    hover | ⟨-, htomb, -⟩
  · cases (Hides.overlayAt h).symm.trans hover
  · exact htomb h.tombstoned
/-! ## Placing and vacating -/
def NamedBy (engine : LinuxWritableEngine) (backend : CloudFilesBackend) (state : WritableState)
    (parent : LinuxInode) (name : String) (nameKey : ParentNameKey) : Prop :=
  ∃ node, engine.getattr backend state parent none = .ok node ∧ nameKey = (node.key.itemId, name)
def PlacesAt (engine : LinuxWritableEngine) (state : WritableState) (nameKey : ParentNameKey) :
    LinuxOperation → Prop
  | .restoreNamespaceItem item =>
    ∃ parentId, item.item.parentId = some parentId ∧ nameKey = (parentId, item.item.name)
  | .restoreCreatedFile _ created =>
    ∃ parentId, created.item.parentId = some parentId ∧ nameKey = recoveredName state created parentId
  | .remoteChange _ (.upsert upsert) =>
    ∃ parentId, upsert.entry.item.parentId = some parentId ∧ nameKey = (parentId, upsert.entry.item.name)
  | .createFile backend parent name _ _ => engine.NamedBy backend state parent name nameKey
  | .createDirectory backend parent name _ => engine.NamedBy backend state parent name nameKey
  | .rename backend parent name newParent newName _ _ =>
    ¬ (parent = newParent ∧ name = newName) ∧ engine.NamedBy backend state newParent newName nameKey
  | _ => False
/-- The name that a removal or a rename, if it succeeds, takes an item away from. -/
def VacatesAt (engine : LinuxWritableEngine) (state : WritableState) (nameKey : ParentNameKey) :
    LinuxOperation → Prop
  | .remove backend parent name _ _ => engine.NamedBy backend state parent name nameKey
  | .rename backend parent name newParent newName _ _ =>
    ¬ (parent = newParent ∧ name = newName) ∧ engine.NamedBy backend state parent name nameKey ∧
      ¬ engine.NamedBy backend state newParent newName nameKey
  | _ => False
lemma placesAt_newNameKey {p np : LinuxInode} {old new : LinuxName} {nr : Bool}
    {r : LinuxRenameRequest} (a : StoreAnswer LinuxRenameAcceptance) (hm : ¬ (p = np ∧ old = new))
    (hr : engine.renameRequest backend state p old np new nr = .ok r) :
    engine.PlacesAt state r.newNameKey (.rename backend p old.value np new.value nr a) := by
  obtain ⟨_, npn, _, _, -, hnp, -, -, -, -, rfl⟩ := renameRequest_ok hr
  refine ⟨?_, npn, hnp, rfl⟩
  rintro ⟨hp, hn⟩
  refine hm ⟨hp, ?_⟩
  cases new
  cases hn
  rfl
def LeavesAlone (engine : LinuxWritableEngine) (nameKey : ParentNameKey) (state : WritableState)
    (operation : LinuxOperation) (state' : WritableState) : Prop :=
  engine.Step state operation state' ∧
    ¬ ((engine.perform state operation).1 = .ok () ∧ engine.PlacesAt state nameKey operation)
/-! ## Hiding -/
namespace Hides
/-! Taking something away from an index, and another tombstone, keep a name hidden; placing something
keeps it hidden where it is placed elsewhere. -/
lemma leaveRemoteName (h : state.Hides nameKey) (l : LinuxRemoteLocation) :
    (state.leaveRemoteName l).Hides nameKey where
  tombstoned := h.tombstoned.imp_right fun hm => (mem_insert _).mpr (.inr hm)
  __ := h
  remoteFree := by
    unfold WritableState.leaveRemoteName
    rw [lookup_erase_eq, h.remoteFree, ite_self]
lemma replaceRemote (h : state.Hides nameKey) (r : LinuxRemoteDelete) : (state.replaceRemote r).Hides nameKey where
  tombstoned := h.tombstoned.imp_right fun hm => (mem_insert _).mpr (.inr hm)
  __ := h
  remoteFree := by
    unfold WritableState.replaceRemote
    rw [lookup_erase_eq, h.remoteFree, ite_self]
variable {p : ParentNameKey}
lemma placeRemote (h : state.Hides nameKey) (e : LinuxRemoteEntry)
    (hne : nameKey ≠ p) : (state.placeRemote e p).Hides nameKey where
  tombstoned := h.tombstoned.imp_right fun hm => mem_erase.mpr ⟨hne, hm⟩
  __ := h
  remoteFree := by
    unfold WritableState.placeRemote
    rw [lookup_insert_eq, if_neg hne, h.remoteFree]
lemma publishUpsert (h : state.Hides nameKey) (u : LinuxRemoteUpsert)
    (hne : nameKey ≠ p) : (state.publishUpsert u p).Hides nameKey := by
  unfold WritableState.publishUpsert
  cases u.previous with
  | some l =>
    have hleft := leaveRemoteName h l
    dsimp only
    split
    · exact placeRemote (replaceRemote hleft _) _ hne
    · exact placeRemote hleft _ hne
  | none =>
    dsimp only
    split
    · exact placeRemote (replaceRemote h _) _ hne
    · exact placeRemote h _ hne
lemma publishDelete (h : state.Hides nameKey) (d : LinuxRemoteDelete) : (state.publishDelete d).Hides nameKey where
  tombstoned := h.tombstoned.imp_right fun hm => (mem_insert _).mpr (.inr hm)
  __ := h
  remoteFree := by
    unfold WritableState.publishDelete
    rw [lookup_erase_eq, h.remoteFree, ite_self]
lemma uncover (h : state.Hides nameKey) (hne : nameKey ≠ p) : (state.uncover p).Hides nameKey where
  tombstoned := h.tombstoned.imp (fun hm => mem_erase.mpr ⟨hne, hm⟩) fun hm => mem_erase.mpr ⟨hne, hm⟩
  __ := h
lemma insertCreated (h : state.Hides nameKey) (c : LinuxCreatedFile)
    (hne : nameKey ≠ p) : (state.insertCreated c p).Hides nameKey where
  __ := h
  createdFree := by
    unfold WritableState.insertCreated
    rw [lookup_insert_eq, if_neg hne, h.createdFree]
lemma insertNamespaceItem (h : state.Hides nameKey) (i : LinuxNamespaceItem) (hne : nameKey ≠ p) :
    (state.insertNamespaceItem i p).Hides nameKey where
  __ := h
  namespaceFree := by
    unfold WritableState.insertNamespaceItem
    rw [lookup_insert_eq, if_neg hne, h.namespaceFree]
lemma leaveName_self (hr : state.remoteByName.lookup nameKey = none)
    (t : LinuxNamespaceTombstone) : (state.leaveName nameKey t).Hides nameKey where
  tombstoned := .inl ((mem_insert _).mpr (.inl rfl))
  namespaceFree := lookup_erase _ _
  createdFree := lookup_erase _ _
  remoteFree := hr
lemma leaveName (h : state.Hides nameKey) (left : ParentNameKey)
    (t : LinuxNamespaceTombstone) : (state.leaveName left t).Hides nameKey where
  tombstoned := h.tombstoned.imp_left fun hm => (mem_insert _).mpr (.inr hm)
  namespaceFree := by
    unfold WritableState.leaveName
    rw [lookup_erase_eq, h.namespaceFree, ite_self]
  createdFree := by
    unfold WritableState.leaveName
    rw [lookup_erase_eq, h.createdFree, ite_self]
  remoteFree := h.remoteFree
lemma replaceDestination (h : state.Hides nameKey) (t : LinuxInodeTable) (r : LinuxNamespaceTombstone) :
    (state.replaceDestination t r).Hides nameKey where
  tombstoned := h.tombstoned.imp_left fun hm => (mem_insert _).mpr (.inr hm)
  __ := h
  createdFree := by
    unfold WritableState.replaceDestination
    dsimp only
    split
    · rw [lookup_erase_eq, h.createdFree, ite_self]
    · exact h.createdFree
lemma placeRenamed (h : state.Hides nameKey) (key : CloudItemKey) (i : LinuxNamespaceItem)
    (hne : nameKey ≠ p) : (state.placeRenamed key p i).Hides nameKey where
  tombstoned := h.tombstoned.imp (fun hm => mem_erase.mpr ⟨hne, hm⟩) fun hm => mem_erase.mpr ⟨hne, hm⟩
  namespaceFree := by
    unfold WritableState.placeRenamed
    rw [lookup_insert_eq, if_neg hne, h.namespaceFree]
  createdFree := by
    unfold WritableState.placeRenamed
    split
    · rw [lookup_insert_eq, if_neg hne, h.createdFree]
    · exact h.createdFree
  remoteFree := h.remoteFree
lemma publishRename {t : LinuxInodeTable} {r : LinuxRenameRequest} {a : LinuxRenameAcceptance}
    (h : (state.leaveName r.oldNameKey a.source).Hides nameKey) (hne : nameKey ≠ r.newNameKey) :
    (state.publishRename t r a).Hides nameKey := by
  unfold WritableState.publishRename
  split
  · exact placeRenamed (replaceDestination h _ _) _ _ hne
  · exact placeRenamed h _ _ hne
lemma publishRemove (h : state.Hides nameKey) (r : LinuxRemoveRequest)
    (t : LinuxNamespaceTombstone) : (state.publishRemove r t).Hides nameKey where
  tombstoned := h.tombstoned.imp_left fun hm => (mem_insert _).mpr (.inr hm)
  namespaceFree := by
    unfold WritableState.publishRemove
    rw [lookup_erase_eq, h.namespaceFree, ite_self]
  createdFree := by
    unfold WritableState.publishRemove
    rw [lookup_erase_eq, h.createdFree, ite_self]
  remoteFree := h.remoteFree
lemma publishRemove_self {r : LinuxRemoveRequest} (hr : state.remoteByName.lookup r.nameKey = none)
    (t : LinuxNamespaceTombstone) : (state.publishRemove r t).Hides r.nameKey where
  tombstoned := .inl ((mem_insert _).mpr (.inl rfl))
  namespaceFree := lookup_erase _ _
  createdFree := lookup_erase _ _
  remoteFree := hr
/-- **One operation keeps a name hidden** unless it places something there. -/
theorem effect (h : state.Hides nameKey) {o : LinuxOperation}
    {an : Except LinuxCloudFilesError Unit} {s' : WritableState} (he : engine.Effect state o an s')
    (hp : an = .ok () → ¬ engine.PlacesAt state nameKey o) : s'.Hides nameKey := by
  cases he with
  | kept => exact { h with }
  | itemRestored _ hpr _ =>
    exact insertNamespaceItem h _ fun heq => hp rfl ⟨_, hpr, heq⟩
  | tombstoneRestored =>
    exact ⟨h.tombstoned.imp_left fun hmm => (mem_insert _).mpr (.inr hmm),
      h.namespaceFree, h.createdFree, h.remoteFree⟩
  | fileRestored _ hpr _ => exact insertCreated h _ fun heq => hp rfl ⟨_, hpr, heq⟩
  | upserted hpp =>
    obtain ⟨p, -, -, hpr, rfl, -⟩ := prepareRemoteUpsert_ok hpp
    exact publishUpsert h _ fun heq => hp rfl ⟨p, hpr, heq⟩
  | deleted => exact publishDelete h _
  | @fileCreated _ _ _ _ _ a r _ _ hpr hk hn _ _ =>
    have hne : nameKey ≠ r.nameKey := by
      rintro rfl
      refine hp rfl ⟨_, hpr, ?_⟩
      rw [LinuxCreateFileRequest.nameKey, hk, hn]
    have hins := insertCreated (uncover h hne) a.created hne
    exact { hins with }
  | @directoryCreated _ _ _ _ i r hpr hk hn _ _ =>
    have hne : nameKey ≠ r.nameKey := by
      rintro rfl
      refine hp rfl ⟨_, hpr, ?_⟩
      rw [LinuxCreateDirectoryRequest.nameKey, hk, hn]
    exact insertNamespaceItem (uncover h hne) i hne
  | renamed hm hr _ _ =>
    refine publishRename (leaveName h _ _) ?_
    rintro rfl
    exact hp rfl (placesAt_newNameKey _ hm hr)
  | removed => exact publishRemove h _ _
/-- **A run keeps a name hidden** as long as it places nothing there. -/
theorem run (h : state.Hides nameKey) {o : List LinuxOperation} {st' : WritableState}
    (hr : Run (engine.LeavesAlone nameKey) state o st') : st'.Hides nameKey := by
  refine hr.invariant (I := fun s => s.Hides nameKey) ?_ h
  rintro s op t hs ⟨rfl, hl⟩
  exact effect hs (effect_perform op) fun hok hp => hl ⟨hok, hp⟩
end Hides
lemma exists_of_settle_ok {α : Type} {f : α → WritableState} {r : Except LinuxCloudFilesError α}
    (h : (settle state f r).1 = .ok ()) : ∃ v, r = .ok v ∧ (settle state f r).2 = f v := by
  cases r with
  | error e => cases h
  | ok v => exact ⟨v, rfl, rfl⟩
/-- **What a removal or a rename hides**, if the remote index does not have the name. -/
theorem hides_of_vacated {o : LinuxOperation} (hv : engine.VacatesAt state nameKey o)
    (hok : (engine.perform state o).1 = .ok ()) (hr : state.remoteByName.lookup nameKey = none) :
    (engine.perform state o).2.Hides nameKey ∧ validateLinuxName nameKey.2 = .ok () := by
  cases o with
  | remove backend p nm ek a =>
    obtain ⟨n, hnd, rfl⟩ := hv
    obtain ⟨s', hrm, hs⟩ := exists_of_settle_ok hok
    obtain ⟨pn, c, r, t, hp, -, -, -, hk, rfl, -, -, rfl⟩ :=
      remove_ok hrm
    cases hnd.symm.trans hp
    have hn : (n.key.itemId, r.name.value) = r.nameKey := by
      rw [LinuxRemoveRequest.nameKey, hk]
    rw [hn] at hr ⊢
    exact ⟨hs ▸ Hides.publishRemove_self hr t, r.name.valid⟩
  | rename backend p nm np nn nr a =>
    obtain ⟨hm, ⟨n, hnd, rfl⟩, ha⟩ := hv
    obtain ⟨s', hrn, hs⟩ := exists_of_settle_ok hok
    rcases rename_ok hrn with ⟨hp, hn, -⟩ | ⟨old, new, r, acceptance, rfl, rfl, hnames, hreq, -, hacc⟩
    · exact absurd ⟨hp, hn⟩ hm
    obtain ⟨-, -, rfl⟩ := acceptRename_ok.mp hacc
    have hplac := placesAt_newNameKey a hnames hreq
    obtain ⟨opn, npn, _, _, hp, hnp, -, -, -, -, rfl⟩ :=
      renameRequest_ok hreq
    cases hnd.symm.trans hp
    refine ⟨hs ▸ Hides.publishRename (Hides.leaveName_self hr _) ?_, old.valid⟩
    intro heq
    exact ha (heq ▸ hplac.2)
  | _ => exact hv.elim
/-- **Vacated names stay hidden.**  Whenever a removal or a rename away from a name succeeds and the
remote index does not have the name, then after every later run in which no operation places an item
there the name is not found by any lookup in its directory and not listed by any snapshot of it. -/
theorem hidden_until_placed {operation : LinuxOperation} (hvacates : engine.VacatesAt state nameKey operation)
    (hok : (engine.perform state operation).1 = .ok ())
    (hremote : state.remoteByName.lookup nameKey = none) {operations : List LinuxOperation}
    {state' : WritableState}
    (hrun : Run (engine.LeavesAlone nameKey) (engine.perform state operation).2 operations state') :
    ∀ backend directory node, engine.getattr backend state' directory none = .ok node →
      node.kind = .directory → node.key.itemId = nameKey.1 →
      (∃ error, engine.lookup backend state' directory nameKey.2 = .error error ∧
        error.errorCode = .notFound) ∧
      ∀ handle opened snapshot, engine.openDirectory backend state' directory = .ok (handle, opened) →
        opened.directorySnapshot directory handle = .ok snapshot →
        ∀ entry ∈ snapshot.entries, entry.name ≠ nameKey.2 := by
  obtain ⟨hv, hnm⟩ := hides_of_vacated hvacates hok hremote
  have hhides := Hides.run hv hrun
  intro backend directory node hn hk hid
  refine ⟨⟨_, Hides.lookup hhides hnm hn hk hid, rfl⟩, ?_⟩
  intro handle opened snapshot ho hs
  exact Hides.notListed hhides hn hid (opened_snapshot ho hs).1
end LinuxWritableEngine
/-! ## A removed file that came from a remote change -/
section
open SmallMount LinuxWritableEngine
def remoteFile (id : String) [ChildNaming id] (inode : LinuxInode) : LinuxOperation :=
  .remoteChange (backend []) (.upsert ⟨⟨file id id, record (key id) inode⟩, none, none⟩)
def removeFile (children : List CloudItem) (id : String) [Naming id] : LinuxOperation :=
  .remove (backend children) linuxRootInode id .file (.ok ⟨key id, generation, key "root",
    linuxName id, .file, intent "remove" (.delete (key id))⟩)
/-- **A removed file that is still there.**  The file came from a remote change, its removal succeeds,
and a lookup finds it as before. -/
theorem removed_remote_file : engine.ReachableState (engine.after [remoteFile "b" (inode 10)]) ∧
    engine.VacatesAt (engine.after [remoteFile "b" (inode 10)]) (itemId "root", "b")
      (removeFile [] "b") ∧
    (engine.perform (engine.after [remoteFile "b" (inode 10)]) (removeFile [] "b")).1 = .ok () ∧
    engine.lookup (backend []) (engine.after [remoteFile "b" (inode 10), removeFile [] "b"])
      linuxRootInode "b" = .ok ⟨key "b", generation, inode 10, 0, .file⟩ :=
  ⟨reachableState_after _,
    ⟨⟨key "root", generation, linuxRootInode, 0, .directory⟩, by decide, rfl⟩, by decide, by decide⟩
/-- The restored file is removed, and no lookup finds it. -/
theorem hidden_until_placed_restored : ∃ error, engine.lookup (backend [file "a" "a"])
      (engine.perform (engine.after []) (removeFile [file "a" "a"] "a")).2 linuxRootInode "a" =
    .error error ∧ error.errorCode = .notFound := by
  have hroot : engine.getattr (backend [file "a" "a"]) (engine.after []) linuxRootInode none =
      .ok ⟨key "root", generation, linuxRootInode, 0, .directory⟩ := by decide
  have hvacates : engine.VacatesAt (engine.after []) (itemId "root", "a")
      (removeFile [file "a" "a"] "a") := ⟨_, hroot, rfl⟩
  have hok : (engine.perform (engine.after []) (removeFile [file "a" "a"] "a")).1 = .ok () := by
    decide
  exact (hidden_until_placed hvacates hok rfl (.nil _) (backend [file "a" "a"]) linuxRootInode
    ⟨key "root", generation, linuxRootInode, 0, .directory⟩ (by decide) rfl rfl).1
end
end AsterForge.Linux
