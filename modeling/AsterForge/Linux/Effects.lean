import AsterForge.Linux.Transitions

/-!
# What one operation does to the overlay

An operation either leaves the overlay as it is or makes one of nine updates, each behind its checks.
Invariants of the overlay are proved by cases on these effects.

* **`effect_perform`** — every operation has one.
-/

namespace AsterForge.Linux

open AsterForge.Core Library

namespace LinuxWritableEngine

inductive Effect (engine : LinuxWritableEngine) (state : WritableState) :
    LinuxOperation → Except LinuxCloudFilesError Unit → WritableState → Prop
  /-- Failures, handles and dirty snapshots leave the overlay as it is. -/
  | kept (operation : LinuxOperation) (answer : Except LinuxCloudFilesError Unit) (next : ℕ)
      (files : AList fun _ : LinuxFileHandle => OpenFile)
      (directories : AList fun _ : LinuxDirectoryHandle => LinuxDirectorySnapshot)
      (dirtySnapshots : AList fun _ : LinuxInode => LocalContentSnapshot) :
      Effect engine state operation answer { state with next, files, directories, dirtySnapshots }
  | itemRestored {item : LinuxNamespaceItem} {parentId : CloudItemId}
      (hvalid : engine.validateNamespaceItem item = .ok ()) (hparent : item.item.parentId = some parentId)
      (hfree : ¬ engine.NamespaceConflict state item (parentId, item.item.name) none) :
      Effect engine state (.restoreNamespaceItem item) (.ok ())
        (state.insertNamespaceItem item (parentId, item.item.name))
  | tombstoneRestored {tombstone : LinuxNamespaceTombstone} {deletedKeys : Finset CloudItemKey}
      (hdeleted : state.deletedKeys ⊆ deletedKeys) :
      Effect engine state (.restoreTombstone tombstone) (.ok ())
        { state with
          deletedKeys
          tombstonesByName := state.tombstonesByName.insert tombstone.nameKey tombstone }
  | fileRestored {backend : CloudFilesBackend} {created : LinuxCreatedFile} {parentId : CloudItemId}
      (hvalid : engine.validateCreatedFile created none = .ok ())
      (hparent : created.item.parentId = some parentId)
      (hfree : engine.ensureCreatedFileIsUnique state created (recoveredName state created parentId) =
        .ok ()) :
      Effect engine state (.restoreCreatedFile backend created) (.ok ())
        (state.insertCreated created (recoveredName state created parentId))
  | upserted {backend : CloudFilesBackend} {upsert : LinuxRemoteUpsert} {nameKey : ParentNameKey}
      {invalidations : List LinuxInvalidation}
      (hprepared : engine.prepareRemoteUpsert backend state upsert = .ok (nameKey, invalidations)) :
      Effect engine state (.remoteChange backend (.upsert upsert)) (.ok ())
        (state.publishUpsert upsert nameKey)
  | deleted {backend : CloudFilesBackend} {deleted : LinuxRemoteDelete}
      {invalidations : List LinuxInvalidation}
      (hprepared : engine.prepareRemoteDelete backend state deleted = .ok invalidations) :
      Effect engine state (.remoteChange backend (.delete deleted)) (.ok ()) (state.publishDelete deleted)
  | fileCreated {backend : CloudFilesBackend} {parent : LinuxInode} {name : String}
      {access : LinuxFileAccess} {parentNode : LinuxNode} {acceptance : LinuxCreateFileAcceptance}
      {request : LinuxCreateFileRequest} (next : ℕ) (files : AList fun _ : LinuxFileHandle => OpenFile)
      (hparent : engine.getattr backend state parent none = .ok parentNode)
      (hkey : request.parentKey = parentNode.key) (hname : request.name.value = name)
      (hvalid : engine.validateCreatedFile acceptance.created (some request) = .ok ())
      (hfree : engine.ensureCreatedFileIsUnique state acceptance.created request.nameKey = .ok ()) :
      Effect engine state (.createFile backend parent name access (.ok acceptance)) (.ok ())
        { (state.uncover request.nameKey).insertCreated acceptance.created request.nameKey with
          next, files }
  | directoryCreated {backend : CloudFilesBackend} {parent : LinuxInode} {name : String}
      {parentNode : LinuxNode} {item : LinuxNamespaceItem} {request : LinuxCreateDirectoryRequest}
      (hparent : engine.getattr backend state parent none = .ok parentNode)
      (hkey : request.parentKey = parentNode.key) (hname : request.name.value = name)
      (hvalid : engine.validateNamespaceCreate request item = .ok ())
      (hfree : ¬ engine.NamespaceConflict state item request.nameKey none) :
      Effect engine state (.createDirectory backend parent name (.ok item)) (.ok ())
        ((state.uncover request.nameKey).insertNamespaceItem item request.nameKey)
  | renamed {backend : CloudFilesBackend} {parent newParent : LinuxInode} {old new : LinuxName}
      {noReplace : Bool} {request : LinuxRenameRequest} {acceptance : LinuxRenameAcceptance}
      (hmoved : ¬ (parent = newParent ∧ old = new))
      (hrequest : engine.renameRequest backend state parent old newParent new noReplace = .ok request)
      (hvalid : engine.validateRenameAcceptance request acceptance = .ok ())
      (hfree : ¬ engine.NamespaceConflict state acceptance.item request.newNameKey (some request.key)) :
      Effect engine state
        (.rename backend parent old.value newParent new.value noReplace (.ok acceptance)) (.ok ())
        (state.publishRename engine.table request acceptance)
  | removed {backend : CloudFilesBackend} {parent : LinuxInode} {name : String}
      {expectedKind : LinuxNodeKind} {parentNode child : LinuxNode} {request : LinuxRemoveRequest}
      {tombstone : LinuxNamespaceTombstone}
      (hparent : engine.getattr backend state parent none = .ok parentNode)
      (hchild : engine.lookup backend state parent name = .ok child)
      (hkey : request.key = child.key) (hparentKey : request.parentKey = parentNode.key)
      (hname : request.name.value = name) (hvalid : validateRemoveAcceptance request tombstone = .ok ()) :
      Effect engine state (.remove backend parent name expectedKind (.ok tombstone)) (.ok ())
        (state.publishRemove request tombstone)

variable {en : LinuxWritableEngine} {st : WritableState} (o : LinuxOperation)

lemma Effect.unchanged (a : Except LinuxCloudFilesError Unit) : en.Effect st o a st :=
  .kept o a st.next st.files st.directories st.dirtySnapshots

lemma Effect.of_settle {α : Type} {o : LinuxOperation} {f : α → WritableState}
    {r : Except LinuxCloudFilesError α} (h : ∀ v, r = .ok v → en.Effect st o (.ok ()) (f v)) :
    en.Effect st o (settle st f r).1 (settle st f r).2 := by
  cases r with
  | error e => exact .unchanged o _
  | ok v => exact h v rfl

variable (b : CloudFilesBackend)

lemma effect_remoteChange (change : LinuxRemoteChange) :
    en.Effect st (.remoteChange b change) (en.perform st (.remoteChange b change)).1
      (en.perform st (.remoteChange b change)).2 := by
  cases change with
  | upsert u =>
    simp only [perform, applyRemoteChange, applyRemoteUpsert]
    split
    · exact .unchanged _ _
    · rename_i hprep
      exact .upserted hprep
  | delete d =>
    simp only [perform, applyRemoteChange, applyRemoteDelete]
    split
    · exact .unchanged _ _
    · rename_i hprep
      exact .deleted hprep

lemma effect_createFile (p : LinuxInode) (n : String)
    (acc : LinuxFileAccess) (a : StoreAnswer LinuxCreateFileAcceptance) :
    en.Effect st (.createFile b p n acc a) (en.perform st (.createFile b p n acc a)).1
      (en.perform st (.createFile b p n acc a)).2 := by
  cases hres : en.createFile b st p n acc a with
  | mk r s' =>
    simp only [perform, hres]
    cases r with
    | error e =>
      obtain ⟨next, rfl⟩ := createFile_error hres
      exact .kept _ _ next st.files st.directories st.dirtySnapshots
    | ok m =>
      obtain ⟨pn, acceptance, rq, next, hp, -, rfl, hk, hn, ha⟩ :=
        createFile_ok hres
      obtain ⟨hv, -, hf, rfl⟩ := acceptCreatedFile_ok ha
      exact .fileCreated next _ hp hk hn hv hf

/-- **Every operation has an effect.** -/
theorem effect_perform : en.Effect st o (en.perform st o).1 (en.perform st o).2 := by
  cases o with
  | restoreNamespaceItem it =>
    refine .of_settle fun s' h => ?_
    obtain ⟨pr, hv, hp, hf, rfl⟩ := restoreNamespaceItem_ok h
    exact .itemRestored hv hp hf
  | restoreTombstone t =>
    refine .of_settle fun s' h => ?_
    obtain ⟨dk, hd, rfl⟩ := restoreTombstone_ok h
    refine .tombstoneRestored ?_
    rcases hd with rfl | rfl
    · exact subset_rfl
    · exact Finset.subset_insert _ _
  | restoreCreatedFile b c =>
    refine .of_settle fun s' h => ?_
    obtain ⟨pr, hv, hp, hf, rfl⟩ := restoreCreatedFile_ok h
    exact .fileRestored hv hp hf
  | restoreDirtySnapshot sn =>
    refine .of_settle fun s' h => ?_
    obtain ⟨i, -, rfl⟩ := restoreDirtySnapshot_ok h
    exact .kept _ _ st.next st.files st.directories _
  | remoteChange b change => exact effect_remoteChange b change
  | createFile b p n acc a =>
    exact effect_createFile b p n acc a
  | createDirectory b p n a =>
    refine .of_settle fun m h => ?_
    obtain ⟨pn, it, r, hp, -, rfl, hk, hn, ha⟩ :=
      createDirectory_ok h
    obtain ⟨hv, -, hf, hs⟩ := acceptNamespaceCreate_ok ha
    rw [hs]
    exact .directoryCreated hp hk hn hv hf
  | rename b p n np nn nr a =>
    refine .of_settle fun s' h => ?_
    rcases rename_ok h with ⟨-, -, rfl⟩ | ⟨old, new, r, acceptance, rfl, rfl, hmoved, hreq, rfl, ha⟩
    · exact .unchanged _ _
    · obtain ⟨hv, hf, rfl⟩ := acceptRename_ok.mp ha
      exact .renamed hmoved hreq hv hf
  | remove b p n ek a =>
    refine .of_settle fun s' h => ?_
    obtain ⟨pn, child, r, t, hp, -, hchild, hk, hparentKey, hn, rfl, hv, rfl⟩ := remove_ok h
    exact .removed hp hchild hk hparentKey hn hv
  | openDirectory b i =>
    refine .of_settle fun op h => ?_
    obtain ⟨sn, next, -, hs⟩ := openDirectory_ok h
    rw [hs]
    exact .kept _ _ next st.files _ st.dirtySnapshots
  | releaseDirectory hl =>
    refine .of_settle fun s' h => ?_
    simp only [WritableState.releaseDirectory, bind_eq_ok, exists_unit, refuse_eq_ok,
      except_pure, Except.ok.injEq] at h
    obtain ⟨-, rfl⟩ := h
    exact .kept _ _ st.next st.files _ st.dirtySnapshots

lemma exists_effect_of_step {o : LinuxOperation} {s' : WritableState}
    (h : en.Step st o s') : ∃ a, en.Effect st o a s' :=
  ⟨_, h ▸ effect_perform o⟩

end LinuxWritableEngine

end AsterForge.Linux
