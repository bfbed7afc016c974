import AsterForge.Linux.Operations

/-!
# What the operations do

For every operation, what its success says: the checks that passed, and the update that was made.
Proofs about runs take a step apart with these lemmas and never look into an operation again.
-/

namespace AsterForge.Linux

open AsterForge.Core Library Option Except

namespace LinuxWritableEngine

variable {en : LinuxWritableEngine} {b : CloudFilesBackend} {st s' : WritableState}

/-! ## Answers of the store -/

variable {i : LinuxNamespaceItem} {r : LinuxRenameRequest} {c : LinuxCreatedFile}
    {nk : ParentNameKey} {n : LinuxNode} {hd : LinuxFileHandle} {pr : LinuxInode} {nm : String}

lemma validateNamespaceItem_ok (h : en.validateNamespaceItem i = .ok ()) :
    i.item.isRoot = false ∧ i.item.key = i.inodeRecord.key ∧
      i.inodeRecord.inode ≠ linuxRootInode ∧ validateLinuxName i.item.name = .ok () := by
  simp only [validateNamespaceItem, bind_eq_ok, exists_unit, refuse_eq_ok, not_or,
    not_not, Bool.not_eq_true] at h
  obtain ⟨-, ⟨hr, hk, hi, -⟩, hn⟩ := h
  exact ⟨hr, hk, hi, hn⟩

variable {a : LinuxRenameAcceptance} {et : LinuxRemoteEntry} {d : LinuxRemoteDelete}
    {iv : List LinuxInvalidation} {acc : LinuxFileAccess}
    {an : StoreAnswer LinuxCreateFileAcceptance} {np : LinuxInode} {nr : Bool}

lemma validateRenameAcceptance_ok (h : en.validateRenameAcceptance r a = .ok ()) :
    en.validateNamespaceItem a.item = .ok () ∧ a.item.item.key = r.key ∧
      a.item.inodeRecord.generation = r.inodeGeneration ∧ a.item.item.name = r.newName.value ∧
      a.item.item.parentId = some r.newParentKey.itemId := by
  simp only [validateRenameAcceptance, bind_eq_ok, exists_unit] at h
  obtain ⟨hi, h⟩ := h
  split at h
  · simp only [bind_eq_ok, exists_unit, refuse_eq_ok, not_or, not_not] at h
    obtain ⟨⟨hk, -, hg, -, hp, hn, -⟩, -⟩ := h
    exact ⟨hi, hk, hg, hn, hp⟩
  · cases h

variable {request : LinuxCreateDirectoryRequest}

lemma validateNamespaceCreate_ok (h : en.validateNamespaceCreate request i = .ok ()) :
    en.validateNamespaceItem i = .ok () := by
  simp only [validateNamespaceCreate, bind_eq_ok, exists_unit] at h
  exact h.1

lemma validateCreatedFile_ok {request : Option LinuxCreateFileRequest}
    (h : en.validateCreatedFile c request = .ok ()) :
    c.item.isRoot = false ∧ c.inodeRecord.key = c.item.key ∧ validateLinuxName c.item.name = .ok () := by
  simp only [validateCreatedFile, bind_eq_ok, exists_unit, refuse_eq_ok, not_or, not_not,
    Bool.not_eq_true] at h
  obtain ⟨-, ⟨-, hr⟩, -, ⟨hk, -⟩, -, h⟩ := h
  split at h
  · simp only [bind_eq_ok, exists_unit] at h
    exact ⟨hr, hk, h.2.2.2⟩
  · cases h

lemma ensureCreatedFileIsUnique_ok (h : en.ensureCreatedFileIsUnique st c nk = .ok ()) :
    en.table.byKey c.item.key = none ∧ en.table.byInode c.inodeRecord.inode = none ∧
      st.createdByKey.lookup c.item.key = none ∧ st.createdByInode.lookup c.inodeRecord.inode = none ∧
      st.createdByName.lookup nk = none := by
  simp only [ensureCreatedFileIsUnique, refuse_eq_ok, not_or, not_not, ← AList.lookup_eq_none] at h
  exact h

lemma not_namespaceConflict_none (h : ¬ en.NamespaceConflict st i nk none) :
    en.table.byKey i.item.key = none ∧ en.table.byInode i.inodeRecord.inode = none ∧
      st.namespaceByKey.lookup i.item.key = none ∧ st.namespaceByInode.lookup i.inodeRecord.inode = none := by
  simp only [NamespaceConflict, not_or, ne_eq, reduceCtorEq, not_false_eq_true, and_true,
    not_exists, ← AList.lookup_eq_none] at h
  obtain ⟨hk, hi, hlk, hli, -⟩ := h
  exact ⟨eq_none_iff_forall_ne_some.mpr hk, eq_none_iff_forall_ne_some.mpr hi,
    hlk, eq_none_iff_forall_ne_some.mpr hli⟩

lemma not_namespaceConflict_some {key : CloudItemKey} (h : ¬ en.NamespaceConflict st i nk (some key)) :
    (∀ r ∈ en.table.byInode i.inodeRecord.inode, r.key = key) ∧
      ∀ e ∈ st.namespaceByInode.lookup i.inodeRecord.inode, e.item.key = key := by
  simp only [NamespaceConflict, not_or, ne_eq, some.injEq, not_exists, not_and, not_not] at h
  obtain ⟨-, hi, -, hli, -⟩ := h
  exact ⟨fun r hr => (hi r hr).symm, fun e he => (hli e he).symm⟩

/-! ## Remote changes -/

lemma validateRemoteEntry_ok (h : en.validateRemoteEntry st et = .ok ()) :
    et.inodeRecord.key = et.item.key ∧ et.item.isRoot = false ∧ validateLinuxName et.item.name = .ok () ∧
      (∀ e ∈ en.keyForInode st et.inodeRecord.inode, e = et.item.key) ∧
      ∀ e ∈ en.recordForKey st et.item.key, e = et.inodeRecord := by
  simp only [validateRemoteEntry, bind_eq_ok, exists_unit, refuse_eq_ok, not_or, not_exists,
    not_and, not_not, Bool.not_eq_true] at h
  obtain ⟨⟨hk, -, hr, -⟩, n, hnd, hi, hrc⟩ := h
  obtain ⟨-, -, -, -, -, hn⟩ := nodeFromItemAndRecord_ok hnd
  rw [validateItemName, hr] at hn
  exact ⟨hk.symm, hr, hn, hi, hrc⟩

lemma validateRemoteDelete_ok (h : en.validateRemoteDelete st d = .ok ()) :
    d.inodeRecord.key = d.key ∧ en.recordForKey st d.key = some d.inodeRecord := by
  simp only [validateRemoteDelete, refuse_eq_ok, not_or, not_not] at h
  obtain ⟨hk, -, -, hr⟩ := h
  exact ⟨hk.symm, hr⟩

lemma checkUpsert_ok {p : Option LinuxRemoteLocation} {r : Option LinuxRemoteDelete}
    (h : en.checkUpsert st et p r nk = .ok ()) :
    en.validateRemoteEntry st et = .ok () ∧ st.namespaceByKey.lookup et.item.key = none ∧
      st.createdByKey.lookup et.item.key = none ∧
      et.item.key ∉ st.deletedKeys ∧ st.tombstonesByName.lookup nk = none ∧
      (∀ d ∈ r, en.validateRemoteDelete st d = .ok () ∧ d.key ≠ et.item.key) ∧
      (∀ e ∈ st.remoteByName.lookup nk, en.keyForInode st e = some et.item.key ∨
          r.map LinuxRemoteDelete.key = en.keyForInode st e) ∧
      ∀ c ∈ (st.remoteByKey.lookup et.item.key).bind st.remoteByInode.lookup,
        ∀ cp ∈ c.item.parentId, (cp, c.item.name) = (p.map LinuxRemoteLocation.nameKey).getD nk := by
  simp only [checkUpsert, bind_eq_ok, exists_unit, refuse_eq_ok, not_or, not_exists, not_and,
    not_not, ← AList.lookup_eq_none] at h
  obtain ⟨hv, ⟨hns, hcr, hd, ht⟩, hr, -, hn, hc⟩ := h
  refine ⟨hv, hns, hcr, hd, ht, ?_, ?_, ?_⟩
  · rintro d hm
    cases hm
    simpa only [bind_eq_ok, exists_unit, refuse_eq_ok] using hr
  · intro e he
    by_cases hkey : en.keyForInode st e = some et.item.key
    · exact .inl hkey
    · exact .inr (hn e he hkey)
  · intro c hm cp hp
    rw [mem_def.mp hm] at hc
    simp only [bind_eq_ok, okOr_eq_ok, mem_def.mp hp, some.injEq,
      exists_eq_left', refuse_eq_ok, not_not] at hc
    exact hc

lemma prepareRemoteUpsert_ok {u : LinuxRemoteUpsert} (h : en.prepareRemoteUpsert b st u = .ok (nk, iv)) :
    ∃ p pr t, u.entry.item.parentId = some p ∧ nk = (p, u.entry.item.name) ∧
      en.inodeForKey st ⟨u.entry.item.key.scope, p⟩ = some pr ∧
      en.lookupRemoteValidationTarget b st pr u.entry.item.name = .ok t ∧
      checkTarget u.entry.item.key ⟨u.entry.item.key.scope, p⟩ u.entry.item.name t u.replaced = .ok () ∧
      en.checkUpsert st u.entry u.previous u.replaced nk = .ok () := by
  simp only [prepareRemoteUpsert, bind_eq_ok, exists_unit, okOr_eq_ok, except_pure,
    ok.injEq, Prod.mk.injEq] at h
  obtain ⟨p, hpi, pr, hp, t, ht, hc, -, -, hu, -, -, rfl, -⟩ := h
  exact ⟨p, pr, t, hpi, rfl, hp, ht, hc, hu⟩

lemma prepareRemoteDelete_ok (h : en.prepareRemoteDelete b st d = .ok iv) :
    en.validateRemoteDelete st d = .ok () ∧ st.namespaceByKey.lookup d.key = none ∧
      st.createdByKey.lookup d.key = none := by
  simp only [prepareRemoteDelete, bind_eq_ok, exists_unit, refuse_eq_ok, not_or, ← AList.lookup_eq_none] at h
  obtain ⟨-, -, -, -, -, -, -, hv, ⟨hns, hc, -⟩, -⟩ := h
  exact ⟨hv, hns, hc⟩

/-! ## Acceptances -/

lemma mapError_eq_ok {ε ε' α : Type} {x : Except ε α} {f : ε → ε'} {a : α} : x.mapError f = .ok a ↔ x = .ok a := by
  cases x <;> simp [Except.mapError]

lemma acceptNamespaceCreate_ok (h : en.acceptNamespaceCreate st request i = .ok (n, s')) :
    en.validateNamespaceCreate request i = .ok () ∧ nodeFromItemAndRecord i.item i.inodeRecord = .ok n ∧
      ¬ en.NamespaceConflict st i request.nameKey none ∧
      s' = (st.uncover request.nameKey).insertNamespaceItem i request.nameKey := by
  simp only [acceptNamespaceCreate, ensureNamespaceItemIsUnique, bind_eq_ok, exists_unit,
    refuse_eq_ok, except_pure, ok.injEq, Prod.mk.injEq] at h
  obtain ⟨hv, _, hn, hu, rfl, rfl⟩ := h
  exact ⟨hv, hn, hu, rfl⟩

lemma acceptCreatedFile_ok {request : LinuxCreateFileRequest} {acceptance : LinuxCreateFileAcceptance}
    (h : en.acceptCreatedFile st request acceptance hd = .ok (n, s')) :
    en.validateCreatedFile acceptance.created (some request) = .ok () ∧
      nodeFromItemAndRecord acceptance.created.item acceptance.created.inodeRecord = .ok n ∧
      en.ensureCreatedFileIsUnique st acceptance.created request.nameKey = .ok () ∧
      s' = { (st.uncover request.nameKey).insertCreated acceptance.created request.nameKey with
        files := st.files.insert hd
          ⟨acceptance.created.inodeRecord.inode, request.access, acceptance.session.id, 0, none⟩ } := by
  simp only [acceptCreatedFile, bind_eq_ok, exists_unit, except_pure, ok.injEq, Prod.mk.injEq] at h
  obtain ⟨hv, -, _, hn, hu, -, rfl, rfl⟩ := h
  exact ⟨hv, hn, hu, rfl⟩

lemma acceptRename_ok : en.acceptRename st r a = .ok s' ↔ en.validateRenameAcceptance r a = .ok () ∧
    ¬ en.NamespaceConflict st a.item r.newNameKey (some r.key) ∧ st.publishRename en.table r a = s' := by
  simp [acceptRename, ensureNamespaceItemIsUnique, bind_eq_ok, exists_unit, refuse_eq_ok, except_pure]

/-! ## Operations -/

lemma allocate_ok (h : st.allocate = .ok (hd, s')) : s' = { st with next := s'.next } := by
  unfold WritableState.allocate at h
  split at h
  · cases h
    rfl
  · cases h

lemma createDirectory_ok {answer : StoreAnswer LinuxNamespaceItem}
    (h : en.createDirectory b st pr nm answer = .ok (n, s')) :
    ∃ (pn : LinuxNode) (item : LinuxNamespaceItem) (request : LinuxCreateDirectoryRequest),
      en.getattr b st pr none = .ok pn ∧ pn.kind = .directory ∧
      answer = .ok item ∧ request.parentKey = pn.key ∧ request.name.value = nm ∧
      en.acceptNamespaceCreate st request item = .ok (n, s') := by
  simp only [createDirectory, parentDirectory, bind_eq_ok, exists_unit, refuse_eq_ok,
    except_pure, ok.injEq, not_not, mapError_eq_ok, LinuxName.new_eq_ok] at h
  obtain ⟨-, pn, ⟨_, hp, hk, rfl⟩, c, hn, item, rfl, ha⟩ := h
  exact ⟨_, item, _, hp, hk, rfl, rfl, hn, ha⟩

lemma createFile_ok (h : en.createFile b st pr nm acc an = (.ok (n, hd), s')) :
    ∃ (pn : LinuxNode) (acceptance : LinuxCreateFileAcceptance) (request : LinuxCreateFileRequest) (next : ℕ),
      en.getattr b st pr none = .ok pn ∧ pn.kind = .directory ∧
      an = .ok acceptance ∧ request.parentKey = pn.key ∧ request.name.value = nm ∧
      en.acceptCreatedFile { st with next } request acceptance hd = .ok (n, s') := by
  unfold createFile at h
  split at h
  case h_1 => cases h
  rename_i request hreq
  split at h
  case h_1 => cases h
  rename_i taken counted halloc
  split at h
  case h_1 => cases h
  rename_i acceptance
  split at h
  case h_1 => cases h
  rename_i made final hacc
  cases h
  have hcount := allocate_ok halloc
  simp only [createFileRequest, parentDirectory, bind_eq_ok, exists_unit, refuse_eq_ok,
    except_pure, ok.injEq, not_not, LinuxName.new_eq_ok] at hreq
  obtain ⟨-, pn, ⟨_, hp, hk, rfl⟩, c, hn, rfl⟩ := hreq
  exact ⟨_, acceptance, _, counted.next, hp, hk, rfl, rfl, hn, hcount ▸ hacc⟩

lemma createFile_error {e : LinuxCloudFilesError} (h : en.createFile b st pr nm acc an = (.error e, s')) :
    ∃ next, s' = { st with next } := by
  unfold createFile at h
  split at h
  case h_1 =>
    cases h
    exact ⟨st.next, rfl⟩
  split at h
  case h_1 =>
    cases h
    exact ⟨st.next, rfl⟩
  rename_i taken counted halloc
  have hcount := allocate_ok halloc
  split at h
  case h_1 =>
    cases h
    exact ⟨_, hcount⟩
  split at h
  · cases h
    exact ⟨_, hcount⟩
  · cases h

lemma renameRequest_ok {name nn : LinuxName} (h : en.renameRequest b st pr name np nn nr = .ok r) :
    ∃ opn npn s d, en.getattr b st pr none = .ok opn ∧ en.getattr b st np none = .ok npn ∧
      opn.kind = .directory ∧ npn.kind = .directory ∧ en.lookup b st pr name.value = .ok s ∧
      en.lookupRemoteValidationTarget b st npn.inode nn.value = .ok d ∧
      r = ⟨s.key, s.generation, s.kind, opn.key, name, npn.key, nn,
        d.map fun n => ⟨n.key, n.generation, n.kind⟩, nr, en.sessionGeneration⟩ := by
  simp only [renameRequest, bind_eq_ok, exists_unit, refuse_eq_ok, except_pure,
    ok.injEq, not_or, not_not] at h
  obtain ⟨old, hold, new, hnew, ⟨holdKind, hnewKind⟩, s, hsrc, d, hdest,
    rfl⟩ := h
  exact ⟨old, new, s, d, hold, hnew, holdKind, hnewKind, hsrc, hdest, rfl⟩

lemma rename_ok {nn : String} {answer : StoreAnswer LinuxRenameAcceptance}
    (h : en.rename b st pr nm np nn nr answer = .ok s') : (pr = np ∧ nm = nn ∧ s' = st) ∨
      ∃ (old new : LinuxName) (request : LinuxRenameRequest) (acceptance : LinuxRenameAcceptance),
        old.value = nm ∧ new.value = nn ∧ ¬ (pr = np ∧ old = new) ∧
        en.renameRequest b st pr old np new nr = .ok request ∧
        answer = .ok acceptance ∧ en.acceptRename st request acceptance = .ok s' := by
  simp only [rename, bind_eq_ok, LinuxName.new_eq_ok] at h
  obtain ⟨old, hl, new, hn, h⟩ := h
  split at h
  · rename_i hsame
    cases h
    exact .inl ⟨hsame.1, by rw [← hl, ← hn, hsame.2], rfl⟩
  · rename_i hmoved
    simp only [bind_eq_ok, exists_unit, mapError_eq_ok] at h
    obtain ⟨-, request, hr, acceptance, rfl, ha⟩ := h
    exact .inr ⟨old, new, request, acceptance, hl, hn, hmoved, hr, rfl, ha⟩

lemma remove_ok {ek : LinuxNodeKind} {answer : StoreAnswer LinuxNamespaceTombstone}
    (h : en.remove b st pr nm ek answer = .ok s') :
    ∃ (pn c : LinuxNode) (request : LinuxRemoveRequest) (t : LinuxNamespaceTombstone),
      en.getattr b st pr none = .ok pn ∧ pn.kind = .directory ∧ en.lookup b st pr nm = .ok c ∧
      request.key = c.key ∧ request.parentKey = pn.key ∧ request.name.value = nm ∧
      answer = .ok t ∧ validateRemoveAcceptance request t = .ok () ∧ s' = st.publishRemove request t := by
  simp only [remove, removeRequest, parentDirectory, acceptRemove, bind_eq_ok, exists_unit,
    refuse_eq_ok, except_pure, ok.injEq, not_not, mapError_eq_ok, LinuxName.new_eq_ok] at h
  obtain ⟨-, request, ⟨pn, ⟨_, hpar, hkind, rfl⟩, c, hchild, -, checked, hname, rfl⟩,
    t, rfl, hvalid, rfl⟩ := h
  exact ⟨_, c, _, t, hpar, hkind, hchild, rfl, rfl, hname, rfl, hvalid, rfl⟩

/-! ## Recoveries -/

lemma restoreNamespaceItem_ok (h : en.restoreNamespaceItem st i = .ok s') :
    ∃ p, en.validateNamespaceItem i = .ok () ∧ i.item.parentId = some p ∧
      ¬ en.NamespaceConflict st i (p, i.item.name) none ∧ s' = st.insertNamespaceItem i (p, i.item.name) := by
  simp only [restoreNamespaceItem, ensureNamespaceItemIsUnique, bind_eq_ok, exists_unit,
    refuse_eq_ok, okOr_eq_ok, except_pure, ok.injEq] at h
  obtain ⟨hv, p, hp, hu, rfl⟩ := h
  exact ⟨p, hv, hp, hu, rfl⟩

lemma restoreTombstone_ok {tombstone : LinuxNamespaceTombstone} (h : en.restoreTombstone st tombstone = .ok s') :
    ∃ deletedKeys, (deletedKeys = st.deletedKeys ∨ deletedKeys = insert tombstone.key st.deletedKeys) ∧
      s' = { st with
        deletedKeys
        tombstonesByName := st.tombstonesByName.insert tombstone.nameKey tombstone } := by
  simp only [restoreTombstone, bind_eq_ok, exists_unit, refuse_eq_ok, except_pure, ok.injEq] at h
  obtain ⟨-, -, rfl⟩ := h
  refine ⟨_, ?_, rfl⟩
  split
  · exact .inr rfl
  · exact .inl rfl

lemma restoreCreatedFile_ok (h : en.restoreCreatedFile b st c = .ok s') :
    ∃ p, en.validateCreatedFile c none = .ok () ∧ c.item.parentId = some p ∧
      en.ensureCreatedFileIsUnique st c (recoveredName st c p) = .ok () ∧
      s' = st.insertCreated c (recoveredName st c p) := by
  simp only [restoreCreatedFile, bind_eq_ok, exists_unit, okOr_eq_ok, except_pure, ok.injEq] at h
  obtain ⟨hv, p, hp, _, -, _, -, -, hu, rfl⟩ := h
  exact ⟨p, hv, hp, hu, rfl⟩

lemma restoreDirtySnapshot_ok {s : LocalContentSnapshot} (h : en.restoreDirtySnapshot st s = .ok s') :
    ∃ i, (∀ p ∈ st.dirtySnapshots.lookup i, p = s) ∧
      s' = { st with dirtySnapshots := st.dirtySnapshots.insert i s } := by
  simp only [restoreDirtySnapshot, bind_eq_ok, exists_unit, refuse_eq_ok, except_pure, ok.injEq] at h
  obtain ⟨-, i, -, -, hp, rfl⟩ := h
  refine ⟨i, ?_, rfl⟩
  intro p hm
  by_contra hne
  exact hp ⟨p, hm, hne⟩

/-! ## Directories -/

lemma openDirectory_ok {i : LinuxInode} {handle : LinuxDirectoryHandle}
    (h : en.openDirectory b st i = .ok (handle, s')) : ∃ s next, en.captureDirectory b st i = .ok s ∧
      s' = { st with
        next, directories := st.directories.insert handle s } := by
  simp only [openDirectory, bind_eq_ok, except_pure, ok.injEq] at h
  obtain ⟨s, hs, ⟨t, c⟩, ha, h⟩ := h
  unfold WritableState.allocateDirectory at ha
  split at ha
  · cases ha
    cases h
    exact ⟨s, _, hs, rfl⟩
  · cases ha

end LinuxWritableEngine

end AsterForge.Linux
