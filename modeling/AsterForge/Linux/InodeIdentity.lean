import AsterForge.Linux.RemoteLayer
/-!
# Inodes and keys across the layers
Four layers bind inodes to keys, and three checks keep new bindings apart from old ones, each of them
from other layers.  A remote upsert is checked against what the engine finds for its inode and for its
key, over all layers; what the store answers to a create, a rename or a recovery is not.
* **`inode_identity`** — the property in every run whose answers agree.
* **`created_over_directory`** — an answer that does not, and is accepted.
-/
namespace AsterForge.Linux
open AsterForge.Core Library LinuxInodeTable Option WritableState
/-! ## One layer -/
section
variable {ν : Type} (keyOf : ν → CloudItemKey)
def LayerBinds (byKey : AList fun _ : CloudItemKey => LinuxInode)
    (byInode : AList fun _ : LinuxInode => ν) (inode : LinuxInode) (key : CloudItemKey) : Prop :=
  byKey.lookup key = some inode ∨ ∃ item, byInode.lookup inode = some item ∧ keyOf item = key
def Backed (byKey : AList fun _ : CloudItemKey => LinuxInode)
    (byInode : AList fun _ : LinuxInode => ν) : Prop :=
  AllEntries (fun key inode => ∃ item, byInode.lookup inode = some item ∧ keyOf item = key) byKey
variable {keyOf} {bk bk' : AList fun _ : CloudItemKey => LinuxInode}
  {bi bi' : AList fun _ : LinuxInode => ν} {ind : LinuxInode} {key : CloudItemKey}
lemma LayerBinds.mono (hk : AllEntries (fun key ind => bk.lookup key = some ind) bk')
    (hi : AllEntries (fun ind item => bi.lookup ind = some item) bi')
    (h : LayerBinds keyOf bk' bi' ind key) : LayerBinds keyOf bk bi ind key :=
  h.imp (hk _ _) fun ⟨item, hit, hky⟩ => ⟨item, hi _ _ hit, hky⟩
variable {it : ν}
lemma LayerBinds.of_insert {i' : LinuxInode} {key' : CloudItemKey} (hk : keyOf it = key)
    (h : LayerBinds keyOf (bk.insert key ind) (bi.insert ind it) i' key') :
    LayerBinds keyOf bk bi i' key' ∨ (i' = ind ∧ key' = key) := by
  simp only [LayerBinds, lookup_insert_eq] at h
  rcases h with hl | ⟨o, ho, hs⟩
  · split at hl
    · rename_i heq
      exact .inr ⟨(some.inj hl).symm, heq⟩
    · exact .inl (.inl hl)
  · split at ho
    · rename_i heq
      cases ho
      exact .inr ⟨heq, hs.symm.trans hk⟩
    · exact .inl (.inr ⟨o, ho, hs⟩)
lemma Backed.insert (h : Backed keyOf bk bi) (hk : keyOf it = key)
    (how : ∀ key', bk.lookup key' = some ind → key' = key) :
    Backed keyOf (bk.insert key ind) (bi.insert ind it) := by
  intro key' i' hl
  rw [lookup_insert_eq] at hl
  split at hl
  · rename_i heq
    cases hl
    exact ⟨it, AList.lookup_insert _, hk.trans heq.symm⟩
  · rename_i hne
    obtain ⟨o, ho, hs⟩ := h key' i' hl
    refine ⟨o, ?_, hs⟩
    rw [lookup_insert_eq, if_neg, ho]
    rintro rfl
    exact hne (how key' hl)
lemma Backed.erase (h : Backed keyOf bk bi) (how : ∀ key', bk.lookup key' = some ind → key' = key) :
    Backed keyOf (bk.erase key) (bi.erase ind) := by
  intro key' i' hl
  rw [lookup_erase_eq] at hl
  split at hl
  · cases hl
  · rename_i hne
    obtain ⟨o, ho, hs⟩ := h key' i' hl
    refine ⟨o, ?_, hs⟩
    rw [lookup_erase_eq, if_neg, ho]
    rintro rfl
    exact hne (how key' hl)
lemma Backed.eraseKey (h : Backed keyOf bk bi) (key : CloudItemKey) : Backed keyOf (bk.erase key) bi :=
  AllEntries.erase h
end
/-! ## All layers -/
namespace LinuxWritableEngine
def Binds (engine : LinuxWritableEngine) (state : WritableState) (inode : LinuxInode)
    (key : CloudItemKey) : Prop :=
  (∃ record, engine.table.byInode inode = some record ∧ record.key = key) ∨
  LayerBinds (fun item => item.item.key) state.namespaceByKey state.namespaceByInode inode key ∨
  LayerBinds (fun created => created.item.key) state.createdByKey state.createdByInode inode key ∨
  LayerBinds (fun entry => entry.item.key) state.remoteByKey state.remoteByInode inode key
/-- **The property**: no inode has two keys, and no key two inodes. -/
def Identified (engine : LinuxWritableEngine) (state : WritableState) : Prop :=
  ∀ inode key inode' key', engine.Binds state inode key → engine.Binds state inode' key' →
    (inode = inode' ↔ key = key')
/-- **The condition**: an inode and a key agree with every binding. -/
def Agrees (engine : LinuxWritableEngine) (state : WritableState) (inode : LinuxInode)
    (key : CloudItemKey) : Prop :=
  ∀ inode' key', engine.Binds state inode' key' → (inode' = inode ↔ key' = key)
/-- What the property needs to be kept. -/
structure Identity (engine : LinuxWritableEngine) (state : WritableState) : Prop where
  identified : engine.Identified state
  namespaceBacked : Backed (fun item => item.item.key) state.namespaceByKey state.namespaceByInode
  createdBacked : Backed (fun created => created.item.key) state.createdByKey state.createdByInode
  remoteKeyed : RemoteKeyed state
variable {engine : LinuxWritableEngine} {state s' : WritableState}
namespace Binds
variable {i : LinuxInode} {key : CloudItemKey}
lemma of_restored {r : LinuxInodeRecord} (h : engine.table.byKey key = some r) : engine.Binds state r.inode key :=
  .inl ⟨r, byInode_of_byKey h, (mem_of_byKey h).1⟩
lemma of_namespaceByKey (h : state.namespaceByKey.lookup key = some i) :
    engine.Binds state i key := .inr (.inl (.inl h))
lemma of_namespaceByInode {item : LinuxNamespaceItem}
    (h : state.namespaceByInode.lookup i = some item) : engine.Binds state i item.item.key :=
  .inr (.inl (.inr ⟨item, h, rfl⟩))
lemma of_createdByKey (h : state.createdByKey.lookup key = some i) :
    engine.Binds state i key := .inr (.inr (.inl (.inl h)))
lemma of_createdByInode {c : LinuxCreatedFile} (h : state.createdByInode.lookup i = some c) :
    engine.Binds state i c.item.key :=
  .inr (.inr (.inl (.inr ⟨c, h, rfl⟩)))
lemma of_remoteByKey (h : state.remoteByKey.lookup key = some i) :
    engine.Binds state i key := .inr (.inr (.inr (.inl h)))
lemma of_remoteByInode {e : LinuxRemoteEntry}
    (h : state.remoteByInode.lookup i = some e) : engine.Binds state i e.item.key :=
  .inr (.inr (.inr (.inr ⟨e, h, rfl⟩)))
lemma of_overlayItem {e : OverlayEntry} (h : state.overlayItem i = some e) : engine.Binds state i e.1.key := by
  unfold overlayItem at h
  split at h
  · rename_i item hitem
    cases h
    exact of_namespaceByInode hitem
  · split at h
    · rename_i created hcreat
      cases h
      exact of_createdByInode hcreat
    · obtain ⟨r, hr, rfl⟩ := map_eq_some_iff.mp h
      exact of_remoteByInode hr
end Binds
/-! ## What the engine finds -/
variable {key : CloudItemKey}

variable {inode : LinuxInode}

/-- **The key of a bound inode** is found. -/
lemma keyForInode_of_binds (h : engine.Identity state)
    (hb : engine.Binds state inode key) : engine.keyForInode state inode = some key := by
  unfold keyForInode
  cases hover : state.overlayItem inode with
  | some e =>
    exact congrArg some ((h.identified _ _ _ _ (.of_overlayItem hover) hb).mp rfl)
  | none =>
    have hnone : state.namespaceByInode.lookup inode = none ∧
        state.createdByInode.lookup inode = none ∧ state.remoteByInode.lookup inode = none := by
      unfold overlayItem at hover
      split at hover
      · cases hover
      · split at hover
        · cases hover
        · rename_i hns _ hc
          exact ⟨hns, hc, map_eq_none_iff.mp hover⟩
    obtain ⟨hns, hc, hr⟩ := hnone
    -- a layer without an item under the inode does not bind it, so the restored table does
    rcases hb with ⟨r, hrc, rfl⟩ | hb | hb | hb
    · rw [hrc]
      rfl
    · rcases hb with hk | ⟨item, hi, -⟩
      · obtain ⟨item, hi, -⟩ := h.namespaceBacked _ _ hk
        cases hns.symm.trans hi
      · cases hns.symm.trans hi
    · rcases hb with hk | ⟨item, hi, -⟩
      · obtain ⟨item, hi, -⟩ := h.createdBacked _ _ hk
        cases hc.symm.trans hi
      · cases hc.symm.trans hi
    · rcases hb with hk | ⟨item, hi, -⟩
      · obtain ⟨item, hi, -⟩ := (h.remoteKeyed.keys _ _).mp hk
        cases hr.symm.trans hi
      · cases hr.symm.trans hi
/-- **The record of a bound key** that no local layer knows is found. -/
lemma recordForKey_of_binds (h : engine.Identity state) (ha : Accounted state) (hu : ¬ state.Knows key) (hb : engine.Binds state inode key) :
    ∃ r, engine.recordForKey state key = some r ∧ r.inode = inode := by
  have hns : state.namespaceByKey.lookup key = none :=
    AList.lookup_eq_none.mpr fun hm => hu (.inl hm)
  have hcreat : state.createdByKey.lookup key = none :=
    AList.lookup_eq_none.mpr fun hm => hu (.inr (.inl hm))
  cases hrem : state.remoteByKey.lookup key with
  | some i' =>
    obtain ⟨r, hr, hin⟩ := h.remoteKeyed.recordForKey engine hns hcreat hrem
    refine ⟨r, hr, hin.trans ?_⟩
    exact (h.identified _ _ _ _ (.of_remoteByKey hrem) hb).mpr rfl
  | none =>
    rcases hb with ⟨r, hr, rfl⟩ | hb | hb | hb
    · refine ⟨r, ?_, (mem_of_byInode hr).1⟩
      simp [recordForKey, hns, hcreat, hrem, byKey_of_byInode hr]
    · rcases hb with hk | ⟨item, hi, rfl⟩
      · cases hns.symm.trans hk
      · exact absurd (ha.namespaceItems _ _ hi) hu
    · rcases hb with hk | ⟨item, hi, rfl⟩
      · cases hcreat.symm.trans hk
      · exact absurd (ha.createdFiles _ _ hi) hu
    · rcases hb with hk | ⟨item, hi, rfl⟩
      · cases hrem.symm.trans hk
      · cases hrem.symm.trans (h.remoteKeyed.keys.of_row hi rfl)
/-- **What an upsert is checked for** is that it agrees. -/
lemma agrees_of_checkUpsert (h : engine.Identity state) (ha : Accounted state)
    {e : LinuxRemoteEntry} {p : Option LinuxRemoteLocation}
    {r : Option LinuxRemoteDelete} {nk : ParentNameKey} (hc : engine.checkUpsert state e p r nk = .ok ()) :
    engine.Agrees state e.inodeRecord.inode e.item.key := by
  obtain ⟨hv, -⟩ := checkUpsert_ok hc
  obtain ⟨-, -, -, hi, hr⟩ := validateRemoteEntry_ok hv
  intro inode key hb
  constructor
  · rintro rfl
    exact hi key (keyForInode_of_binds h hb)
  · rintro rfl
    obtain ⟨rc, hf, rfl⟩ :=
      recordForKey_of_binds h ha (RemoteKeyed.not_knows hc) hb
    rw [hr rc hf]
/-! ## Updates -/
lemma Identified.extend (h : engine.Identified state) (ha : engine.Agrees state inode key)
    (hb : ∀ i' key', engine.Binds s' i' key' → engine.Binds state i' key' ∨ (i' = inode ∧ key' = key)) :
    engine.Identified s' := by
  intro ino ky ind k h₁ h₂
  rcases hb _ _ h₁ with hol | ⟨rfl, rfl⟩
  · rcases hb _ _ h₂ with ho | ⟨rfl, rfl⟩
    · exact h _ _ _ _ hol ho
    · exact ha _ _ hol
  · rcases hb _ _ h₂ with ho | ⟨rfl, rfl⟩
    · exact eq_comm.trans ((ha _ _ ho).trans eq_comm)
    · exact iff_of_true rfl rfl
lemma Identified.mono (h : engine.Identified state)
    (hb : ∀ inode key, engine.Binds s' inode key → engine.Binds state inode key) : engine.Identified s' :=
  fun _ _ _ _ h₁ h₂ => h _ _ _ _ (hb _ _ h₁) (hb _ _ h₂)
namespace Identity
section
variable (h : engine.Identity state)
include h
lemma insertNamespaceItem {item : LinuxNamespaceItem} (nk : ParentNameKey)
    (ha : engine.Agrees state item.inodeRecord.inode item.item.key) :
    engine.Identity (state.insertNamespaceItem item nk) where
  identified := by
    refine h.identified.extend ha ?_
    rintro inode key (hs | hns | hc | hr)
    · exact .inl (.inl hs)
    · exact (hns.of_insert rfl).imp_left fun hl => .inr (.inl hl)
    · exact .inl (.inr (.inr (.inl hc)))
    · exact .inl (.inr (.inr (.inr hr)))
  namespaceBacked :=
    h.namespaceBacked.insert rfl fun _ hk => (ha _ _ (.of_namespaceByKey hk)).mp rfl
  createdBacked := h.createdBacked
  remoteKeyed := ⟨h.remoteKeyed.keys, h.remoteKeyed.inodes⟩
lemma insertCreated {c : LinuxCreatedFile} (nk : ParentNameKey)
    (ha : engine.Agrees state c.inodeRecord.inode c.item.key) : engine.Identity (state.insertCreated c nk) where
  identified := by
    refine h.identified.extend ha ?_
    rintro inode key (hs | hns | hc | hr)
    · exact .inl (.inl hs)
    · exact .inl (.inr (.inl hns))
    · exact (hc.of_insert rfl).imp_left fun hl => .inr (.inr (.inl hl))
    · exact .inl (.inr (.inr (.inr hr)))
  namespaceBacked := h.namespaceBacked
  createdBacked :=
    h.createdBacked.insert rfl fun _ hk => (ha _ _ (.of_createdByKey hk)).mp rfl
  remoteKeyed := ⟨h.remoteKeyed.keys, h.remoteKeyed.inodes⟩
lemma withoutKey (state' : WritableState) (key : CloudItemKey)
    (inode : Option LinuxInode) (cbk : AList fun _ : CloudItemKey => LinuxInode)
    (hi : ∀ b ∈ inode, engine.Binds state b key)
    (hc : cbk = state.createdByKey ∨ cbk = state.createdByKey.erase key)
    (hlc : state'.namespaceByKey = state.namespaceByKey.erase key ∧
      state'.namespaceByInode = inode.elim state.namespaceByInode state.namespaceByInode.erase ∧
      state'.createdByKey = cbk ∧ state'.createdByInode = state.createdByInode)
    (hr : state'.remoteByKey = state.remoteByKey ∧ state'.remoteByInode = state.remoteByInode) :
    engine.Identity state' ∧ ∀ b o, engine.Binds state' b o → engine.Binds state b o := by
  obtain ⟨hnk, hni, hck, hci⟩ := hlc
  obtain ⟨hrk, hri⟩ := hr
  have hbef : ∀ b o, engine.Binds state' b o → engine.Binds state b o := by
    rintro b o (hb | hb | hb | hb)
    · exact .inl hb
    · refine .inr (.inl (hb.mono ?_ ?_))
      · rw [hnk]
        exact AllEntries.erase fun _ _ hl => hl
      · rw [hni]
        cases inode with
        | none => exact fun _ _ hl => hl
        | some inode => exact AllEntries.erase fun _ _ hl => hl
    · refine .inr (.inr (.inl (hb.mono ?_ ?_)))
      · rw [hck]
        rcases hc with rfl | rfl
        · exact fun _ _ hl => hl
        · exact AllEntries.erase fun _ _ hl => hl
      · rw [hci]
        exact fun _ _ hl => hl
    · rw [hrk, hri] at hb
      exact .inr (.inr (.inr hb))
  refine ⟨⟨h.identified.mono hbef, ?_, ?_, ?_, ?_⟩, hbef⟩
  · rw [hnk, hni]
    cases inode with
    | none => exact h.namespaceBacked.eraseKey key
    | some inode =>
      refine h.namespaceBacked.erase fun o ho => ?_
      exact (h.identified _ _ _ _ (.of_namespaceByKey ho) (hi inode rfl)).mp rfl
  · rw [hck, hci]
    rcases hc with rfl | rfl
    · exact h.createdBacked
    · exact h.createdBacked.eraseKey key
  · rw [hrk, hri]
    exact h.remoteKeyed.keys
  · rw [hri]
    exact h.remoteKeyed.inodes
lemma replaceDestination (r : LinuxNamespaceTombstone) :
    engine.Identity (state.replaceDestination engine.table r) ∧
      ∀ b o, engine.Binds (state.replaceDestination engine.table r) b o → engine.Binds state b o := by
  refine h.withoutKey _ r.key (state.replacedInode engine.table r.key)
    (state.replaceDestination engine.table r).createdByKey ?_ ?_ ⟨rfl, ?_, rfl, rfl⟩ ⟨rfl, rfl⟩
  · intro b hb
    simp only [replacedInode, mem_def, or_eq_some_iff, map_eq_some_iff] at hb
    rcases hb with hk | ⟨-, hk | ⟨-, rc, hr, rfl⟩⟩
    · exact .of_namespaceByKey hk
    · exact .of_createdByKey hk
    · exact .of_restored hr
  · unfold WritableState.replaceDestination
    split
    · exact .inl rfl
    · exact .inr rfl
  · unfold WritableState.replaceDestination
    cases state.replacedInode engine.table r.key <;> rfl
lemma publishRemove (r : LinuxRemoveRequest) (t : LinuxNamespaceTombstone) :
    engine.Identity (state.publishRemove r t) := by
  have hwithout := h.withoutKey (state.publishRemove r t) r.key
    ((state.namespaceByKey.lookup r.key).or (state.createdByKey.lookup r.key))
    state.createdByKey ?_ (.inl rfl) ⟨rfl, ?_, rfl, rfl⟩ ⟨rfl, rfl⟩
  · exact hwithout.1
  · intro b hb
    rcases or_eq_some_iff.mp hb with hk | ⟨-, hk⟩
    · exact .of_namespaceByKey hk
    · exact .of_createdByKey hk
  · unfold WritableState.publishRemove
    cases (state.namespaceByKey.lookup r.key).or (state.createdByKey.lookup r.key) <;> rfl
lemma publishRename {r : LinuxRenameRequest} {a : LinuxRenameAcceptance} (hk : a.item.item.key = r.key)
    (ha : engine.Agrees state a.item.inodeRecord.inode a.item.item.key) :
    engine.Identity (state.publishRename engine.table r a) := by
  -- the bindings that stay were there before, so the reply agrees with them as well
  have hplace : ∀ {c : WritableState}, engine.Identity c →
      (∀ inode key, engine.Binds c inode key → engine.Binds state inode key) →
      engine.Identity (c.placeRenamed r.key r.newNameKey a.item) := by
    intro c hc hbn
    have hins := hc.insertNamespaceItem r.newNameKey fun inode key hb => ha inode key (hbn inode key hb)
    rw [← hk]
    exact ⟨hins.identified, hins.namespaceBacked, hins.createdBacked,
      hins.remoteKeyed.keys, hins.remoteKeyed.inodes⟩
  have hleft : engine.Identity (state.leaveName r.oldNameKey a.source) :=
    ⟨h.identified, h.namespaceBacked, h.createdBacked, h.remoteKeyed.keys, h.remoteKeyed.inodes⟩
  unfold WritableState.publishRename
  split
  · rename_i replaced _
    obtain ⟨hc, hbf⟩ := hleft.replaceDestination replaced
    exact hplace hc hbf
  · exact hplace hleft fun _ _ hb => hb
end
variable {b : CloudFilesBackend} {d : LinuxRemoteDelete} {iv : List LinuxInvalidation}
lemma binds_of_prepareRemoteDelete (h : engine.Identity state)
    (hp : engine.prepareRemoteDelete b state d = .ok iv) : engine.Binds state d.inodeRecord.inode d.key := by
  obtain ⟨hv, hns, hc⟩ := prepareRemoteDelete_ok hp
  obtain ⟨-, hr⟩ := validateRemoteDelete_ok hv
  cases hrem : state.remoteByKey.lookup d.key with
  | some inode =>
    obtain ⟨r, hf, rfl⟩ := h.remoteKeyed.recordForKey engine hns hc hrem
    cases hr.symm.trans hf
    exact .of_remoteByKey hrem
  | none =>
    simp only [recordForKey, hns, hc, hrem, bind_none] at hr
    exact .of_restored hr
lemma publishDelete (h : engine.Identity state) (hp : engine.prepareRemoteDelete b state d = .ok iv) :
    engine.Identity (state.publishDelete d) where
  identified := by
    refine h.identified.mono ?_
    rintro inode key (hb | hb | hb | hb)
    · exact .inl hb
    · exact .inr (.inl hb)
    · exact .inr (.inr (.inl hb))
    · refine .inr (.inr (.inr (hb.mono ?_ ?_)))
      · exact AllEntries.erase fun _ _ hl => hl
      · exact AllEntries.erase fun _ _ hl => hl
  __ := h
  remoteKeyed := by
    refine h.remoteKeyed.of_rows (h.remoteKeyed.remoteByInode_publishDelete hp ?_) rfl
    intro e he
    have hbound := h.binds_of_prepareRemoteDelete hp
    exact (h.identified _ _ _ _ (.of_remoteByInode he) hbound).mp rfl
lemma publishUpsert (h : engine.Identity state) {u : LinuxRemoteUpsert} (nk : ParentNameKey)
    (ha : engine.Agrees state u.entry.inodeRecord.inode u.entry.item.key) :
    engine.Identity (state.publishUpsert u nk) := by
  obtain ⟨hr, hk, -⟩ := h.remoteKeyed.of_afterReplaced u.replaced
  obtain ⟨hnamespaceKeys, hnamespaceItems, hcreatedKeys, hcreatedItems, hremoteKeys, hremoteItems⟩ :
      (state.publishUpsert u nk).namespaceByKey = state.namespaceByKey ∧
      (state.publishUpsert u nk).namespaceByInode = state.namespaceByInode ∧
      (state.publishUpsert u nk).createdByKey = state.createdByKey ∧
      (state.publishUpsert u nk).createdByInode = state.createdByInode ∧
      (state.publishUpsert u nk).remoteByKey =
        (state.afterReplaced u.replaced).remoteByKey.insert u.entry.item.key u.entry.inodeRecord.inode ∧
      (state.publishUpsert u nk).remoteByInode =
        (state.afterReplaced u.replaced).remoteByInode.insert u.entry.inodeRecord.inode
          u.entry := by
    unfold WritableState.publishUpsert WritableState.afterReplaced
    cases u.previous <;> cases u.replaced <;> exact ⟨rfl, rfl, rfl, rfl, rfl, rfl⟩
  refine ⟨h.identified.extend ha ?_, ?_, ?_, ?_⟩
  · rintro inode key (hb | hb | hb | hb)
    · exact .inl (.inl hb)
    · rw [hnamespaceKeys, hnamespaceItems] at hb
      exact .inl (.inr (.inl hb))
    · rw [hcreatedKeys, hcreatedItems] at hb
      exact .inl (.inr (.inr (.inl hb)))
    · rw [hremoteKeys, hremoteItems] at hb
      refine (hb.of_insert rfl).imp_left fun hd => .inr (.inr (.inr (hd.mono ?_ ?_)))
      · exact fun _ _ hl => hk _ _ hl
      · exact fun _ _ hl => hr _ _ hl
  · rw [hnamespaceKeys, hnamespaceItems]
    exact h.namespaceBacked
  · rw [hcreatedKeys, hcreatedItems]
    exact h.createdBacked
  · refine h.remoteKeyed.publishUpsert nk ?_ ?_
    · intro inode hi
      exact (ha _ _ (.of_remoteByKey hi)).mpr rfl
    · intro e he
      exact (ha _ _ (.of_remoteByInode he)).mp rfl
end Identity
/-! ## Runs -/
variable (engine) in
/-- **The condition on a step**: what the store answers to a create, a rename or a recovery, where
the engine's checks let it pass, agrees with every binding. -/
def AnswerAgrees (state : WritableState) : LinuxOperation → Prop
  | .restoreNamespaceItem item =>
    ∀ parentId, engine.validateNamespaceItem item = .ok () →
      ¬ engine.NamespaceConflict state item (parentId, item.item.name) none →
      engine.Agrees state item.inodeRecord.inode item.item.key
  | .restoreCreatedFile _ created =>
    ∀ nameKey, engine.validateCreatedFile created none = .ok () →
      engine.ensureCreatedFileIsUnique state created nameKey = .ok () →
      engine.Agrees state created.inodeRecord.inode created.item.key
  | .createFile _ _ _ _ (.ok ⟨created, _⟩) =>
    ∀ request, engine.validateCreatedFile created (some request) = .ok () →
      engine.ensureCreatedFileIsUnique state created request.nameKey = .ok () →
      engine.Agrees state created.inodeRecord.inode created.item.key
  | .createDirectory _ _ _ (.ok item) =>
    ∀ request, engine.validateNamespaceCreate request item = .ok () →
      ¬ engine.NamespaceConflict state item request.nameKey none →
      engine.Agrees state item.inodeRecord.inode item.item.key
  | .rename _ _ _ _ _ _ (.ok acceptance) =>
    ∀ request, engine.validateRenameAcceptance request acceptance = .ok () →
      ¬ engine.NamespaceConflict state acceptance.item request.newNameKey (some request.key) →
      engine.Agrees state acceptance.item.inodeRecord.inode acceptance.item.item.key
  | _ => True
lemma binds_default (hb : engine.Binds .default inode key) :
    ∃ r, engine.table.byInode inode = some r ∧ r.key = key := by
  rcases hb with hb | hb | hb | hb
  · exact hb
  all_goals
    rcases hb with hb | ⟨_, hb, -⟩ <;> cases hb
lemma identity_default : engine.Identity .default where
  identified := by
    intro inode key i' key' hb hb'
    obtain ⟨r, hr, rfl⟩ := binds_default hb
    obtain ⟨r', hr', rfl⟩ := binds_default hb'
    constructor
    · rintro rfl
      cases hr.symm.trans hr'
      rfl
    · intro hk
      have hsame := (byKey_of_byInode hr).symm.trans (hk ▸ byKey_of_byInode hr')
      cases hsame
      exact (mem_of_byInode hr).1.symm.trans (mem_of_byInode hr').1
  namespaceBacked := allEntries_empty
  createdBacked := allEntries_empty
  remoteKeyed := remoteKeyed_default
/-- **Every step whose answer agrees keeps the property.** -/
theorem Identity.effect (h : engine.Identity state) (hac : Accounted state)
    {o : LinuxOperation} {a : Except LinuxCloudFilesError Unit} (ha : engine.AnswerAgrees state o)
    (he : engine.Effect state o a s') : engine.Identity s' := by
  cases he with
  | kept | tombstoneRestored =>
    exact ⟨h.identified, h.namespaceBacked, h.createdBacked, h.remoteKeyed.keys, h.remoteKeyed.inodes⟩
  | itemRestored hv _ hf => exact h.insertNamespaceItem _ (ha _ hv hf)
  | fileRestored hv _ hf => exact h.insertCreated _ (ha _ hv hf)
  | upserted hp =>
    obtain ⟨-, -, -, -, -, -, -, -, hc⟩ := prepareRemoteUpsert_ok hp
    exact h.publishUpsert _ (agrees_of_checkUpsert h hac hc)
  | deleted hp => exact h.publishDelete hp
  | @fileCreated _ _ _ _ _ acc r next f _ _ _ hv hf =>
    have huncov : engine.Identity (state.uncover r.nameKey) :=
      ⟨h.identified, h.namespaceBacked, h.createdBacked, h.remoteKeyed.keys, h.remoteKeyed.inodes⟩
    have hins := huncov.insertCreated r.nameKey (ha r hv hf)
    exact ⟨hins.identified, hins.namespaceBacked, hins.createdBacked,
      hins.remoteKeyed.keys, hins.remoteKeyed.inodes⟩
  | @directoryCreated _ _ _ _ item r _ _ _ hv hf =>
    have huncov : engine.Identity (state.uncover r.nameKey) :=
      ⟨h.identified, h.namespaceBacked, h.createdBacked, h.remoteKeyed.keys, h.remoteKeyed.inodes⟩
    exact huncov.insertNamespaceItem r.nameKey (ha r hv hf)
  | renamed _ _ hv hf =>
    obtain ⟨-, hk, -⟩ := validateRenameAcceptance_ok hv
    exact h.publishRename hk (ha _ hv hf)
  | removed => exact h.publishRemove _ _
/-- **Inode identity**: in every run whose answers agree, no inode has two keys and no key has two
inodes. -/
theorem inode_identity (h : Reachable (fun s => s = default)
    (Guarded engine.AnswerAgrees engine.Step) state) : engine.Identified state := by
  have hboth : engine.Identity state ∧ Accounted state := by
    refine Reachable.induction (I := fun state => engine.Identity state ∧ Accounted state) ?_ ?_ h
    · rintro s rfl
      exact ⟨identity_default, accounted_default⟩
    · rintro s o t - ⟨hi, ha⟩ ⟨hag, hs⟩
      obtain ⟨a, he⟩ := exists_effect_of_step hs
      exact ⟨hi.effect ha hag he, ha.effect he⟩
  exact hboth.1.identified
end LinuxWritableEngine
/-! ## On the small mount -/
section
open SmallMount LinuxWritableEngine
def createDirectoryIn : LinuxOperation :=
  .createDirectory (backend []) linuxRootInode "d" (.ok createdDirectory)
def createFileAs (inode : LinuxInode) : LinuxOperation :=
  .createFile (backend []) linuxRootInode "b" .write (.ok (createdAs "b" inode))
/-- **One inode, two items.**  The check of a created file compares its inode with the restored table
and with the created files, not with the namespace items, and so the engine takes the inode of a
directory for a file as well. -/
theorem created_over_directory :
    engine.ReachableState (engine.after [createDirectoryIn, createFileAs (inode 10)]) ∧
    (engine.perform (engine.after []) createDirectoryIn).1 = .ok () ∧
    (engine.perform (engine.after [createDirectoryIn]) (createFileAs (inode 10))).1 = .ok () ∧
    ¬ engine.Identified (engine.after [createDirectoryIn, createFileAs (inode 10)]) := by
  refine ⟨reachableState_after _, by decide, by decide, ?_⟩
  intro hi
  have hdir : engine.Binds (engine.after [createDirectoryIn, createFileAs (inode 10)])
      (inode 10) (key "d") := .of_namespaceByKey (by decide)
  have hfile : engine.Binds (engine.after [createDirectoryIn, createFileAs (inode 10)])
      (inode 10) (key "b") := .of_createdByKey (by decide)
  exact absurd ((hi _ _ _ _ hdir hfile).mp rfl) (by decide)
/-- The file gets an inode that nothing has, and the mount stays identified. -/
theorem inode_identity_created : engine.Identified (engine.after [createFileAs (inode 10)]) := by
  refine inode_identity (.tail (.of_init rfl) (a := createFileAs (inode 10)) ⟨?_, rfl⟩)
  rintro r - - ot o hb
  obtain ⟨f, hf, rfl⟩ := binds_default hb
  obtain ⟨rfl, hm⟩ := mem_of_byInode hf
  rcases hm with rfl | hm
  · decide
  · cases List.mem_singleton.mp hm
    decide
end
end AsterForge.Linux
