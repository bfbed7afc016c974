import AsterForge.Library.SecondaryIndex
import AsterForge.Linux.Effects

/-!
# What the layers know of keys

Two invariants of the overlay.  The local layers hold no item whose key they do not know, so a check
that a key is unknown to them is a check of their items.  The remote layer keeps its entries as rows
under their inodes, with an index by key that is exact.

* `RemoteKeyed` — the invariant of the remote layer, with what a deletion, a replacement and an upsert
  need to keep it.
-/

namespace AsterForge.Linux

open AsterForge.Core Library WritableState LinuxWritableEngine Function Option AList Finset

/-! ## What the local layers know -/

/-- A key that a local layer has or that was deleted here. -/
def WritableState.Knows (state : WritableState) (key : CloudItemKey) : Prop :=
  key ∈ state.namespaceByKey ∨ key ∈ state.createdByKey ∨ key ∈ state.deletedKeys

/-- The keys of the items in the local layers are known. -/
structure Accounted (state : WritableState) : Prop where
  namespaceItems : AllEntries (fun _ item => state.Knows item.item.key) state.namespaceByInode
  createdFiles : AllEntries (fun _ created => state.Knows created.item.key) state.createdByInode

lemma accounted_default : Accounted .default := ⟨allEntries_empty, allEntries_empty⟩

namespace Accounted

variable {s s' : WritableState}

/-- What the local layers know only grows, and so the invariant is kept wherever new entries are
known. -/
lemma extend (h : Accounted s) (hk : ∀ key, s.Knows key → s'.Knows key)
    (hi : AllEntries (fun inode i => s.namespaceByInode.lookup inode = some i ∨
      s'.Knows i.item.key) s'.namespaceByInode)
    (hf : AllEntries (fun inode c => s.createdByInode.lookup inode = some c ∨
      s'.Knows c.item.key) s'.createdByInode) : Accounted s' where
  namespaceItems := by
    intro inode i hit
    rcases hi inode i hit with hl | hn
    · exact hk _ (h.namespaceItems inode i hl)
    · exact hn
  createdFiles := by
    intro inode c hc
    rcases hf inode c hc with hl | hn
    · exact hk _ (h.createdFiles inode c hl)
    · exact hn

variable {κ ν : Type}

lemma same_entries [DecidableEq κ] {m : AList fun _ : κ => ν} : AllEntries (fun k v => m.lookup k = some v) m :=
  fun _ _ hl => hl

lemma old_entries [DecidableEq κ] {m : AList fun _ : κ => ν} {p : κ → ν → Prop} :
    AllEntries (fun k v => m.lookup k = some v ∨ p k v) m :=
  fun _ _ hl => .inl hl

section

variable (h : Accounted s)
include h

lemma insertNamespaceItem (i : LinuxNamespaceItem)
    (nameKey : ParentNameKey) : Accounted (s.insertNamespaceItem i nameKey) := by
  refine h.extend ?_ (old_entries.insert (.inr (.inl ?_))) old_entries
  · intro key hk
    exact hk.imp_left fun hm => (mem_insert _).mpr (.inr hm)
  · exact (mem_insert _).mpr (.inl rfl)

lemma insertCreated (c : LinuxCreatedFile) (nameKey : ParentNameKey) : Accounted (s.insertCreated c nameKey) := by
  refine h.extend ?_ old_entries (old_entries.insert (.inr (.inr (.inl ?_))))
  · intro key hk
    exact hk.imp_right (.imp_left fun hm => (mem_insert _).mpr (.inr hm))
  · exact (mem_insert _).mpr (.inl rfl)

variable (t : LinuxInodeTable)

lemma replaceDestination (replaced : LinuxNamespaceTombstone) : Accounted (s.replaceDestination t replaced) := by
  refine h.extend ?_ ?_ old_entries
  · intro key hk
    by_cases hsame : key = replaced.key
    · exact .inr (.inr (mem_insert.mpr (.inl hsame)))
    · rcases hk with hns | hc | hd
      · exact .inl (mem_erase.mpr ⟨hsame, hns⟩)
      · refine .inr (.inl ?_)
        unfold WritableState.replaceDestination
        split
        · exact hc
        · exact mem_erase.mpr ⟨hsame, hc⟩
      · exact .inr (.inr (mem_insert.mpr (.inr hd)))
  · refine AllEntries.mono ?_ fun _ _ => .inl
    unfold WritableState.replaceDestination
    dsimp only
    split
    · exact same_entries.erase
    · exact same_entries

lemma placeRenamed {key : CloudItemKey} (nameKey : ParentNameKey)
    {i : LinuxNamespaceItem} (hk : i.item.key = key) : Accounted (s.placeRenamed key nameKey i) := by
  refine h.extend ?_ (old_entries.insert (.inr (.inl ?_))) old_entries
  · intro o ho
    by_cases hsame : o = key
    · exact .inl ((mem_insert _).mpr (.inl hsame))
    · rcases ho with hns | hc | hd
      · exact .inl ((mem_insert _).mpr (.inr hns))
      · exact .inr (.inl hc)
      · exact .inr (.inr (mem_erase.mpr ⟨hsame, hd⟩))
  · exact (mem_insert _).mpr (.inl hk)

lemma publishRename {r : LinuxRenameRequest} {a : LinuxRenameAcceptance} (hk : a.item.item.key = r.key) :
    Accounted (s.publishRename t r a) := by
  have hleft : Accounted (s.leaveName r.oldNameKey a.source) :=
    ⟨h.namespaceItems, h.createdFiles⟩
  unfold WritableState.publishRename
  split
  · exact (hleft.replaceDestination _ _).placeRenamed _ hk
  · exact hleft.placeRenamed _ hk

lemma publishRemove (r : LinuxRemoveRequest) (t : LinuxNamespaceTombstone) : Accounted (s.publishRemove r t) := by
  refine h.extend ?_ ?_ old_entries
  · intro key hk
    by_cases hsame : key = r.key
    · exact .inr (.inr (mem_insert.mpr (.inl hsame)))
    · rcases hk with hns | hc | hd
      · exact .inl (mem_erase.mpr ⟨hsame, hns⟩)
      · exact .inr (.inl hc)
      · exact .inr (.inr (mem_insert.mpr (.inr hd)))
  · unfold WritableState.publishRemove
    split
    · exact old_entries.erase
    · exact old_entries

lemma publishUpsert (upsert : LinuxRemoteUpsert) (nameKey : ParentNameKey) :
    Accounted (s.publishUpsert upsert nameKey) := by
  unfold WritableState.publishUpsert
  split <;> split <;> exact ⟨h.namespaceItems, h.createdFiles⟩

/-- **Every operation keeps the local keys known.** -/
theorem effect {engine : LinuxWritableEngine} {o : LinuxOperation} {an : Except LinuxCloudFilesError Unit}
    (he : engine.Effect s o an s') : Accounted s' := by
  cases he with
  | kept | deleted => exact ⟨h.namespaceItems, h.createdFiles⟩
  | itemRestored => exact h.insertNamespaceItem _ _
  | tombstoneRestored hd =>
    refine h.extend ?_ old_entries old_entries
    intro key hk
    exact hk.imp_right (.imp_right fun hm => hd hm)
  | fileRestored => exact h.insertCreated _ _
  | upserted => exact h.publishUpsert _ _
  | @fileCreated _ _ _ _ _ a r =>
    have huncov : Accounted (s.uncover r.nameKey) :=
      ⟨h.namespaceItems, h.createdFiles⟩
    have hins := huncov.insertCreated a.created r.nameKey
    exact ⟨hins.namespaceItems, hins.createdFiles⟩
  | @directoryCreated _ _ _ _ i r =>
    have huncov : Accounted (s.uncover r.nameKey) :=
      ⟨h.namespaceItems, h.createdFiles⟩
    exact huncov.insertNamespaceItem i r.nameKey
  | renamed _ _ hv _ =>
    obtain ⟨-, hk, -⟩ := validateRenameAcceptance_ok hv
    exact h.publishRename _ hk
  | removed => exact h.publishRemove _ _

end

end Accounted

/-! ## The remote layer by key -/

structure RemoteKeyed (state : WritableState) : Prop where
  keys : Indexes (fun entry => some entry.item.key) (fun inode => state.remoteByInode.lookup inode)
    fun key => state.remoteByKey.lookup key
  inodes : AllEntries (fun inode entry => entry.inodeRecord.inode = inode) state.remoteByInode

lemma remoteKeyed_default : RemoteKeyed .default :=
  ⟨by simp [Indexes, WritableState.default], allEntries_empty⟩

def WritableState.rowsWithout (state : WritableState) (key : CloudItemKey) :
    LinuxInode → Option LinuxRemoteEntry :=
  match state.remoteByKey.lookup key with
  | some inode => update (fun inode => state.remoteByInode.lookup inode) inode none
  | none => fun inode => state.remoteByInode.lookup inode

def WritableState.afterReplaced (state : WritableState) (replaced : Option LinuxRemoteDelete) :
    WritableState :=
  match replaced with
  | some replaced => state.replaceRemote replaced
  | none => state

/-! ### The updates as maps -/

section

variable (st : WritableState)

lemma remoteByInode_replaceRemote (replaced : LinuxRemoteDelete) :
    (fun inode => (st.replaceRemote replaced).remoteByInode.lookup inode) = st.rowsWithout replaced.key := by
  unfold replaceRemote rowsWithout
  cases st.remoteByKey.lookup replaced.key with
  | some inode => exact lookup_erase_fun st.remoteByInode inode
  | none => rfl

variable (u : LinuxRemoteUpsert) (nk : ParentNameKey)

lemma remoteByInode_publishUpsert :
    (fun inode => (st.publishUpsert u nk).remoteByInode.lookup inode) =
      update (fun inode => (st.afterReplaced u.replaced).remoteByInode.lookup inode)
        u.entry.inodeRecord.inode (some u.entry) := by
  unfold publishUpsert afterReplaced
  cases u.previous <;> cases u.replaced <;> exact lookup_insert_fun _ _ _

lemma remoteByKey_publishUpsert : (fun key => (st.publishUpsert u nk).remoteByKey.lookup key) =
    update (fun key => (st.afterReplaced u.replaced).remoteByKey.lookup key)
      u.entry.item.key (some u.entry.inodeRecord.inode) := by
  unfold publishUpsert afterReplaced
  cases u.previous <;> cases u.replaced <;> exact lookup_insert_fun _ _ _

end

namespace RemoteKeyed

variable {stt : WritableState}

/-! ### Removing an item -/

variable {key : CloudItemKey} {ind : LinuxInode} {en : LinuxRemoteEntry} {eg : LinuxWritableEngine}

section

variable (h : RemoteKeyed stt)
include h

lemma of_rowsWithout (hr : stt.rowsWithout key ind = some en) :
    stt.remoteByInode.lookup ind = some en ∧ en.item.key ≠ key := by
  unfold rowsWithout at hr
  cases hkey : stt.remoteByKey.lookup key with
  | some r =>
    rw [hkey] at hr
    by_cases hinode : ind = r
    · rw [hinode] at hr
      cases hr.symm.trans (update_self ..)
    · replace hr := (update_of_ne hinode ..).symm.trans hr
      refine ⟨hr, ?_⟩
      rintro rfl
      exact hinode (some.inj ((h.keys.of_row hr rfl).symm.trans hkey))
  | none =>
    rw [hkey] at hr
    refine ⟨hr, ?_⟩
    rintro rfl
    cases hkey.symm.trans (h.keys.of_row hr rfl)

lemma keys_rowsWithout (key : CloudItemKey) : Indexes (fun en => some en.item.key) (stt.rowsWithout key)
    fun o => (stt.remoteByKey.erase key).lookup o := by
  rw [lookup_erase_fun]
  unfold rowsWithout
  cases hkey : stt.remoteByKey.lookup key with
  | some ind =>
    obtain ⟨en, he, hs⟩ := (h.keys key ind).mp hkey
    refine h.keys.remove ?_ ?_
    · intro o ho
      cases he.symm.trans ho
      exact hs
    · intro o ho
      exact some.inj (ho.symm.trans hkey)
  | none =>
    have hkeys : update (fun o => stt.remoteByKey.lookup o) key none = fun o => stt.remoteByKey.lookup o :=
      update_eq_self_iff.mpr hkey.symm
    rw [hkeys]
    exact h.keys

lemma recordForKey (engine : LinuxWritableEngine) (hns : stt.namespaceByKey.lookup key = none)
    (hc : stt.createdByKey.lookup key = none) (hk : stt.remoteByKey.lookup key = some ind) :
    ∃ r, engine.recordForKey stt key = some r ∧ r.inode = ind := by
  obtain ⟨en, he, -⟩ := (h.keys key ind).mp hk
  refine ⟨en.inodeRecord, ?_, h.inodes _ _ he⟩
  simp [LinuxWritableEngine.recordForKey, hns, hc, hk, he]

lemma remoteByInode_publishDelete {b : CloudFilesBackend} {d : LinuxRemoteDelete} {i : List LinuxInvalidation}
    (hp : eg.prepareRemoteDelete b stt d = .ok i)
    (hrw : ∀ en ∈ stt.remoteByInode.lookup d.inodeRecord.inode, en.item.key = d.key) :
    (fun ind => (stt.publishDelete d).remoteByInode.lookup ind) = stt.rowsWithout d.key := by
  obtain ⟨hv, hns, hc⟩ := prepareRemoteDelete_ok hp
  obtain ⟨-, hr⟩ := validateRemoteDelete_ok hv
  unfold publishDelete rowsWithout
  rw [lookup_erase_fun]
  cases hkey : stt.remoteByKey.lookup d.key with
  | some ind =>
    obtain ⟨r, hf, hi⟩ := h.recordForKey eg hns hc hkey
    cases hr.symm.trans hf
    rw [hi]
  | none =>
    refine update_eq_self_iff.mpr (Eq.symm ?_)
    rw [eq_none_iff_forall_ne_some]
    intro en he
    have hsame := h.keys.of_row he rfl
    rw [hrw en he] at hsame
    cases hkey.symm.trans hsame

lemma of_rows {state' : WritableState} (hr : (fun ind => state'.remoteByInode.lookup ind) = stt.rowsWithout key)
    (hk : state'.remoteByKey = stt.remoteByKey.erase key) : RemoteKeyed state' where
  keys := by
    rw [hr, hk]
    exact h.keys_rowsWithout key
  inodes := by
    intro ind en he
    exact h.inodes ind en (h.of_rowsWithout ((congrFun hr ind).symm.trans he)).1

lemma replaceRemote (replaced : LinuxRemoteDelete) : RemoteKeyed (stt.replaceRemote replaced) :=
  h.of_rows (remoteByInode_replaceRemote stt replaced) rfl

lemma afterReplaced (replaced : Option LinuxRemoteDelete) : RemoteKeyed (stt.afterReplaced replaced) := by
  cases replaced with
  | none => exact h
  | some replaced => exact h.replaceRemote replaced

end

/-! ### Placing an item -/

lemma of_afterReplaced (h : RemoteKeyed stt) (replaced : Option LinuxRemoteDelete) :
    (∀ ind en, (stt.afterReplaced replaced).remoteByInode.lookup ind = some en →
      stt.remoteByInode.lookup ind = some en) ∧
    (∀ key ind, (stt.afterReplaced replaced).remoteByKey.lookup key = some ind →
      stt.remoteByKey.lookup key = some ind) ∧
    ∀ nameKey ind, (stt.afterReplaced replaced).remoteByName.lookup nameKey = some ind →
      stt.remoteByName.lookup nameKey = some ind ∧ ∀ d ∈ replaced, d.nameKey ≠ nameKey := by
  cases replaced with
  | none => exact ⟨fun _ _ h => h, fun _ _ h => h, fun _ _ h => ⟨h, by simp⟩⟩
  | some d =>
    refine ⟨?_, ?_, ?_⟩
    · intro ind en he
      exact (h.of_rowsWithout ((congrFun (remoteByInode_replaceRemote stt d) ind).symm.trans he)).1
    · intro key ind hk
      simp only [WritableState.afterReplaced, WritableState.replaceRemote, lookup_erase_eq] at hk
      split at hk
      · cases hk
      · exact hk
    · intro nameKey ind hn
      simp only [WritableState.afterReplaced, WritableState.replaceRemote, lookup_erase_eq] at hn
      split at hn
      · cases hn
      · rename_i hne
        refine ⟨hn, ?_⟩
        rintro o ⟨⟩ rfl
        exact hne rfl

variable {nameKey : ParentNameKey}

lemma of_publishUpsert {upsert : LinuxRemoteUpsert}
    (he : (stt.publishUpsert upsert nameKey).remoteByInode.lookup ind = some en) :
    (ind = upsert.entry.inodeRecord.inode ∧ en = upsert.entry) ∨
      (stt.afterReplaced upsert.replaced).remoteByInode.lookup ind = some en := by
  have hlook :=
    (congrFun (remoteByInode_publishUpsert stt upsert nameKey) ind).symm.trans he
  by_cases hsame : ind = upsert.entry.inodeRecord.inode
  · rw [hsame, update_self] at hlook
    exact .inl ⟨hsame, (some.inj hlook).symm⟩
  · rw [update_of_ne hsame] at hlook
    exact .inr hlook

lemma publishUpsert (h : RemoteKeyed stt) {upsert : LinuxRemoteUpsert} (nameKey : ParentNameKey)
    (ho : ∀ ind, stt.remoteByKey.lookup upsert.entry.item.key = some ind →
      ind = upsert.entry.inodeRecord.inode)
    (hr : ∀ en, stt.remoteByInode.lookup upsert.entry.inodeRecord.inode = some en →
      en.item.key = upsert.entry.item.key) :
    RemoteKeyed (stt.publishUpsert upsert nameKey) where
  keys := by
    obtain ⟨hsr, hsk, -⟩ := h.of_afterReplaced upsert.replaced
    have hkeys := (h.afterReplaced upsert.replaced).keys.replace (i := upsert.entry.item.key)
      (j := upsert.entry.item.key) (k := upsert.entry.inodeRecord.inode) (v := upsert.entry)
      (fun en he => congrArg some (hr en (hsr _ _ he))) (fun ind hi => ho ind (hsk _ _ hi)) rfl
      (fun ind hi => ho ind (hsk _ _ hi))
    rwa [update_idem, ← remoteByInode_publishUpsert stt upsert nameKey,
      ← remoteByKey_publishUpsert stt upsert nameKey] at hkeys
  inodes := by
    intro ind en he
    rcases of_publishUpsert he with ⟨rfl, rfl⟩ | hl
    · rfl
    · exact (h.afterReplaced upsert.replaced).inodes ind en hl

variable {p : Option LinuxRemoteLocation} {rp : Option LinuxRemoteDelete}

lemma not_knows (hc : eg.checkUpsert stt en p rp nameKey = .ok ()) : ¬ stt.Knows en.item.key := by
  obtain ⟨-, hns, hcr, hd, -⟩ := checkUpsert_ok hc
  rintro (hm | hm | hm)
  · exact lookup_eq_none.mp hns hm
  · exact lookup_eq_none.mp hcr hm
  · exact hd hm

lemma inode_of_checkUpsert (h : RemoteKeyed stt)
    (hc : eg.checkUpsert stt en p rp nameKey = .ok ()) (hk : stt.remoteByKey.lookup en.item.key = some ind) :
    ind = en.inodeRecord.inode := by
  obtain ⟨hv, hns, hcr, -⟩ := checkUpsert_ok hc
  obtain ⟨-, -, -, -, hr⟩ := validateRemoteEntry_ok hv
  obtain ⟨r, hf, rfl⟩ := h.recordForKey eg hns hcr hk
  rw [hr r hf]

lemma key_of_keyForInode (ha : Accounted stt) (hu : ¬ stt.Knows key) (hr : stt.remoteByInode.lookup ind = some en)
    (hk : ∀ e ∈ eg.keyForInode stt ind, e = key) : en.item.key = key := by
  unfold keyForInode overlayItem at hk
  cases hns : stt.namespaceByInode.lookup ind with
  | some i =>
    rw [hns] at hk
    exact absurd (hk _ rfl ▸ ha.namespaceItems _ _ hns) hu
  | none =>
    cases hcreat : stt.createdByInode.lookup ind with
    | some c =>
      rw [hns, hcreat] at hk
      exact absurd (hk _ rfl ▸ ha.createdFiles _ _ hcreat) hu
    | none =>
      rw [hns, hcreat, hr] at hk
      exact hk _ rfl

end RemoteKeyed

end AsterForge.Linux
