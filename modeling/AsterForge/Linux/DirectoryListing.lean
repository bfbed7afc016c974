import AsterForge.Linux.Effects
/-!
# Lookups and directory snapshots
A directory snapshot merges the layers in one pass, a lookup asks them one after the other, and what
the overlay does not decide they take from the backend: the snapshot under the records of all layers,
the lookup under those of the restored table.
* **`listed_iff_looked_up`** — snapshot and lookup agree on a name exactly if the lookup's way to the
  backend is open for it.
* **`unlisted_static_child`** — a mount on which they do not.
* **`Listable.of_activate`** — what holds of the overlay of a mount from its activation on.
-/
namespace AsterForge.Linux
open AsterForge.Core Library WritableState List Except
/-! ## The overlay of a directory -/
lemma ParentNameIndex.mem_children {ν : Type} {index : ParentNameIndex ν} {parent : CloudItemId}
    {name : String} {v : ν} : (name, v) ∈ index.children parent ↔ index.lookup (parent, name) = some v := by
  simp only [ParentNameIndex.children, mem_filterMap]
  constructor
  · rintro ⟨⟨⟨id, cn⟩, cv⟩, hm, h⟩
    split at h
    · rename_i hpar
      cases h
      cases hpar
      exact AList.mem_lookup_iff.mpr hm
    · cases h
  · intro h
    exact ⟨⟨(parent, name), v⟩, AList.mem_lookup_iff.mp h, if_pos rfl⟩
namespace WritableState
variable {s : WritableState} {pr : CloudItemId} {n : String} {e : OverlayEntry} {ν : Type}
  {i : ParentNameIndex LinuxInode}
variable (f : LinuxInode → Option ν) {p : ν → OverlayEntry}
lemma mem_layer : (n, e) ∈ (i.children pr).filterMap (fun c =>
      (f c.2).map fun v => (c.1, p v)) ↔
    ((i.lookup (pr, n)).bind f).map p = some e := by
  simp only [mem_filterMap, Prod.exists]
  constructor
  · rintro ⟨cn, c, hm, h⟩
    obtain ⟨v, hv, hp⟩ := Option.map_eq_some_iff.mp h
    cases hp
    rw [ParentNameIndex.mem_children.mp hm, Option.bind_some, hv, Option.map_some]
  · intro h
    obtain ⟨v, hv, rfl⟩ := Option.map_eq_some_iff.mp h
    obtain ⟨c, hc, hf⟩ := Option.bind_eq_some_iff.mp hv
    exact ⟨n, c, ParentNameIndex.mem_children.mpr hc, by rw [hf, Option.map_some]⟩
lemma mem_layer_behind {t : List String} : (n, e) ∈ (i.children pr).filterMap (fun c =>
      if c.1 ∈ t then none else (f c.2).map fun v => (c.1, p v)) ↔
    n ∉ t ∧ ((i.lookup (pr, n)).bind f).map p = some e := by
  rw [← mem_layer f]
  simp only [mem_filterMap, Prod.exists]
  constructor
  · rintro ⟨cn, c, hm, h⟩
    split at h
    · cases h
    · rename_i hf
      have hpair := h
      obtain ⟨v, hv, hn⟩ := Option.map_eq_some_iff.mp h
      cases hn
      exact ⟨hf, _, c, hm, hpair⟩
  · rintro ⟨hf, cn, c, hm, h⟩
    have hpair := h
    obtain ⟨v, hv, hn⟩ := Option.map_eq_some_iff.mp h
    cases hn
    exact ⟨_, c, hm, by rw [if_neg hf]; exact hpair⟩
lemma mem_names {c : List (String × OverlayEntry)} {hl : OverlayEntry → Prop} (h : ∀ e, (n, e) ∈ c ↔ hl e) :
    n ∈ c.map Prod.fst ↔ ∃ e, hl e := by
  simp [h]
/-- **The merged overlay of a directory** holds under a name what a lookup finds there. -/
lemma mem_overlayChildren : (n, e) ∈ s.overlayChildren pr ↔ s.overlayAt (pr, n) = some e := by
  unfold overlayChildren overlayAt
  rw [mem_append, mem_append, mem_layer s.namespaceByInode.lookup,
    mem_layer_behind s.createdByInode.lookup, mem_layer_behind s.remoteByInode.lookup,
    map_append, mem_append, mem_names fun _ => mem_layer_behind s.createdByInode.lookup,
    mem_names fun _ => mem_layer s.namespaceByInode.lookup]
  cases (s.namespaceByName.lookup (pr, n)).bind s.namespaceByInode.lookup with
  | some item => simp
  | none =>
    cases (s.createdByName.lookup (pr, n)).bind s.createdByInode.lookup with
    | some c => simp
    | none => simp
end WritableState
/-! ## What a snapshot lists -/
namespace LinuxWritableEngine
variable {engine : LinuxWritableEngine} {backend : CloudFilesBackend} {state : WritableState}
/-- What a snapshot shows under a name: what the overlay holds there, or else the backend's child
under the record of the first layer that has one. -/
def shownAt (engine : LinuxWritableEngine) (state : WritableState) (children : List CloudItem)
    (nameKey : ParentNameKey) : Option OverlayEntry :=
  match state.overlayAt nameKey with
  | some entry => some entry
  | none =>
    if state.Tombstoned nameKey then none
    else (children.find? fun child => child.name = nameKey.2).bind fun child =>
      (engine.recordForKey state child.key).map fun record => (child, record)
variable {d : LinuxInode} {node : LinuxNode} {children : List CloudItem} {item : CloudItem}
  {sn : LinuxDirectorySnapshot}
lemma directoryItem_key (hn : engine.getattr backend state d none = .ok node) (hi : (match state.overlayItem d with
      | some (item, _) => .ok item
      | none => engine.table.loadItemForOverlay backend d :
        Except LinuxCloudFilesError CloudItem) = .ok item) :
    node.key = item.key ∧ node.kind = .of item.kind := by
  simp only [getattr, bind_eq_ok, exists_unit] at hn
  obtain ⟨-, m, hm, hn⟩ := hn
  have hsame : node.key = m.key ∧ node.kind = m.kind := by
    split at hn <;> cases hn <;> exact ⟨rfl, rfl⟩
  rw [hsame.1, hsame.2]
  cases hover : state.overlayItem d with
  | some entry =>
    simp only [hover] at hm hi
    cases hi
    obtain ⟨hky, -, -, -, hk, -⟩ := nodeFromItemAndRecord_ok hm
    exact ⟨hky, hk⟩
  | none =>
    simp only [hover] at hi
    simp only [hover, LinuxInodeTable.getattr, LinuxInodeTable.nodeFromItem, hi,
      bind_eq_ok, ok.injEq, exists_eq_left', exists_unit] at hm
    obtain ⟨-, r, -, hm⟩ := hm
    obtain ⟨hky, -, -, -, hk, -⟩ := nodeFromItemAndRecord_ok hm
    exact ⟨hky, hk⟩
lemma appendOverlay_spec {r : List LinuxDirectoryEntry} :
    ∀ {o : List (String × OverlayEntry)} {e : List LinuxDirectoryEntry}, appendOverlay e o = .ok r →
      (∀ entry, entry ∈ r ↔ entry ∈ e ∨ ∃ name s node, (name, s) ∈ o ∧
        nodeFromItemAndRecord s.1 s.2 = .ok node ∧ .fromNode name node = entry) ∧
      ∀ name s, (name, s) ∈ o → ∃ node, nodeFromItemAndRecord s.1 s.2 = .ok node
  | [], e, h => by
    cases h
    simp
  | (name, item, record) :: o, e, h => by
    simp only [appendOverlay, bind_eq_ok, exists_unit, refuse_eq_ok] at h
    obtain ⟨-, node, hn, h⟩ := h
    obtain ⟨hmm, hv⟩ := appendOverlay_spec h
    constructor
    · intro entry
      rw [hmm, mem_append, mem_singleton, or_assoc]
      refine or_congr_right ?_
      constructor
      · rintro (rfl | ⟨ot, s, m, ho, hm, rfl⟩)
        · exact ⟨name, (item, record), node, mem_cons_self, hn, rfl⟩
        · exact ⟨ot, s, m, mem_cons_of_mem _ ho, hm, rfl⟩
      · rintro ⟨ot, s, m, ho, hm, rfl⟩
        rcases mem_cons.mp ho with heq | ho
        · cases heq
          cases hn.symm.trans hm
          exact .inl rfl
        · exact .inr ⟨ot, s, m, ho, hm, rfl⟩
    · intro ot s ho
      rcases mem_cons.mp ho with heq | ho
      · cases heq
        exact ⟨node, hn⟩
      · exact hv ot s ho
lemma backendEntries_spec {hd : List String} {e : List LinuxDirectoryEntry}
    (h : engine.backendEntries state hd children = .ok e) : (∀ entry, entry ∈ e ↔ ∃ c ∈ children, c.name ∉ hd ∧
      ∃ r node, engine.recordForKey state c.key = some r ∧
        nodeFromItemAndRecord c r = .ok node ∧ .fromNode c.name node = entry) ∧
    ∀ c ∈ children, c.name ∉ hd → ∃ r node, engine.recordForKey state c.key = some r ∧
        nodeFromItemAndRecord c r = .ok node := by
  obtain ⟨hm, hv⟩ := mem_of_mapM_eq_ok h
  simp only [mem_filter, decide_eq_true_eq, bind_eq_ok, okOr_eq_ok, except_pure, ok.injEq] at hm hv
  constructor
  · intro entry
    rw [hm]
    constructor
    · rintro ⟨c, ⟨hc, hs⟩, r, hr, node, hn, rfl⟩
      exact ⟨c, hc, hs, r, node, hr, hn, rfl⟩
    · rintro ⟨c, hc, hs, r, node, hr, hn, rfl⟩
      exact ⟨c, ⟨hc, hs⟩, r, hr, node, hn, rfl⟩
  · intro c hc hs
    obtain ⟨_, r, hr, node, hn, -⟩ := hv c ⟨hc, hs⟩
    exact ⟨r, node, hr, hn⟩
lemma mem_children_names {ν : Type} {index : ParentNameIndex ν} {parent : CloudItemId}
    {name : String} : name ∈ (index.children parent).map Prod.fst ↔ (parent, name) ∈ index := by
  rw [← AList.lookup_isSome, Option.isSome_iff_exists]
  simp [ParentNameIndex.mem_children]
/-- The tombstoned names that a snapshot leaves out. -/
def hiddenNames (state : WritableState) (parent : CloudItemId) : List String :=
  ((state.tombstonesByName.children parent).map Prod.fst ++
    (state.remoteTombstonesByName.children parent).map Prod.fst).filter
      fun name => name ∉ (state.overlayChildren parent).map Prod.fst
variable {parent : CloudItemId} {name : String}
lemma mem_hiddenNames : name ∈ hiddenNames state parent ↔
    state.overlayAt (parent, name) = none ∧ state.Tombstoned (parent, name) := by
  have hover : name ∉ (state.overlayChildren parent).map Prod.fst ↔
      state.overlayAt (parent, name) = none := by
    rw [mem_names fun _ => mem_overlayChildren, not_exists, Option.eq_none_iff_forall_ne_some]
  rw [hiddenNames, mem_filter, mem_append, mem_children_names, mem_children_names,
    decide_eq_true_iff, hover, and_comm]
  rfl
lemma notMem_hiddenNames_append :
    name ∉ hiddenNames state parent ++ (state.overlayChildren parent).map Prod.fst ↔
      state.overlayAt (parent, name) = none ∧ ¬ state.Tombstoned (parent, name) := by
  rw [mem_append, mem_hiddenNames, mem_names fun _ => mem_overlayChildren]
  cases state.overlayAt (parent, name) with
  | none => simp
  | some entry => simp
variable {entry : OverlayEntry}

lemma mem_shownOverlay :
    (name, entry) ∈ ((state.overlayChildren parent).filter fun c =>
        c.1 ∉ hiddenNames state parent).insertionSort (fun left right => left.1 ≤ right.1) ↔
      state.overlayAt (parent, name) = some entry := by
  rw [mem_insertionSort, mem_filter, decide_eq_true_iff, mem_hiddenNames, mem_overlayChildren]
  constructor
  · rintro ⟨he, -⟩
    exact he
  · intro he
    refine ⟨he, ?_⟩
    rintro ⟨hn, -⟩
    cases hn.symm.trans he
lemma shownAt_eq_some {parent : CloudItemKey}
    (h : ChildrenOf parent children) {nameKey : ParentNameKey} {s : OverlayEntry} :
    engine.shownAt state children nameKey = some s ↔ state.overlayAt nameKey = some s ∨
        state.overlayAt nameKey = none ∧ ¬ state.Tombstoned nameKey ∧
          ∃ c ∈ children, c.name = nameKey.2 ∧
            ∃ r, engine.recordForKey state c.key = some r ∧ (c, r) = s := by
  unfold shownAt
  cases state.overlayAt nameKey with
  | some entry => simp
  | none =>
    by_cases htomb : state.Tombstoned nameKey
    · simp [htomb]
    · simp [Option.bind_eq_some_iff, h.find?_eq_some, and_assoc]
/-- **What an opened snapshot lists** is what it shows under each name, and each of that is there. -/
lemma captureDirectory_spec (h : engine.captureDirectory backend state d = .ok sn) :
    ∃ node children, engine.getattr backend state d none = .ok node ∧
      node.kind = .directory ∧ backend.loadChildrenForOverlay node.key = .ok children ∧
      (∀ entry, entry ∈ sn.entries ↔ ∃ s c,
        engine.shownAt state children (node.key.itemId, entry.name) = some s ∧
        nodeFromItemAndRecord s.1 s.2 = .ok c ∧ .fromNode entry.name c = entry) ∧
      (∀ name s, engine.shownAt state children (node.key.itemId, name) = some s →
        ∃ c, nodeFromItemAndRecord s.1 s.2 = .ok c) ∧
      ∀ c ∈ children, state.overlayAt (node.key.itemId, c.name) = none →
        ¬ state.Tombstoned (node.key.itemId, c.name) → engine.recordForKey state c.key ≠ none := by
  simp only [captureDirectory, bind_eq_ok, exists_unit, refuse_eq_ok, not_not, except_pure, ok.injEq] at h
  obtain ⟨node, hnode, hkind, item, hitem, children, hchil, parent, -, backendPart, hbackend,
    entries, hents, rfl⟩ := h
  obtain ⟨hk, -⟩ := directoryItem_key hnode hitem
  rw [← hk] at hchil
  obtain ⟨hmb, hvb⟩ := backendEntries_spec hbackend
  obtain ⟨hmm, hv⟩ := appendOverlay_spec hents
  have hchildrenOf := loadChildrenForOverlay_spec hchil
  refine ⟨node, children, hnode, hkind, hchil, ?_, ?_, ?_⟩
  · intro entry
    simp only [hmm, hmb, shownAt_eq_some hchildrenOf]
    constructor
    · rintro (⟨c, hc, hs, r, m, hr, hm, rfl⟩ | ⟨name, s, m, hs, hm, rfl⟩)
      · obtain ⟨ho, ht⟩ := notMem_hiddenNames_append.mp hs
        exact ⟨(c, r), m, .inr ⟨ho, ht, c, hc, rfl, r, hr,
          rfl⟩, hm, rfl⟩
      · exact ⟨s, m, .inl (mem_shownOverlay.mp hs), hm, rfl⟩
    · rintro ⟨s, m, ho | ⟨ho, ht, c, hc, hn, r, hr,
        rfl⟩, hm, hentry⟩
      · exact .inr ⟨entry.name, s, m, mem_shownOverlay.mpr ho, hm, hentry⟩
      · rw [← hn] at ho ht hentry
        exact .inl ⟨c, hc, notMem_hiddenNames_append.mpr ⟨ho, ht⟩, r, m, hr, hm, hentry⟩
  · intro name s hs
    rcases (shownAt_eq_some hchildrenOf).mp hs with
      ho | ⟨ho, ht, c, hc, rfl, r, hr, rfl⟩
    · exact hv name s (mem_shownOverlay.mpr ho)
    · obtain ⟨o, m, hot, hm⟩ :=
        hvb c hc (notMem_hiddenNames_append.mpr ⟨ho, ht⟩)
      cases hr.symm.trans hot
      exact ⟨m, hm⟩
  · intro c hc ho ht
    obtain ⟨r, -, hr, -⟩ :=
      hvb c hc (notMem_hiddenNames_append.mpr ⟨ho, ht⟩)
    rw [hr]
    exact Option.some_ne_none r
/-! ## The invariant -/
def RestoredAs (engine : LinuxWritableEngine) (inode : LinuxInode) (key : CloudItemKey) : Prop :=
  ∀ record ∈ engine.table.byInode inode, record.key = key
/-- Every name of the overlay passes the check that a lookup starts with, and what the overlay holds
under a restored inode has its restored key. -/
structure Listable (engine : LinuxWritableEngine) (state : WritableState) : Prop where
  namespaceNames : AllEntries (fun nameKey _ => validateLinuxName nameKey.2 = .ok ()) state.namespaceByName
  createdNames : AllEntries (fun nameKey _ => validateLinuxName nameKey.2 = .ok ()) state.createdByName
  remoteNames : AllEntries (fun nameKey _ => validateLinuxName nameKey.2 = .ok ()) state.remoteByName
  namespaceItems : AllEntries (fun inode item =>
    validateLinuxName item.item.name = .ok () ∧ engine.RestoredAs inode item.item.key)
    state.namespaceByInode
  createdFiles : AllEntries (fun inode created => engine.RestoredAs inode created.item.key)
    state.createdByInode
  remoteEntries : AllEntries (fun inode entry => engine.RestoredAs inode entry.item.key) state.remoteByInode
lemma listable_default : engine.Listable .default :=
  ⟨allEntries_empty, allEntries_empty, allEntries_empty, allEntries_empty, allEntries_empty, allEntries_empty⟩
namespace Listable
variable {ind : LinuxInode} {nk : ParentNameKey} {key : CloudItemKey}
lemma overlayItem_key (h : engine.Listable state)
    (he : state.overlayItem ind = some entry) : engine.RestoredAs ind entry.1.key := by
  unfold overlayItem at he
  split at he
  · rename_i item hitem
    cases he
    exact (h.namespaceItems _ _ hitem).2
  · split at he
    · rename_i created hcreat
      cases he
      exact h.createdFiles _ _ hcreat
    · obtain ⟨r, hr, rfl⟩ := Option.map_eq_some_iff.mp he
      exact h.remoteEntries _ _ hr
lemma overlayAt_name (h : engine.Listable state)
    (he : state.overlayAt nk = some entry) : validateLinuxName nk.2 = .ok () := by
  unfold overlayAt at he
  split at he
  · rename_i item hitem
    obtain ⟨ind, hi, -⟩ := Option.bind_eq_some_iff.mp hitem
    exact h.namespaceNames _ _ hi
  · split at he
    · rename_i created hcreat
      obtain ⟨ind, hi, -⟩ := Option.bind_eq_some_iff.mp hcreat
      exact h.createdNames _ _ hi
    · obtain ⟨r, hr, -⟩ := Option.map_eq_some_iff.mp he
      obtain ⟨ind, hi, -⟩ := Option.bind_eq_some_iff.mp hr
      exact h.remoteNames _ _ hi
variable {it : LinuxNamespaceItem}
section
variable (h : engine.Listable state)
include h
lemma insertNamespaceItem (hn : validateLinuxName nk.2 = .ok ())
    (hi : validateLinuxName it.item.name = .ok ()) (hk : engine.RestoredAs it.inodeRecord.inode it.item.key) :
    engine.Listable (state.insertNamespaceItem it nk) where
  namespaceNames := h.namespaceNames.insert hn
  __ := h
  namespaceItems := h.namespaceItems.insert ⟨hi, hk⟩
lemma insertCreated {c : LinuxCreatedFile} (hn : validateLinuxName nk.2 = .ok ())
    (hk : engine.RestoredAs c.inodeRecord.inode c.item.key) : engine.Listable (state.insertCreated c nk) where
  __ := h
  createdNames := h.createdNames.insert hn
  createdFiles := h.createdFiles.insert hk
lemma placeRemote {entry : LinuxRemoteEntry} (hn : validateLinuxName nk.2 = .ok ())
    (hk : engine.RestoredAs entry.inodeRecord.inode entry.item.key) :
    engine.Listable (state.placeRemote entry nk) where
  __ := h
  remoteNames := h.remoteNames.insert hn
  remoteEntries := h.remoteEntries.insert hk
lemma replaceRemote (r : LinuxRemoteDelete) : engine.Listable (state.replaceRemote r) where
  __ := h
  remoteNames := h.remoteNames.erase
  remoteEntries := by
    unfold WritableState.replaceRemote
    split
    · exact h.remoteEntries.erase
    · exact h.remoteEntries
lemma publishUpsert {u : LinuxRemoteUpsert} (hn : validateLinuxName nk.2 = .ok ())
    (hk : engine.RestoredAs u.entry.inodeRecord.inode u.entry.item.key) :
    engine.Listable (state.publishUpsert u nk) := by
  unfold WritableState.publishUpsert
  cases u.previous with
  | some l =>
    have hleft : engine.Listable (state.leaveRemoteName l) :=
      { h with remoteNames := h.remoteNames.erase }
    dsimp only
    split
    · exact (hleft.replaceRemote _).placeRemote hn hk
    · exact hleft.placeRemote hn hk
  | none =>
    dsimp only
    split
    · exact (h.replaceRemote _).placeRemote hn hk
    · exact h.placeRemote hn hk
lemma replaceDestination (r : LinuxNamespaceTombstone) :
    engine.Listable (state.replaceDestination engine.table r) where
  __ := h
  createdNames := by
    unfold WritableState.replaceDestination
    dsimp only
    split
    · exact h.createdNames.erase
    · exact h.createdNames
  namespaceItems := by
    unfold WritableState.replaceDestination
    dsimp only
    split
    · exact h.namespaceItems.erase
    · exact h.namespaceItems
lemma placeRenamed (hn : validateLinuxName nk.2 = .ok ()) (hi : validateLinuxName it.item.name = .ok ())
    (hk : engine.RestoredAs it.inodeRecord.inode it.item.key) :
    engine.Listable (state.placeRenamed key nk it) where
  namespaceNames := h.namespaceNames.insert hn
  createdNames := by
    unfold WritableState.placeRenamed
    split
    · exact h.createdNames.insert hn
    · exact h.createdNames
  __ := h
  namespaceItems := h.namespaceItems.insert ⟨hi, hk⟩
lemma publishRename {r : LinuxRenameRequest} {a : LinuxRenameAcceptance}
    (hi : validateLinuxName a.item.item.name = .ok ())
    (hk : engine.RestoredAs a.item.inodeRecord.inode a.item.item.key) :
    engine.Listable (state.publishRename engine.table r a) := by
  have hleft : engine.Listable (state.leaveName r.oldNameKey a.source) :=
    { h with namespaceNames := h.namespaceNames.erase, createdNames := h.createdNames.erase }
  unfold WritableState.publishRename
  split
  · exact (hleft.replaceDestination _).placeRenamed r.newName.valid hi hk
  · exact hleft.placeRenamed r.newName.valid hi hk
lemma publishRemove {r : LinuxRemoveRequest} {t : LinuxNamespaceTombstone} :
    engine.Listable (state.publishRemove r t) where
  namespaceNames := h.namespaceNames.erase
  createdNames := h.createdNames.erase
  __ := h
  namespaceItems := by
    unfold WritableState.publishRemove
    split
    · exact h.namespaceItems.erase
    · exact h.namespaceItems
end
lemma restoredAs_of_none (h : engine.table.byInode ind = none) : engine.RestoredAs ind key := by
  intro r hr
  rw [h] at hr
  cases hr
lemma restoredAs_of_keyForInode (h : engine.Listable state)
    (hk : ∀ e ∈ engine.keyForInode state ind, e = key) : engine.RestoredAs ind key := by
  intro r hr
  unfold keyForInode at hk
  cases hentry : state.overlayItem ind with
  | some entry =>
    rw [hentry] at hk
    rw [h.overlayItem_key hentry r hr]
    exact hk _ rfl
  | none =>
    rw [hentry] at hk
    exact hk _ (Option.mem_map_of_mem _ hr)
/-- **One operation keeps the invariant.** -/
theorem effect (h : engine.Listable state) {o : LinuxOperation}
    {a : Except LinuxCloudFilesError Unit} {s' : WritableState}
    (he : engine.Effect state o a s') : engine.Listable s' := by
  cases he with
  | kept => exact { h with }
  | itemRestored hv _ hf =>
    obtain ⟨-, -, -, hn⟩ := validateNamespaceItem_ok hv
    exact h.insertNamespaceItem hn hn (restoredAs_of_none (not_namespaceConflict_none hf).2.1)
  | tombstoneRestored => exact { h with }
  | @fileRestored _ c p hv _ hf =>
    obtain ⟨-, -, hn⟩ := validateCreatedFile_ok hv
    refine h.insertCreated ?_ (restoredAs_of_none (ensureCreatedFileIsUnique_ok hf).2.1)
    unfold recoveredName
    split
    · rename_i it hi
      obtain ⟨ind, -, hi⟩ := Option.bind_eq_some_iff.mp hi
      split
      · exact (h.namespaceItems _ _ hi).1
      · exact hn
    · exact hn
  | upserted hp =>
    obtain ⟨p, -, -, -, rfl, -, -, -, hc⟩ := prepareRemoteUpsert_ok hp
    obtain ⟨hv, -⟩ := checkUpsert_ok hc
    obtain ⟨-, -, hn, hin, -⟩ := validateRemoteEntry_ok hv
    exact h.publishUpsert hn (h.restoredAs_of_keyForInode hin)
  | deleted => exact { h with
      remoteNames := h.remoteNames.erase, remoteEntries := h.remoteEntries.erase }
  | @fileCreated _ _ _ _ _ acc r _ _ _ _ _ _ hf =>
    have huncov : engine.Listable (state.uncover r.nameKey) := { h with }
    have hn : validateLinuxName r.nameKey.2 = .ok () := r.name.valid
    have hins := huncov.insertCreated hn (restoredAs_of_none (ensureCreatedFileIsUnique_ok hf).2.1)
    exact { hins with }
  | @directoryCreated _ _ _ _ it r _ _ _ hv hf =>
    have huncov : engine.Listable (state.uncover r.nameKey) := { h with }
    obtain ⟨-, -, -, hn⟩ := validateNamespaceItem_ok (validateNamespaceCreate_ok hv)
    exact huncov.insertNamespaceItem r.name.valid hn (restoredAs_of_none (not_namespaceConflict_none hf).2.1)
  | renamed _ _ hv hf =>
    obtain ⟨hi, hk, -⟩ := validateRenameAcceptance_ok hv
    obtain ⟨-, -, -, hn⟩ := validateNamespaceItem_ok hi
    refine h.publishRename hn fun rc hr => ?_
    rw [hk]
    exact (not_namespaceConflict_some hf).1 rc hr
  | removed => exact h.publishRemove
theorem reachable (h : engine.ReachableState state) : engine.Listable state := by
  refine Reachable.induction (I := engine.Listable) ?_ ?_ h
  · rintro _ rfl
    exact listable_default
  · intro _ _ _ _ hl hs
    obtain ⟨a, he⟩ := exists_effect_of_step hs
    exact hl.effect he
/-- **A mount that was activated** has a listable overlay, whatever is done on it. -/
theorem of_activate {a : ActivationAnswers} {r : List LinuxRemoteEntry} {o : List LinuxOperation}
    {t : WritableState} (h : engine.activate backend a r = .ok state) (hr : Run engine.Step state o t) :
    engine.ReachableState t ∧ engine.Listable t := by
  obtain ⟨l, hl⟩ := exists_run_of_activate h
  have ht : engine.ReachableState t := ⟨_, _, rfl, hl.append hr⟩
  exact ⟨ht, reachable ht⟩
end Listable
/-! ## Agreement -/
/-- What the read-only lookup finds: the directory, every one of its children and then the child of
the name are restored. -/
lemma table_lookup_ok {t : LinuxInodeTable} {name : String} : t.lookup backend d name = .ok node ↔
    validateLinuxName name = .ok () ∧ ∃ item children c r,
      t.loadItemForOverlay backend d = .ok item ∧ item.kind = .directory ∧
      backend.loadChildrenForOverlay item.key = .ok children ∧ (∀ o ∈ children, t.byKey o.key ≠ none) ∧
      children.find? (fun c => c.name = name) = some c ∧
      validateItemName c = .ok () ∧ t.byKey c.key = some r ∧ nodeFromItemAndRecord c r = .ok node := by
  simp only [LinuxInodeTable.lookup, LinuxInodeTable.loadChildren, LinuxInodeTable.nodeFromItem,
    bind_eq_ok, exists_unit, refuse_eq_ok, okOr_eq_ok, not_not, not_exists, not_and, except_pure, ok.injEq]
  constructor
  · rintro ⟨hn, item, hi, hk, _, ⟨children, hch, hr, rfl⟩, c, hc, hchildName, r, hrec, hnode⟩
    exact ⟨hn, item, _, c, r, hi, hk, hch, hr, hc, hchildName, hrec, hnode⟩
  · rintro ⟨hn, item, children, c, r, hi, hk, hch, hr, hc, hchildName, hrec, hnode⟩
    exact ⟨hn, item, hi, hk, children, ⟨children, hch, hr, rfl⟩, c, hc, hchildName, r, hrec, hnode⟩
lemma looked_up_iff (hnd : engine.getattr backend state d none = .ok node) (hk : node.kind = .directory)
    (entry : LinuxDirectoryEntry) :
    (∃ f, engine.lookup backend state d entry.name = .ok f ∧ .fromNode entry.name f = entry) ↔
      validateLinuxName entry.name = .ok () ∧ ∃ m,
        (match state.overlayAt (node.key.itemId, entry.name) with
          | some (item, record) => nodeFromItemAndRecord item record
          | none =>
            if state.Tombstoned (node.key.itemId, entry.name) then
              .error (.unknownInode d.value)
            else engine.table.lookup backend d entry.name) = .ok m ∧
        .fromNode entry.name m = entry := by
  simp only [lookup, hnd, hk, bind_eq_ok, ok.injEq, exists_unit, refuse_eq_ok,
    exists_eq_left', ne_eq, not_true_eq_false, not_false_eq_true, true_and]
  constructor
  · rintro ⟨f, ⟨hn, m, hm, hs⟩, he⟩
    refine ⟨hn, m, hm, he ▸ ?_⟩
    split at hs <;> cases hs <;> rfl
  · rintro ⟨hn, m, hm, he⟩
    cases hs : state.dirtySnapshots.lookup m.inode with
    | some sn =>
      exact ⟨m.withSize sn.size, ⟨hn, m, hm, by rw [hs]; rfl⟩, he⟩
    | none => exact ⟨m, ⟨hn, m, hm, by rw [hs]; rfl⟩, he⟩
lemma Listable.restored_key (h : engine.Listable state) (hn : engine.getattr backend state d none = .ok node)
    (hi : engine.table.loadItemForOverlay backend d = .ok item) : item.key = node.key := by
  cases hentry : state.overlayItem d with
  | none => exact (directoryItem_key hn (by rw [hentry]; exact hi)).1.symm
  | some entry =>
    obtain ⟨hk, -⟩ : node.key = entry.1.key ∧ node.kind = .of entry.1.kind :=
      directoryItem_key hn (by rw [hentry])
    simp only [LinuxInodeTable.loadItemForOverlay, bind_eq_ok, exists_unit, refuse_eq_ok,
      okOr_eq_ok, not_not, except_pure, ok.injEq] at hi
    obtain ⟨r, hr, _, -, hs, -, rfl⟩ := hi
    rw [hk, hs]
    exact h.overlayItem_key hentry r hr
/-- **The condition.**  Where a snapshot shows a child of the backend under a name, the restored
table alone finds it: it has the directory, a record of every child, and for this child the record
that the overlay gives it. -/
def FoundWithoutOverlay (engine : LinuxWritableEngine) (backend : CloudFilesBackend)
    (state : WritableState) (directory : LinuxInode) (name : String) : Prop :=
  ∀ node children child, engine.getattr backend state directory none = .ok node →
    backend.loadChildrenForOverlay node.key = .ok children → child ∈ children → child.name = name →
    state.overlayAt (node.key.itemId, name) = none → ¬ state.Tombstoned (node.key.itemId, name) →
      (∃ item, engine.table.loadItemForOverlay backend directory = .ok item ∧ item.kind = .directory) ∧
      (∀ other ∈ children, engine.table.byKey other.key ≠ none) ∧
      ∀ record ∈ engine.recordForKey state child.key, ∀ restored ∈ engine.table.byKey child.key,
        record.inode = restored.inode ∧ record.generation = restored.generation
/-- A child of the backend that shows: the read-only lookup finds it as the snapshot lists it exactly
under the condition. -/
lemma found_as_listed_iff (h : engine.Listable state) {m : LinuxNode} {c : CloudItem} {rc : LinuxInodeRecord}
    (hn : engine.getattr backend state d none = .ok node)
    (hch : backend.loadChildrenForOverlay node.key = .ok children) (hc : c ∈ children)
    (hov : state.overlayAt (node.key.itemId, c.name) = none)
    (ht : ¬ state.Tombstoned (node.key.itemId, c.name)) (hrc : engine.recordForKey state c.key = some rc)
    (hm : nodeFromItemAndRecord c rc = .ok m) : (∃ f, engine.table.lookup backend d c.name = .ok f ∧
        LinuxDirectoryEntry.fromNode c.name f = .fromNode c.name m) ↔
      engine.FoundWithoutOverlay backend state d c.name := by
  have hchildrenOf := loadChildrenForOverlay_spec hch
  obtain ⟨hmd, hmr, hmi, hmg, hmk, hcn⟩ :=
    nodeFromItemAndRecord_ok hm
  constructor
  · rintro ⟨f, hf, he⟩ n' ch' c' hn' hch' hc' hnm - -
    cases hn.symm.trans hn'
    cases hch.symm.trans hch'
    obtain ⟨-, item, _, shown, r, hi, hik, hloaded, hr, hshown, -, hrw, hfoundNode⟩ := table_lookup_ok.mp hf
    rw [h.restored_key hn hi] at hloaded
    cases hch.symm.trans hloaded
    -- the enumeration has one child of the name
    have hone : children.find? (fun item => item.name = c.name) = some c :=
      hchildrenOf.find?_eq_some.mpr ⟨hc, rfl⟩
    cases hone.symm.trans hshown
    cases hone.symm.trans (hchildrenOf.find?_eq_some.mpr ⟨hc', hnm⟩)
    refine ⟨⟨item, hi, hik⟩, hr, fun o ho r' hr' => ?_⟩
    cases hrc.symm.trans ho
    cases hrw.symm.trans hr'
    obtain ⟨-, -, hfi, hfg, -, -⟩ := nodeFromItemAndRecord_ok hfoundNode
    obtain ⟨hin, hg, -⟩ := LinuxDirectoryEntry.mk.inj he
    exact ⟨hmi.symm.trans (hin.symm.trans hfi), hmg.symm.trans (hg.symm.trans hfg)⟩
  · intro hcd
    obtain ⟨⟨item, hi, hik⟩, hr, hs⟩ :=
      hcd node children c hn hch hc rfl hov ht
    obtain ⟨r, hrw⟩ := Option.ne_none_iff_exists'.mp (hr c hc)
    obtain ⟨hin, hg⟩ := hs rc hrc r hrw
    obtain ⟨f, hf⟩ :=
      nodeFromItemAndRecord_eq_ok hcn (LinuxInodeTable.mem_of_byKey hrw).1
    obtain ⟨-, -, hfi, hfg, hfk, -⟩ := nodeFromItemAndRecord_ok hf
    refine ⟨f, table_lookup_ok.mpr ⟨hchildrenOf.name c hc, item, children, c, r,
      hi, hik, ?_, hr, hchildrenOf.find?_eq_some.mpr ⟨hc, rfl⟩, hcn, hrw, hf⟩, ?_⟩
    · rw [h.restored_key hn hi, hch]
    · simp [LinuxDirectoryEntry.fromNode, hfi, hfg, hfk, hmi, hmg, hmk, hin, hg]
lemma opened_snapshot {s' : WritableState} {hn : LinuxDirectoryHandle}
    (ho : engine.openDirectory backend state d = .ok (hn, s')) (hs : s'.directorySnapshot d hn = .ok sn) :
    engine.captureDirectory backend state d = .ok sn ∧
      ∃ next, s' = { state with
        next, directories := state.directories.insert hn sn } := by
  obtain ⟨c, next, hc, rfl⟩ := openDirectory_ok ho
  simp only [directorySnapshot, bind_eq_ok, exists_unit, refuse_eq_ok,
    okOr_eq_ok, AList.lookup_insert, Option.some.injEq, exists_eq_left', except_pure, ok.injEq] at hs
  obtain ⟨-, rfl⟩ := hs
  exact ⟨hc, next, rfl⟩
/-- **Snapshots and lookups.**  For every reachable state, every answers of the backend, every
directory that is opened and every name: what the snapshot lists under the name is what a lookup of
the name finds, exactly under the condition. -/
theorem listed_iff_looked_up (hreachable : engine.ReachableState state) {state' : WritableState}
    {directory : LinuxInode} {handle : LinuxDirectoryHandle} {snapshot : LinuxDirectorySnapshot}
    (hopen : engine.openDirectory backend state directory = .ok (handle, state'))
    (hsnapshot : state'.directorySnapshot directory handle = .ok snapshot) (name : String) :
    (∀ entry, entry.name = name → (entry ∈ snapshot.entries ↔
        ∃ found, engine.lookup backend state' directory name = .ok found ∧ .fromNode name found = entry)) ↔
      engine.FoundWithoutOverlay backend state directory name := by
  obtain ⟨hcp, next, rfl⟩ := opened_snapshot hopen hsnapshot
  have hlistable := Listable.reachable hreachable
  obtain ⟨node, children, hnd, hk, hch, hls, hsn, hsr⟩ :=
    captureDirectory_spec hcp
  have hchildrenOf := loadChildrenForOverlay_spec hch
  have hlook : ∀ entry : LinuxDirectoryEntry, entry.name = name →
      ((∃ found, engine.lookup backend { state with
          next, directories := state.directories.insert handle snapshot } directory name = .ok found ∧
          .fromNode name found = entry) ↔
        ∃ found, engine.lookup backend state directory entry.name = .ok found ∧
          .fromNode entry.name found = entry) := by
    rintro entry rfl
    exact Iff.rfl
  by_cases hshows : ∃ c ∈ children, c.name = name ∧ state.overlayAt (node.key.itemId, c.name) = none ∧
      ¬ state.Tombstoned (node.key.itemId, c.name)
  · -- the backend decides: the snapshot lists its child, and the lookup asks the restored table
    obtain ⟨c, hc, rfl, ho, ht⟩ := hshows
    obtain ⟨r, hr⟩ :=
      Option.ne_none_iff_exists'.mp (hsr c hc ho ht)
    have hs : engine.shownAt state children (node.key.itemId, c.name) = some (c, r) :=
      (shownAt_eq_some hchildrenOf).mpr (.inr ⟨ho, ht, c, hc, rfl, r, hr, rfl⟩)
    obtain ⟨m, hm⟩ := hsn _ _ hs
    have hlists : ∀ entry : LinuxDirectoryEntry, entry.name = c.name →
        (entry ∈ snapshot.entries ↔ LinuxDirectoryEntry.fromNode c.name m = entry) := by
      intro entry hn
      rw [hls, hn, hs]
      constructor
      · rintro ⟨_, o, ⟨⟩, hot, he⟩
        cases hm.symm.trans hot
        exact he
      · intro he
        exact ⟨_, m, rfl, hm, he⟩
    have hfinds : ∀ entry : LinuxDirectoryEntry, entry.name = c.name →
        ((∃ found, engine.lookup backend state directory entry.name = .ok found ∧
            .fromNode entry.name found = entry) ↔
          ∃ found, engine.table.lookup backend directory c.name = .ok found ∧
            .fromNode c.name found = entry) := by
      intro entry hn
      rw [looked_up_iff hnd hk, hn, ho, if_neg ht]
      exact and_iff_right (hchildrenOf.name c hc)
    rw [← found_as_listed_iff hlistable hnd hch hc ho ht hr hm]
    constructor
    · intro ha
      exact (hfinds _ rfl).mp ((hlook _ rfl).mp ((ha _ rfl).mp ((hlists _ rfl).mpr rfl)))
    · rintro ⟨found, hf, he⟩ entry hn
      rw [hlists entry hn, hlook entry hn, hfinds entry hn, ← he]
      simp [hf]
  · -- the overlay and its tombstones decide, or there is nothing to find
    refine iff_of_true ?_ ?_
    · rintro entry rfl
      rw [hlook entry rfl, looked_up_iff hnd hk, hls]
      cases ho : state.overlayAt (node.key.itemId, entry.name) with
      | some s =>
        rw [(shownAt_eq_some hchildrenOf).mpr (.inl ho)]
        have hn := hlistable.overlayAt_name ho
        constructor
        · rintro ⟨_, m, ⟨⟩, hm, he⟩
          exact ⟨hn, m, hm, he⟩
        · rintro ⟨-, m, hm, he⟩
          exact ⟨s, m, rfl, hm, he⟩
      | none =>
        refine iff_of_false ?_ ?_
        · rintro ⟨s, -, hs, -⟩
          rcases (shownAt_eq_some hchildrenOf).mp hs with
            hsome | ⟨-, ht, c, hc, hn, -⟩
          · cases ho.symm.trans hsome
          · exact hshows ⟨c, hc, hn, hn ▸ ho, hn ▸ ht⟩
        · rintro ⟨-, m, hm, -⟩
          by_cases ht : state.Tombstoned (node.key.itemId, entry.name)
          · rw [if_pos ht] at hm
            cases hm
          · rw [if_neg ht] at hm
            obtain ⟨-, item, _, c, -, hi, -, hl, -, hc, -⟩ :=
              table_lookup_ok.mp hm
            rw [hlistable.restored_key hnd hi] at hl
            cases hch.symm.trans hl
            obtain ⟨hmm, hn⟩ := hchildrenOf.find?_eq_some.mp hc
            exact hshows ⟨c, hmm, hn, hn ▸ ho, hn ▸ ht⟩
    · intro n' ch' c hnd' hch' hc hn ho ht
      cases hnd.symm.trans hnd'
      cases hch.symm.trans hch'
      subst hn
      exact absurd ⟨c, hc, rfl, ho, ht⟩ hshows
end LinuxWritableEngine
/-! ## A static child that only the snapshot lists -/
section
open SmallMount LinuxWritableEngine
def uploadedBackend : CloudFilesBackend := backend [file "a" "a", directory "d" "d"]
/-- A directory is created, the backend learns of it, and the root directory is opened. -/
def openAfterUpload : List LinuxOperation :=
  [.createDirectory (backend []) linuxRootInode "d" (.ok createdDirectory),
    .openDirectory uploadedBackend linuxRootInode]
/-- **A listed child that no lookup finds.**  The backend lists the restored file beside the created
directory.  The directory is in the overlay and has no restored record, and for that the lookup of the
file fails, which the snapshot lists. -/
theorem unlisted_static_child : engine.ReachableState (engine.after openAfterUpload) ∧
    (engine.after openAfterUpload).directorySnapshot linuxRootInode ⟨1, by decide⟩ =
      .ok ⟨linuxRootInode, linuxRootInode,
        [⟨inode 2, generation, "a", .file⟩, ⟨inode 10, generation, "d", .directory⟩]⟩ ∧
    engine.lookup uploadedBackend (engine.after openAfterUpload) linuxRootInode "a" =
      .error .missingInodeRecord :=
  ⟨reachableState_after _, by decide, by decide⟩
/-- On the mount as it was restored, snapshot and lookup agree on the file. -/
theorem listed_iff_looked_up_restored : ∃ handle state' snapshot,
    engine.openDirectory (backend [file "a" "a"]) (engine.after []) linuxRootInode =
      .ok (handle, state') ∧
    state'.directorySnapshot linuxRootInode handle = .ok snapshot ∧
    ∀ entry, entry.name = "a" → (entry ∈ snapshot.entries ↔
      ∃ found, engine.lookup (backend [file "a" "a"]) state' linuxRootInode "a" = .ok found ∧
        .fromNode "a" found = entry) := by
  have hopened : (engine.openDirectory (backend [file "a" "a"]) (engine.after [])
      linuxRootInode).toOption.map (fun o =>
        o.2.directorySnapshot linuxRootInode o.1) =
      some (.ok ⟨linuxRootInode, linuxRootInode, [⟨inode 2, generation, "a", .file⟩]⟩) := by decide
  have hroot : engine.getattr (backend [file "a" "a"]) (engine.after []) linuxRootInode none =
      .ok ⟨key "root", generation, linuxRootInode, 0, .directory⟩ := by decide
  have hchil : (backend [file "a" "a"]).loadChildrenForOverlay (key "root") =
      .ok [file "a" "a"] := by decide
  cases hopen : engine.openDirectory (backend [file "a" "a"]) (engine.after []) linuxRootInode with
  | error e =>
    rw [hopen] at hopened
    cases hopened
  | ok o =>
    obtain ⟨handle, state'⟩ := o
    rw [hopen] at hopened
    have hsnap := Option.some.inj hopened
    refine ⟨handle, state', _, rfl, hsnap, ?_⟩
    refine (listed_iff_looked_up (reachableState_after []) hopen hsnap "a").mpr ?_
    intro node children c hn hl hc hnm ho ht
    cases hroot.symm.trans hn
    cases hchil.symm.trans hl
    cases mem_singleton.mp hc
    exact ⟨⟨root, by decide, rfl⟩, by decide, by decide⟩
def removedFile : LinuxNamespaceTombstone :=
  ⟨key "a", generation, key "root", linuxName "a", .file, intent "remove" (.delete (key "a"))⟩

/-- A directory and the removal of a file are recovered, and a remote file is restored; it is deleted, and the
root directory is opened. -/
theorem of_activate_layers : ∃ s t,
    engine.activate (backend [file "a" "a"]) ⟨[], [], [createdDirectory], [removedFile]⟩
      [⟨file "c" "c", record (key "c") (inode 11)⟩] = .ok s ∧
    Run engine.Step s [.remoteChange (backend []) (.delete ⟨key "c", record (key "c") (inode 11), key "root",
      linuxName "c", .file⟩), .openDirectory (backend [file "a" "a"]) linuxRootInode] t ∧
    t.directorySnapshot linuxRootInode ⟨1, by decide⟩ =
      .ok ⟨linuxRootInode, linuxRootInode, [⟨inode 10, generation, "d", .directory⟩]⟩ ∧
    engine.ReachableState t ∧ engine.Listable t := by
  have h : engine.activate (backend [file "a" "a"]) ⟨[], [], [createdDirectory], [removedFile]⟩
    [⟨file "c" "c", record (key "c") (inode 11)⟩] = .ok _ := rfl
  exact ⟨_, _, h, run_foldl _ _, by decide, Listable.of_activate h (run_foldl _ _)⟩

end
end AsterForge.Linux
