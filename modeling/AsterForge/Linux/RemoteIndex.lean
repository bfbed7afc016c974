import AsterForge.Linux.RemoteLayer

/-!
# The remote overlay and its indices

Remote entries are rows under their inodes, with an index by key and one by name.  An upsert may move
an item, replace another and free a name at once; a deletion takes one away.  Both find the item in
the layers, and update the remote indices at the name the change speaks of.

* `RemoteConsistent` — the invariant: both indices are exact, and nothing that lives is marked as
  deleted.
* `Fits` — the condition on a change: the remote indices have its items at the places it speaks of, or
  not at all.
* **`remote_changes_consistent`** — atomic changes, and consistent indices after any sequence of them.
* **`dangling_remote_name`** — a change that does not fit, and what it leaves.
-/

namespace AsterForge.Linux

open AsterForge.Core Library LinuxWritableEngine RemoteKeyed WritableState Option Function List AList

def LinuxRemoteEntry.nameKey (entry : LinuxRemoteEntry) : Option ParentNameKey :=
  entry.item.parentId.map fun parentId => (parentId, entry.item.name)

/-- The three remote maps describe the same items, and no item that lives is marked as deleted. -/
structure RemoteConsistent (state : WritableState) : Prop extends RemoteKeyed state where
  names : Indexes LinuxRemoteEntry.nameKey (fun inode => state.remoteByInode.lookup inode)
    fun nameKey => state.remoteByName.lookup nameKey
  parents : AllEntries (fun _ entry => entry.item.parentId ≠ none) state.remoteByInode
  deletedKeys : AllEntries (fun _ entry => entry.item.key ∉ state.remoteDeletedKeys) state.remoteByInode
  deletedInodes : AllEntries (fun inode _ => inode ∉ state.remoteDeletedInodes) state.remoteByInode

lemma remoteConsistent_default : RemoteConsistent .default :=
  ⟨remoteKeyed_default, by simp [Indexes, WritableState.default], allEntries_empty, allEntries_empty,
    allEntries_empty⟩

/-- The remote indices have an item at the name it is deleted at, or have neither of them, and its
inode is no other item's. -/
structure WritableState.FitsDelete (state : WritableState) (deleted : LinuxRemoteDelete) : Prop where
  name : state.remoteByName.lookup deleted.nameKey = state.remoteByKey.lookup deleted.key
  inode : ∀ entry ∈ state.remoteByInode.lookup deleted.inodeRecord.inode, entry.item.key = deleted.key

/-- **The condition** on a change: the same of the item it deletes or replaces, and of the item it
moves at its previous name. -/
def WritableState.Fits (state : WritableState) : LinuxRemoteChange → Prop
  | .upsert upsert =>
    (∀ location ∈ upsert.previous, state.remoteByName.lookup location.nameKey =
      state.remoteByKey.lookup upsert.entry.item.key) ∧
    ∀ replaced ∈ upsert.replaced, state.FitsDelete replaced
  | .delete deleted => state.FitsDelete deleted

namespace RemoteConsistent

variable {state : WritableState}

/-! ## Removing an item -/

variable {key : CloudItemKey} {s' : WritableState} {d : LinuxRemoteDelete}
    {b : CloudFilesBackend} {i : List LinuxInvalidation} {r : Option LinuxRemoteDelete} {ind : LinuxInode}

variable {nameKey : ParentNameKey}

lemma names_rowsWithout (h : RemoteConsistent state)
    (hn : state.remoteByName.lookup nameKey = state.remoteByKey.lookup key) :
    Indexes LinuxRemoteEntry.nameKey (state.rowsWithout key)
      fun o => (state.remoteByName.erase nameKey).lookup o := by
  rw [lookup_erase_fun]
  unfold rowsWithout
  cases hkey : state.remoteByKey.lookup key with
  | some ind =>
    obtain ⟨e, he, hat⟩ := (h.names nameKey ind).mp (hn.trans hkey)
    refine h.names.remove ?_ ?_
    · intro o ho
      cases he.symm.trans ho
      exact hat
    · intro o ho
      exact some.inj (ho.symm.trans (hn.trans hkey))
  | none =>
    have hnames : update (fun o => state.remoteByName.lookup o) nameKey none =
        fun o => state.remoteByName.lookup o :=
      update_eq_self_iff.mpr (hn.trans hkey).symm
    rw [hnames]
    exact h.names

/-- **Taking an item away** with its entries in both indices, and marking it as deleted. -/
lemma of_rows (h : RemoteConsistent state) (hf : state.FitsDelete d)
    (hr : (fun ind => s'.remoteByInode.lookup ind) = state.rowsWithout d.key)
    (hk : s'.remoteByKey = state.remoteByKey.erase d.key)
    (hn : s'.remoteByName = state.remoteByName.erase d.nameKey)
    (hdk : s'.remoteDeletedKeys = insert d.key state.remoteDeletedKeys) (hdi : s'.remoteDeletedInodes =
      insert d.inodeRecord.inode state.remoteDeletedInodes) : RemoteConsistent s' := by
  have hkept : ∀ ind e, s'.remoteByInode.lookup ind = some e →
      state.remoteByInode.lookup ind = some e ∧ e.item.key ≠ d.key :=
    fun ind e he =>
      h.toRemoteKeyed.of_rowsWithout ((congrFun hr ind).symm.trans he)
  refine ⟨h.toRemoteKeyed.of_rows hr hk, ?_, ?_, ?_, ?_⟩
  · rw [hr, hn]
    exact h.names_rowsWithout hf.name
  · intro ind e he
    exact h.parents ind e (hkept ind e he).1
  · intro ind e he hm
    obtain ⟨hrw, hne⟩ := hkept ind e he
    rw [hdk] at hm
    rcases Finset.mem_insert.mp hm with hs | hm
    · exact hne hs
    · exact h.deletedKeys ind e hrw hm
  · intro ind e he hm
    obtain ⟨hrw, hne⟩ := hkept ind e he
    rw [hdi] at hm
    rcases Finset.mem_insert.mp hm with rfl | hm
    · exact hne (hf.inode e hrw)
    · exact h.deletedInodes ind e hrw hm

variable {eg : LinuxWritableEngine}

/-- **A deletion** keeps the remote layer consistent. -/
theorem publishDelete (h : RemoteConsistent state)

    (hp : eg.prepareRemoteDelete b state d = .ok i)
    (hf : state.FitsDelete d) : RemoteConsistent (state.publishDelete d) :=
  h.of_rows hf (h.toRemoteKeyed.remoteByInode_publishDelete hp hf.inode) rfl rfl rfl rfl

/-- **A replacement** keeps the remote layer consistent. -/
theorem replaceRemote (h : RemoteConsistent state) {replaced : LinuxRemoteDelete}
    (hf : state.FitsDelete replaced) : RemoteConsistent (state.replaceRemote replaced) :=
  h.of_rows hf (remoteByInode_replaceRemote state replaced) rfl rfl rfl rfl

lemma afterReplaced (h : RemoteConsistent state) (hf : ∀ d ∈ r, state.FitsDelete d) :
    RemoteConsistent (state.afterReplaced r) := by
  cases r with
  | none => exact h
  | some d => exact h.replaceRemote (hf d rfl)

/-! ## Placing an item -/

def currentName (upsert : LinuxRemoteUpsert) (nameKey : ParentNameKey) : ParentNameKey :=
  (upsert.previous.map LinuxRemoteLocation.nameKey).getD nameKey

section

variable (st : WritableState) (u : LinuxRemoteUpsert) (nk : ParentNameKey)

/-- The item is taken from its current name and placed at the new one, and what was replaced there is
gone either way. -/
lemma remoteByName_publishUpsert (hr : ∀ r ∈ u.replaced, r.nameKey = nk) :
    (fun o => (st.publishUpsert u nk).remoteByName.lookup o) = update (update
        (fun o => (st.afterReplaced u.replaced).remoteByName.lookup o)
        (currentName u nk) none) nk (some u.entry.inodeRecord.inode) := by
  unfold WritableState.publishUpsert WritableState.afterReplaced currentName
  cases hprev : u.previous <;> cases hreplace : u.replaced <;>
    simp only [WritableState.placeRemote, WritableState.leaveRemoteName, WritableState.replaceRemote,
      lookup_insert_eq, lookup_erase_eq, map_none, map_some, getD_some] <;>
    grind

lemma deleted_publishUpsert : (st.publishUpsert u nk).remoteDeletedKeys =
      (st.afterReplaced u.replaced).remoteDeletedKeys.erase u.entry.item.key ∧
    (st.publishUpsert u nk).remoteDeletedInodes =
      (st.afterReplaced u.replaced).remoteDeletedInodes.erase u.entry.inodeRecord.inode := by
  unfold WritableState.publishUpsert WritableState.afterReplaced
  cases u.previous <;> cases u.replaced <;> exact ⟨rfl, rfl⟩

end

lemma replaced_nameKey {pk : CloudItemKey} {n : String} {t : Option LinuxNode}
    (h : checkTarget key pk n t r = .ok ()) : ∀ d ∈ r, d.nameKey = (pk.itemId, n) := by
  rintro d hd
  cases hd
  cases t with
  | none => cases h
  | some e =>
    simp only [checkTarget, refuse_eq_ok, not_not] at h
    obtain ⟨-, -, -, -, hp, hn⟩ := h
    rw [LinuxRemoteDelete.nameKey, hp, hn]

variable {upsert : LinuxRemoteUpsert}

lemma nameKey_of_checkUpsert (h : RemoteConsistent state)
    (hc : eg.checkUpsert state upsert.entry upsert.previous upsert.replaced nameKey = .ok ())
    {e : LinuxRemoteEntry} (hr : state.remoteByInode.lookup ind = some e)
    (hk : e.item.key = upsert.entry.item.key) : e.nameKey = some (currentName upsert nameKey) := by
  obtain ⟨-, -, -, -, -, -, -, hcr⟩ := checkUpsert_ok hc
  obtain ⟨cp, hp⟩ := ne_none_iff_exists'.mp (h.parents _ _ hr)
  have hindexed : state.remoteByKey.lookup upsert.entry.item.key = some ind :=
    hk ▸ h.keys.of_row hr rfl
  have hat := hcr e (by rw [hindexed]; exact hr) cp hp
  rw [LinuxRemoteEntry.nameKey, hp, map_some, hat]
  rfl

/-- The destination of an upsert has no remote entry but the item's own and the one that is
replaced. -/
lemma destination_of_checkUpsert (h : RemoteConsistent state) (ha : Accounted state)
    (hc : eg.checkUpsert state upsert.entry upsert.previous upsert.replaced nameKey = .ok ())
    (hn : state.remoteByName.lookup nameKey = some ind) :
    ind = upsert.entry.inodeRecord.inode ∨ upsert.replaced ≠ none := by
  obtain ⟨-, -, -, -, -, -, hd, -⟩ := checkUpsert_ok hc
  obtain ⟨en, he, -⟩ := (h.names _ _).mp hn
  replace he : state.remoteByInode.lookup ind = some en := he
  rcases hd ind hn with hk | hk
  · have hfound : ∀ e ∈ eg.keyForInode state ind, e = upsert.entry.item.key := by
      intro e hex
      exact some.inj (hex.symm.trans hk)
    have hsame :=
      key_of_keyForInode ha (not_knows hc) he hfound
    exact .inl (h.toRemoteKeyed.inode_of_checkUpsert hc (hsame ▸ h.keys.of_row he rfl))
  · -- the entry's inode has a key, so there is a replaced item with it
    refine .inr fun hnn => ?_
    rw [hnn] at hk
    unfold keyForInode overlayItem at hk
    split at hk
    · cases hk
    · rename_i habs
      split at habs
      · cases habs
      · split at habs
        · cases habs
        · rw [he] at habs
          cases habs

/-- **An upsert** keeps the remote layer consistent. -/
theorem publishUpsert (h : RemoteConsistent state) (ha : Accounted state) (hp : eg.prepareRemoteUpsert b state upsert = .ok (nameKey, i))
    (hf : state.Fits (.upsert upsert)) : RemoteConsistent (state.publishUpsert upsert nameKey) := by
  obtain ⟨p, pr, t, hpi, hnk, -, -, ht, hc⟩ :=
    prepareRemoteUpsert_ok hp
  obtain ⟨hv, -⟩ := checkUpsert_ok hc
  obtain ⟨-, -, -, hi, -⟩ := validateRemoteEntry_ok hv
  obtain ⟨hmv, hrf⟩ := hf
  have hrepl : ∀ r ∈ upsert.replaced, r.nameKey = nameKey := by
    rw [hnk]
    exact replaced_nameKey ht
  have hclear := h.afterReplaced hrf
  obtain ⟨hsr, -, hsn⟩ := h.toRemoteKeyed.of_afterReplaced upsert.replaced
  have hown : ∀ ind, state.remoteByKey.lookup upsert.entry.item.key = some ind →
      ind = upsert.entry.inodeRecord.inode :=
    fun ind hk => h.toRemoteKeyed.inode_of_checkUpsert hc hk
  have hrow : ∀ e, state.remoteByInode.lookup upsert.entry.inodeRecord.inode = some e →
      e.item.key = upsert.entry.item.key := fun e he =>
    key_of_keyForInode ha (not_knows hc) he hi
  have hfree : ∀ ind, (state.afterReplaced upsert.replaced).remoteByName.lookup nameKey =
      some ind → ind = upsert.entry.inodeRecord.inode := by
    intro ind hn
    obtain ⟨hl, ho⟩ := hsn _ _ hn
    rcases h.destination_of_checkUpsert ha hc hl with hsm | hs
    · exact hsm
    · obtain ⟨r, hs⟩ := ne_none_iff_exists'.mp hs
      exact absurd (hrepl r hs) (ho r hs)
  have hleft : ∀ ind, (state.afterReplaced upsert.replaced).remoteByName.lookup
      (currentName upsert nameKey) = some ind → ind = upsert.entry.inodeRecord.inode := by
    intro ind hn
    unfold currentName at hn
    cases hprev : upsert.previous with
    | none =>
      rw [hprev] at hn
      exact hfree ind hn
    | some l =>
      rw [hprev] at hn
      exact hown ind ((hmv l hprev).symm.trans (hsn _ _ hn).1)
  have hnames := hclear.names.replace (k := upsert.entry.inodeRecord.inode) (v := upsert.entry)
    (fun e he => h.nameKey_of_checkUpsert hc (hsr _ _ he) (hrow e (hsr _ _ he))) hleft
    (by rw [LinuxRemoteEntry.nameKey, hpi, hnk]; rfl) hfree
  rw [← remoteByInode_publishUpsert state upsert nameKey,
    ← remoteByName_publishUpsert state upsert nameKey hrepl] at hnames
  obtain ⟨hdk, hdi⟩ := deleted_publishUpsert state upsert nameKey
  refine ⟨h.toRemoteKeyed.publishUpsert nameKey hown hrow, hnames, ?_, ?_, ?_⟩
  · intro ind e he
    rcases of_publishUpsert he with ⟨rfl, rfl⟩ | hl
    · rw [hpi]
      exact some_ne_none _
    · exact hclear.parents ind e hl
  · intro ind e he hm
    rw [hdk] at hm
    rcases of_publishUpsert he with ⟨rfl, rfl⟩ | hl
    · exact Finset.notMem_erase _ _ hm
    · exact hclear.deletedKeys ind e hl (Finset.mem_of_mem_erase hm)
  · intro ind e he hm
    rw [hdi] at hm
    rcases of_publishUpsert he with ⟨rfl, rfl⟩ | hl
    · exact Finset.notMem_erase _ _ hm
    · exact hclear.deletedInodes ind e hl (Finset.mem_of_mem_erase hm)

def ChangeFits (state : WritableState) : LinuxOperation → Prop
  | .remoteChange _ change => state.Fits change
  | _ => True

/-- **Every operation keeps the remote layer consistent**, the remote changes if they fit. -/
theorem effect (h : RemoteConsistent state) (ha : Accounted state) {o : LinuxOperation}
    {an : Except LinuxCloudFilesError Unit} (he : eg.Effect state o an s') (hf : ChangeFits state o) :
    RemoteConsistent s' := by
  cases he with
  | upserted hp => exact h.publishUpsert ha hp hf
  | deleted hp => exact h.publishDelete hp hf
  | @renamed _ _ _ _ _ _ r a =>
    unfold publishRename
    cases a.replaced <;>
      exact ⟨⟨h.keys, h.inodes⟩, h.names, h.parents, h.deletedKeys, h.deletedInodes⟩
  | _ => exact ⟨⟨h.keys, h.inodes⟩, h.names, h.parents, h.deletedKeys, h.deletedInodes⟩

lemma reachable (h : Reachable (fun s => s = default) (Guarded ChangeFits eg.Step) state) :
    RemoteConsistent state ∧ Accounted state := by
  refine Reachable.induction (I := fun s => RemoteConsistent s ∧ Accounted s) ?_ ?_ h
  · rintro _ rfl
    exact ⟨remoteConsistent_default, accounted_default⟩
  · rintro s o t - ⟨hc, ha⟩ ⟨hf, hs⟩
    obtain ⟨a, he⟩ := exists_effect_of_step hs
    exact ⟨hc.effect ha he hf, ha.effect he⟩

end RemoteConsistent

/-! ## Sequences of remote changes -/

def LinuxRemoteChange.vacated : LinuxRemoteChange → List ParentNameKey
  | .upsert placed =>
    (placed.previous.map LinuxRemoteLocation.nameKey).toList ++
      (placed.replaced.map LinuxRemoteDelete.nameKey).toList
  | .delete deleted => [deleted.nameKey]

/-- The state in a sequence of remote changes, with the names that accepted changes vacated. -/
structure RemoteHistory where
  state : WritableState
  vacated : List ParentNameKey

def RemoteStep (engine : LinuxWritableEngine) (history : RemoteHistory)
    (change : CloudFilesBackend × LinuxRemoteChange) (history' : RemoteHistory) : Prop :=
  match engine.applyRemoteChange change.1 history.state change.2 with
  | (.ok _, state) => history' = ⟨state, change.2.vacated ++ history.vacated⟩
  | (.error _, state) => history' = ⟨state, history.vacated⟩

def WritableState.Covers (state : WritableState) (nameKey : ParentNameKey) : Prop :=
  nameKey ∈ state.remoteTombstonesByName ∨ nameKey ∈ state.remoteByName

variable {s : WritableState}

lemma covers_publishUpsert {p nameKey : ParentNameKey}
    (h : nameKey ∈ (LinuxRemoteChange.upsert upsert).vacated ∨ s.Covers nameKey) :
    (s.publishUpsert upsert p).Covers nameKey := by
  unfold WritableState.Covers LinuxRemoteChange.vacated at h
  unfold WritableState.publishUpsert WritableState.Covers
  cases hprev : upsert.previous <;> cases hrepl : upsert.replaced <;>
    simp only [hprev, hrepl, WritableState.placeRemote, WritableState.leaveRemoteName,
      WritableState.replaceRemote, mem_insert, mem_erase, map_none,
      map_some, toList_none, toList_some, append_nil, nil_append,
      singleton_append, mem_cons, not_mem_nil] at h ⊢ <;>
    tauto

lemma covers_publishDelete {deleted : LinuxRemoteDelete}
    (h : nameKey ∈ (LinuxRemoteChange.delete deleted).vacated ∨ s.Covers nameKey) :
    (s.publishDelete deleted).Covers nameKey := by
  simp only [WritableState.Covers, LinuxRemoteChange.vacated, publishDelete,
    mem_insert, mem_erase, mem_singleton] at h ⊢
  tauto

lemma RemoteConsistent.of_covers (h : RemoteConsistent s) (hc : s.Covers nameKey) :
    s.Tombstoned nameKey ∨ s.overlayAt nameKey ≠ none := by
  rcases hc with ht | hn
  · exact .inl (.inr ht)
  · obtain ⟨inode, hi⟩ := isSome_iff_exists.mp (lookup_isSome.mpr hn)
    obtain ⟨e, he, -⟩ := (h.names _ _).mp hi
    replace he : s.remoteByInode.lookup inode = some e := he
    refine .inr ?_
    unfold overlayAt
    split
    · exact some_ne_none _
    · split
      · exact some_ne_none _
      · rw [hi, bind_some, he]
        exact some_ne_none _

lemma unchanged_of_refused {engine : LinuxWritableEngine} {backend : CloudFilesBackend}
    {state state' : WritableState} {change : LinuxRemoteChange} {e : LinuxCloudFilesError}
    (h : engine.applyRemoteChange backend state change = (.error e, state')) : state' = state := by
  cases change with
  | upsert upsert =>
    simp only [applyRemoteChange, applyRemoteUpsert] at h
    split at h <;> cases h
    rfl
  | delete deleted =>
    simp only [applyRemoteChange, applyRemoteDelete] at h
    split at h <;> cases h
    rfl

structure RemoteHistory.Sound (history : RemoteHistory) : Prop where
  consistent : RemoteConsistent history.state
  accounted : Accounted history.state
  covered : ∀ nameKey ∈ history.vacated, history.state.Covers nameKey

lemma RemoteHistory.Sound.step {engine : LinuxWritableEngine} {hs hs' : RemoteHistory}
    (h : hs.Sound) {change : CloudFilesBackend × LinuxRemoteChange}
    (hf : hs.state.Fits change.2) (hst : RemoteStep engine hs change hs') : hs'.Sound := by
  obtain ⟨backend, change⟩ := change
  have heff := @LinuxWritableEngine.effect_perform engine hs.state (.remoteChange backend change)
  have hcons := h.consistent.effect h.accounted heff hf
  have hacct := h.accounted.effect heff
  unfold RemoteStep at hst
  simp only [perform] at hcons hacct
  cases hres : engine.applyRemoteChange backend hs.state change with
  | mk a state =>
    simp only [hres] at hst hcons hacct
    cases a with
    | error e =>
      obtain rfl := unchanged_of_refused hres
      subst hst
      exact h
    | ok invalidations =>
      subst hst
      refine ⟨hcons, hacct, ?_⟩
      intro nameKey hm
      have hcovers := (mem_append.mp hm).imp_right (h.covered nameKey)
      cases change with
      | upsert upsert =>
        simp only [applyRemoteChange, applyRemoteUpsert] at hres
        split at hres <;> cases hres
        exact covers_publishUpsert hcovers
      | delete deleted =>
        simp only [applyRemoteChange, applyRemoteDelete] at hres
        split at hres <;> cases hres
        exact covers_publishDelete hcovers

/-- **Remote changes.**  From every state that is reached with fitting remote changes, and after every
sequence of fitting remote changes from there: the three maps describe the same items and nothing that
lives is marked as deleted; every name that a change vacated is tombstoned, or an item that lives is
at it; and a change that is refused leaves the state as it is, whether it fits or not. -/
theorem remote_changes_consistent {engine : LinuxWritableEngine} {state : WritableState}
    (hreachable : Reachable (fun s => s = default) (Guarded RemoteConsistent.ChangeFits engine.Step) state)
    {changes : List (CloudFilesBackend × LinuxRemoteChange)} {history : RemoteHistory}
    (hrun : Run (Guarded (fun history change => history.state.Fits change.2) (RemoteStep engine))
      ⟨state, []⟩ changes history) :
    RemoteConsistent history.state ∧ (∀ nameKey ∈ history.vacated,
        history.state.Tombstoned nameKey ∨ history.state.overlayAt nameKey ≠ none) ∧
      ∀ backend change error state',
        engine.applyRemoteChange backend history.state change = (.error error, state') →
          state' = history.state := by
  obtain ⟨hc, ha⟩ := RemoteConsistent.reachable hreachable
  have hs : history.Sound := by
    refine hrun.invariant (I := RemoteHistory.Sound) ?_ ⟨hc, ha, by simp⟩
    rintro _ _ _ hs ⟨hf, hst⟩
    exact hs.step hf hst
  refine ⟨hs.consistent, ?_, fun _ _ _ _ => unchanged_of_refused⟩
  intro nameKey hm
  exact hs.consistent.of_covers (hs.covered nameKey hm)

/-! ## A deletion at an old name -/

section

open SmallMount LinuxWritableEngine

/-- The restored file is now at `x`. -/
def moveWithoutPrevious : LinuxRemoteUpsert :=
  ⟨⟨file "a" "x", record (key "a") (inode 2)⟩, none, none⟩

/-- The restored file is deleted at `a`, where the backend still lists it. -/
def deleteAtOldName : LinuxRemoteDelete :=
  ⟨key "a", record (key "a") (inode 2), key "root", linuxName "a", .file⟩

/-- The two changes, both with a backend that lists the file at `a`. -/
def deleteAfterMove : List LinuxOperation :=
  [.remoteChange (backend [file "a" "a"]) (.upsert moveWithoutPrevious),
    .remoteChange (backend [file "a" "a"]) (.delete deleteAtOldName)]

/-- **A name without an item.**  Both changes are accepted, and then the index by name has an entry at
`x` for which there is no item. -/
theorem dangling_remote_name : engine.ReachableState (engine.after deleteAfterMove) ∧
    (engine.perform .default (.remoteChange (backend [file "a" "a"])
      (.upsert moveWithoutPrevious))).1 = .ok () ∧
    (engine.perform (engine.after (deleteAfterMove.take 1)) (.remoteChange (backend [file "a" "a"])
      (.delete deleteAtOldName))).1 = .ok () ∧
    (engine.after deleteAfterMove).remoteByName.lookup (itemId "root", "x") = some (inode 2) ∧
    (engine.after deleteAfterMove).remoteByInode.lookup (inode 2) = none :=
  ⟨reachableState_after _, by decide, by decide, by decide, by decide⟩

instance (state : WritableState) (deleted : LinuxRemoteDelete) : Decidable (state.FitsDelete deleted) :=
  decidable_of_iff (_ ∧ _) ⟨fun h => ⟨h.1, h.2⟩, fun h => ⟨h.name, h.inode⟩⟩

instance (state : WritableState) : (change : LinuxRemoteChange) → Decidable (state.Fits change)
  | .upsert _ => inferInstanceAs (Decidable (_ ∧ _))
  | .delete deleted => inferInstanceAs (Decidable (state.FitsDelete deleted))

def accept (history : RemoteHistory) (change : CloudFilesBackend × LinuxRemoteChange) : Option RemoteHistory :=
  match engine.applyRemoteChange change.1 history.state change.2 with
  | (.ok _, state) => some ⟨state, change.2.vacated ++ history.vacated⟩
  | (.error _, _) => none

lemma remoteStep_of_accept {s t : RemoteHistory} {change : CloudFilesBackend × LinuxRemoteChange}
    (h : accept s change = some t) : RemoteStep engine s change t := by
  unfold accept at h
  unfold RemoteStep
  split at h <;> simp_all

/-- Two files appear, the first moves over the second, and the restored file is deleted. -/
def fourChanges : List (CloudFilesBackend × LinuxRemoteChange) :=
  [.upsert ⟨⟨file "b" "b", record (key "b") (inode 10)⟩, none, none⟩,
    .upsert ⟨⟨file "c" "c", record (key "c") (inode 11)⟩, none, none⟩,
    .upsert ⟨⟨file "b" "c", record (key "b") (inode 10)⟩, some ⟨key "root", linuxName "b"⟩,
      some ⟨key "c", record (key "c") (inode 11), key "root", linuxName "c", .file⟩⟩,
    .delete deleteAtOldName].map (Prod.mk (backend [file "a" "a"]))

/-- After the four changes the indices agree, and the names `a` and `b` are tombstoned and `c` is not. -/
theorem remote_changes_consistent_fourChanges :
    ∃ history, Run (RemoteStep engine) ⟨default, []⟩ fourChanges history ∧
      history.vacated = [(itemId "root", "a"), (itemId "root", "b"), (itemId "root", "c")] ∧
      RemoteConsistent history.state ∧ ∀ nameKey ∈ history.vacated,
        history.state.Tombstoned nameKey ∨ history.state.overlayAt nameKey ≠ none := by
  have hrun : ((execute (restricted (fun history change => decide (history.state.Fits change.2)) accept)
      ⟨default, []⟩ fourChanges).map RemoteHistory.vacated) =
        some [(itemId "root", "a"), (itemId "root", "b"), (itemId "root", "c")] := by
    decide
  obtain ⟨history, hs, hv⟩ := Option.map_eq_some_iff.mp hrun
  have hguarded : Run (Guarded (fun history change => history.state.Fits change.2) (RemoteStep engine))
      ⟨default, []⟩ fourChanges history := by
    refine (run_of_execute_restricted (fun _ _ hp => of_decide_eq_true hp) hs).mono ?_
    exact fun _ _ _ h => ⟨h.1, remoteStep_of_accept h.2⟩
  have hall := remote_changes_consistent (.of_init rfl) hguarded
  exact ⟨history, hguarded.mono fun _ _ _ h => h.2, hv, hall.1, hall.2.1⟩

end

end AsterForge.Linux
