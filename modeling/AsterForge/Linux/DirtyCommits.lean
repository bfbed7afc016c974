import AsterForge.Linux.Transitions

/-!
# Dirty commits

Store commits complete out of order.  Each is applied to the per-inode dirty snapshot and to the
handle it was made through in one locked section, and the staging session of an open is applied to
the dirty snapshot in another, before the open has its handle.

* `DirtyCommits.apply` — every locked section of opens, commits and releases, with the namespace
  operations in between.  `applied` remembers every snapshot that was ever dirty.
* `DirtyInvariant` — the dirty snapshot is the last of those applied, and handles have theirs among
  them.
* **`dirty_generation_order`** — generations, snapshots and handles in any interleaving.
-/

namespace AsterForge.Linux

open AsterForge.Core Library LinuxWritableEngine WritableState List Option

/-! ## The applications -/

/-- What a commit confirms: written bytes up to an end, a new size, or what is there already. -/
inductive CommitKind
  | write (endExclusive : ℕ)
  | truncate (size : ℕ)
  | sync

def CommitKind.minimumSize : CommitKind → Option ℕ
  | .write endExclusive => some endExclusive
  | .truncate size => some size
  | .sync => none

/-- Whether the snapshot may be the one that is there. -/
def CommitKind.allowSameGeneration : CommitKind → Bool
  | .write _ | .truncate _ => false
  | .sync => true

/-- A commit of the store, on its way to the handle it was made through. -/
structure CommitCall where
  handle : LinuxFileHandle
  inode : LinuxInode
  snapshot : LocalContentSnapshot
  kind : CommitKind

namespace LinuxWritableEngine

variable (engine : LinuxWritableEngine) (state : WritableState)

/-- `item_key`. -/
def itemKey (inode : LinuxInode) : Except LinuxCloudFilesError CloudItemKey :=
  match state.createdByInode.lookup inode with
  | some created => .ok created.item.key
  | none =>
    match state.namespaceByInode.lookup inode with
    | some item => .ok item.item.key
    | none =>
      match state.remoteByInode.lookup inode with
      | some entry => .ok entry.item.key
      | none =>
        okOr (.unknownInode inode.value) ((engine.table.byInode inode).map LinuxInodeRecord.key)

/-- `apply_commit` up to its locked section; the key is read under a lock of its own. -/
def checkCommit (call : CommitCall) : Except LinuxCloudFilesError Unit := do
  let expectedKey ← engine.itemKey state call.inode
  refuse (call.snapshot.itemKey ≠ expectedKey)
    (.invalidBackendResponse "writeback commit returned a different stable item identity")
  refuse (∃ minimum ∈ call.kind.minimumSize, call.snapshot.size < minimum)
    (.invalidBackendResponse "writeback commit size omitted accepted bytes")

def openedSnapshot (inode : LinuxInode) (key : CloudItemKey)
    (session : LinuxWriteSession) (recovered : Bool) :
    Except LinuxCloudFilesError (Option LocalContentSnapshot) := do
  refuse (session.key ≠ key)
    (.invalidBackendResponse "writeback store opened a different stable item identity")
  refuse (session.sessionGeneration ≠ engine.sessionGeneration) (.invalidBackendResponse
      "writeback store opened a session for a different mount generation")
  match session.snapshot with
  | none => do
    refuse (recovered = true) (.invalidBackendResponse
        "recovered writeback session omitted its immutable dirty snapshot")
    return none
  | some snapshot => do
    refuse (snapshot.itemKey ≠ key ∨ snapshot.size ≠ session.size) (.invalidBackendResponse
        "writeback session snapshot did not match its item or logical size")
    refuse (∃ current ∈ state.dirtySnapshots.lookup inode,
        snapshot.generation.value < current.generation.value)
      (.invalidBackendResponse "recovered writeback session regressed the active dirty generation")
    refuse (∃ current ∈ state.dirtySnapshots.lookup inode,
        current.generation = snapshot.generation ∧ current ≠ snapshot)
      (.invalidBackendResponse "one dirty generation identified different immutable snapshots")
    return some snapshot

/-- `validate_opened_session`. -/
def validateOpenedSession (inode : LinuxInode) (key : CloudItemKey)
    (session : LinuxWriteSession) (recovered : Bool) : Except LinuxCloudFilesError Unit × WritableState :=
  match engine.openedSnapshot state inode key session recovered with
  | .error error => (.error error, state)
  | .ok none => (.ok (), state)
  | .ok (some snapshot) =>
    (.ok (), { state with dirtySnapshots := state.dirtySnapshots.insert inode snapshot })

end LinuxWritableEngine

namespace WritableState

/-- The checks of `apply_commit`'s locked section: the file to update, or nothing for a sync that
comes late. -/
def committedFile (state : WritableState) (call : CommitCall) :
    Except LinuxCloudFilesError (Option OpenFile) := do
  let snapshot := call.snapshot
  let allowSame := call.kind.allowSameGeneration
  let file ← okOr .staleHandle (state.files.lookup call.handle)
  refuse (file.inode ≠ call.inode) .staleHandle
  refuse (∃ previous ∈ file.generation, snapshot.generation.value < previous.value ∨
      (allowSame = false ∧ snapshot.generation = previous))
    (.invalidBackendResponse "writeback commit did not advance the immutable local generation")
  match state.dirtySnapshots.lookup call.inode with
  | none => return some file
  | some current => do
    refuse (allowSame = true ∧ snapshot.generation = current.generation ∧ current ≠ snapshot)
      (.invalidBackendResponse "one dirty generation identified different immutable snapshots")
    if snapshot.generation.value < current.generation.value ∨
        (allowSame = false ∧ snapshot.generation = current.generation) then
      if allowSame = true ∧ snapshot.generation.value < current.generation.value then return none
      else
        .error (.invalidBackendResponse
          "writeback commit did not advance the active dirty generation")
    else return some file

/-- The update of `apply_commit`. -/
def publishCommit (state : WritableState) (call : CommitCall) (file : OpenFile) : WritableState :=
  { state with
    files := state.files.insert call.handle
      { file with size := call.snapshot.size, generation := some call.snapshot.generation }
    dirtySnapshots :=
      if ∀ current ∈ state.dirtySnapshots.lookup call.inode,
          current.generation.value ≤ call.snapshot.generation.value then
        state.dirtySnapshots.insert call.inode call.snapshot
      else state.dirtySnapshots }

/-- The locked section of `apply_commit`. -/
def applyCommit (state : WritableState) (call : CommitCall) :
    Except LinuxCloudFilesError Unit × WritableState :=
  match state.committedFile call with
  | .error error => (.error error, state)
  | .ok none => (.ok (), state)
  | .ok (some file) => (.ok (), state.publishCommit call file)

end WritableState

/-! ## The system -/

/-- The engine's state with the opens and commits that are between two of their locked sections. -/
structure DirtyCommits where
  state : WritableState
  opens : List OpenFile
  commits : List CommitCall
  /-- Every snapshot that was ever dirty, with its inode. -/
  applied : List (LinuxInode × LocalContentSnapshot)

def DirtyCommits.initial : DirtyCommits := ⟨.default, [], [], []⟩

/-- One locked section. -/
inductive CommitLabel
  /-- A namespace operation or a recovery. -/
  | operation (operation : LinuxOperation)
  /-- `open_file`, up to the validation of its session. -/
  | openSession (inode : LinuxInode) (key : CloudItemKey) (access : LinuxFileAccess)
      (session : LinuxWriteSession) (recovered : Bool)
  /-- A validated open gets its handle. -/
  | openHandle (index : ℕ)
  /-- A commit arrives, and its key and size are checked. -/
  | beginCommit (call : CommitCall)
  /-- A checked commit is applied. -/
  | applyCommit (index : ℕ)
  /-- `release_file`. -/
  | release (handle : LinuxFileHandle)

def published (before after : WritableState) : List (LinuxInode × LocalContentSnapshot) :=
  after.dirtySnapshots.entries.filterMap fun entry =>
    if before.dirtySnapshots.lookup entry.1 = some entry.2 then none else some (entry.1, entry.2)

namespace DirtyCommits

def record (system : DirtyCommits) (state : WritableState) : DirtyCommits :=
  { system with state, applied := system.applied ++ published system.state state }

/-- What a locked section answers, and the system it leaves; `none` if there is no such section. -/
def apply (engine : LinuxWritableEngine) (system : DirtyCommits) :
    CommitLabel → Option (Except LinuxCloudFilesError Unit × DirtyCommits)
  | .operation operation =>
    let (answer, state) := engine.perform system.state operation
    some (answer, system.record state)
  | .openSession inode key access session recovered =>
    let (answer, state) :=
      engine.validateOpenedSession system.state inode key session recovered
    let opened : OpenFile := ⟨inode, access, session.id, session.size,
      session.snapshot.map LocalContentSnapshot.generation⟩
    let system := system.record state
    match answer with
    | .ok () => some (.ok (), { system with opens := system.opens ++ [opened] })
    | .error error => some (.error error, system)
  | .openHandle index => do
    let opened ← system.opens[index]?
    let system := { system with opens := system.opens.eraseIdx index }
    match system.state.allocate with
    | .error error => some (.error error, system)
    | .ok (handle, state) =>
      some (.ok (), system.record { state with files := state.files.insert handle opened })
  | .beginCommit call =>
    match engine.checkCommit system.state call with
    | .error error => some (.error error, system)
    | .ok () => some (.ok (), { system with commits := system.commits ++ [call] })
  | .applyCommit index => do
    let call ← system.commits[index]?
    let (answer, state) := system.state.applyCommit call
    some (answer, { system with commits := system.commits.eraseIdx index }.record state)
  | .release handle =>
    if handle ∈ system.state.files then
      some (.ok (), system.record { system.state with files := system.state.files.erase handle })
    else some (.error .staleHandle, system)

def Step (engine : LinuxWritableEngine) (system : DirtyCommits) (label : CommitLabel)
    (system' : DirtyCommits) : Prop :=
  ∃ answer, system.apply engine label = some (answer, system')

/-- The systems that locked sections reach in any order. -/
def ReachableSystem (engine : LinuxWritableEngine) (system : DirtyCommits) : Prop :=
  Reachable (fun s => s = initial) (Step engine) system

end DirtyCommits

/-! ## What one section does -/

/-- The dirty snapshots of a later state: the same, or newer ones. -/
def Advances (before after : WritableState) : Prop :=
  ∀ inode, after.dirtySnapshots.lookup inode = before.dirtySnapshots.lookup inode ∨
    ∃ snapshot, after.dirtySnapshots.lookup inode = some snapshot ∧
      ∀ current ∈ before.dirtySnapshots.lookup inode, current.generation.value < snapshot.generation.value

/-- The file has the size and the generation of the dirty snapshot. -/
def CurrentFile (state : WritableState) (file : OpenFile) : Prop :=
  ∃ snapshot, state.dirtySnapshots.lookup file.inode = some snapshot ∧
    file.generation = some snapshot.generation ∧ file.size = snapshot.size

section

variable {en : LinuxWritableEngine} {st s' : WritableState}

lemma Advances.of_eq (h : s'.dirtySnapshots = st.dirtySnapshots) : Advances st s' :=
  fun _ => .inl (by rw [h])

lemma generation_eq {a b : LocalContentGeneration} (h : a.value = b.value) : a = b := by
  cases b
  cases h
  rfl

/-- A snapshot that no current one is newer than, and that no other one shares its generation with,
advances the dirty snapshots. -/
lemma Advances.insert {i : LinuxInode} {s : LocalContentSnapshot}
    (hle : ∀ c ∈ st.dirtySnapshots.lookup i, c.generation.value ≤ s.generation.value)
    (hs : ∀ c ∈ st.dirtySnapshots.lookup i, c.generation = s.generation → c = s)
    (hd : s'.dirtySnapshots = st.dirtySnapshots.insert i s) : Advances st s' := by
  intro o
  rw [hd, lookup_insert_eq]
  split
  case isFalse => exact .inl rfl
  case isTrue heq =>
    subst heq
    cases hcurr : st.dirtySnapshots.lookup o with
    | none => exact .inr ⟨s, rfl, by simp⟩
    | some c =>
      by_cases hequal : c.generation.value = s.generation.value
      · exact .inl (by rw [hs c hcurr (generation_eq hequal)])
      · refine .inr ⟨s, rfl, ?_⟩
        intro o' ho
        cases ho
        exact lt_of_le_of_ne (hle c hcurr) hequal

/-- **An opened session** publishes its snapshot, or is refused and changes nothing. -/
lemma validateOpenedSession_spec (i : LinuxInode) (key : CloudItemKey) (s : LinuxWriteSession) (r : Bool) :
    Advances st (en.validateOpenedSession st i key s r).2 ∧
    (en.validateOpenedSession st i key s r).2.files = st.files ∧
    ((en.validateOpenedSession st i key s r).1 = .ok () → ∀ sn ∈ s.snapshot, sn.size = s.size ∧
        (en.validateOpenedSession st i key s r).2.dirtySnapshots.lookup i = some sn) ∧
    ∀ e, (en.validateOpenedSession st i key s r).1 = .error e →
      (en.validateOpenedSession st i key s r).2 = st := by
  unfold validateOpenedSession
  split
  case h_1 => exact ⟨.of_eq rfl, rfl, by simp, fun _ _ => rfl⟩
  case h_2 ho =>
    refine ⟨.of_eq rfl, rfl, ?_, by simp⟩
    intro _ sn hsn
    simp [openedSnapshot, bind_eq_ok, mem_def.mp hsn] at ho
  case h_3 sn ho =>
    simp only [openedSnapshot, bind_eq_ok, exists_unit] at ho
    obtain ⟨-, -, ho⟩ := ho
    split at ho
    case h_1 =>
      simp [bind_eq_ok] at ho
    case h_2 held hheld =>
      simp only [bind_eq_ok, exists_unit, refuse_eq_ok, except_pure, Except.ok.injEq,
        some.injEq, not_or, not_not] at ho
      obtain ⟨⟨-, hs⟩, hle, hsm, rfl⟩ := ho
      refine ⟨.insert ?_ ?_ rfl, rfl, ?_, by simp⟩
      · intro c hc
        by_contra hlt
        exact hle ⟨c, hc, not_le.mp hlt⟩
      · intro c hc he
        by_contra hne
        exact hsm ⟨c, hc, he, hne⟩
      · intro _ o hot
        cases hheld.symm.trans hot
        exact ⟨hs, by rw [lookup_insert_eq, if_pos rfl]⟩

lemma committedFile_ok {cl : CommitCall} {f : OpenFile} (h : st.committedFile cl = .ok (some f)) :
    f.inode = cl.inode ∧ (∀ c ∈ st.dirtySnapshots.lookup cl.inode,
        c.generation.value ≤ cl.snapshot.generation.value) ∧
      ∀ c ∈ st.dirtySnapshots.lookup cl.inode, c.generation = cl.snapshot.generation → c = cl.snapshot := by
  simp only [committedFile, bind_eq_ok, exists_unit, refuse_eq_ok, okOr_eq_ok, not_not] at h
  obtain ⟨op, -, hi, -, h⟩ := h
  split at h
  case h_1 hnone =>
    cases h
    exact ⟨hi, by simp [hnone], by simp [hnone]⟩
  case h_2 c hcurr =>
    simp only [bind_eq_ok, exists_unit, refuse_eq_ok] at h
    obtain ⟨hs, h⟩ := h
    split at h
    case isTrue =>
      split at h <;> cases h
    case isFalse hnewer =>
      cases h
      rw [not_or, not_lt] at hnewer
      refine ⟨hi, ?_, ?_⟩
      · intro o ho
        cases hcurr.symm.trans ho
        exact hnewer.1
      · intro o ho he
        cases hcurr.symm.trans ho
        by_contra hne
        -- a commit that is no sync has to be newer
        by_cases hsync : cl.kind.allowSameGeneration = true
        · exact hs ⟨hsync, he.symm, hne⟩
        · exact hnewer.2 ⟨Bool.eq_false_iff.mpr hsync, he.symm⟩

/-- **A commit** is published to its handle and to the dirty snapshot, or changes nothing. -/
lemma applyCommit_spec (c : CommitCall) : Advances st (st.applyCommit c).2 ∧
    (∀ hn f, (st.applyCommit c).2.files.lookup hn = some f →
      st.files.lookup hn = some f ∨ CurrentFile (st.applyCommit c).2 f) ∧
    ∀ e, (st.applyCommit c).1 = .error e → (st.applyCommit c).2 = st := by
  unfold applyCommit
  split
  case h_1 => exact ⟨.of_eq rfl, fun _ _ h => .inl h, fun _ _ => rfl⟩
  case h_2 => exact ⟨.of_eq rfl, fun _ _ h => .inl h, by simp⟩
  case h_3 f hfile =>
    obtain ⟨hi, hle, hs⟩ := committedFile_ok hfile
    have hdirty : (st.publishCommit c f).dirtySnapshots =
        st.dirtySnapshots.insert c.inode c.snapshot := if_pos hle
    refine ⟨.insert hle hs hdirty, ?_, by simp⟩
    intro hn o ho
    simp only [publishCommit, lookup_insert_eq] at ho
    split at ho
    case isFalse => exact .inl ho
    case isTrue =>
      cases ho
      refine .inr ⟨c.snapshot, ?_, rfl, rfl⟩
      rw [hdirty, lookup_insert_eq, if_pos hi]

end

/-! ## Namespace operations in between -/

section

variable {eg : LinuxWritableEngine} {stt st' : WritableState}

/-- An update of the namespace leaves files and dirty snapshots alone. -/
structure SameFiles (before after : WritableState) : Prop where
  files : after.files = before.files
  dirtySnapshots : after.dirtySnapshots = before.dirtySnapshots

lemma sameFiles_publishUpsert (u : LinuxRemoteUpsert) (nk : ParentNameKey) :
    SameFiles stt (stt.publishUpsert u nk) := by
  unfold publishUpsert
  cases u.previous <;> cases u.replaced <;> exact ⟨rfl, rfl⟩

lemma sameFiles_publishRename (t : LinuxInodeTable) (r : LinuxRenameRequest) (a : LinuxRenameAcceptance) :
    SameFiles stt (stt.publishRename t r a) := by
  unfold publishRename
  cases a.replaced <;> exact ⟨rfl, rfl⟩

lemma sameFiles_publishRemove (r : LinuxRemoveRequest) (t : LinuxNamespaceTombstone) :
    SameFiles stt (stt.publishRemove r t) := ⟨rfl, rfl⟩

lemma sameFiles_applyRemoteChange (b : CloudFilesBackend) (change : LinuxRemoteChange) :
    SameFiles stt (eg.applyRemoteChange b stt change).2 := by
  cases change with
  | upsert u =>
    simp only [applyRemoteChange, applyRemoteUpsert]
    split
    · exact ⟨rfl, rfl⟩
    · exact sameFiles_publishUpsert u _
  | delete d =>
    simp only [applyRemoteChange, applyRemoteDelete]
    split <;> exact ⟨rfl, rfl⟩

/-- Files and dirty snapshots after a namespace operation or a recovery: a new file has no
generation, and a recovered snapshot is the first one of its inode. -/
structure FramedBy (before after : WritableState) : Prop where
  advances : Advances before after
  files : ∀ handle file, after.files.lookup handle = some file →
    before.files.lookup handle = some file ∨ file.generation = none

lemma FramedBy.of_same (h : SameFiles stt st') : FramedBy stt st' :=
  ⟨.of_eq h.dirtySnapshots, fun hn f hf => .inl (by rwa [h.files] at hf)⟩

lemma framedBy_settle {α : Type} {f : α → WritableState} {r : Except LinuxCloudFilesError α}
    (h : ∀ v, r = .ok v → FramedBy stt (f v)) : FramedBy stt (settle stt f r).2 := by
  cases r with
  | error e => exact .of_same ⟨rfl, rfl⟩
  | ok v => exact h v rfl

open LinuxWritableEngine in
/-- **The frame of the namespace operations.** -/
theorem framedBy_perform (o : LinuxOperation) : FramedBy stt (eg.perform stt o).2 := by
  cases o with
  | restoreNamespaceItem it =>
    refine framedBy_settle fun a h => ?_
    obtain ⟨_, -, -, -, rfl⟩ := restoreNamespaceItem_ok h
    exact .of_same ⟨rfl, rfl⟩
  | restoreTombstone t =>
    refine framedBy_settle fun a h => ?_
    obtain ⟨_, -, rfl⟩ := restoreTombstone_ok h
    exact .of_same ⟨rfl, rfl⟩
  | restoreCreatedFile b cr =>
    refine framedBy_settle fun a h => ?_
    obtain ⟨_, -, -, -, rfl⟩ := restoreCreatedFile_ok h
    exact .of_same ⟨rfl, rfl⟩
  | restoreDirtySnapshot s =>
    refine framedBy_settle fun a h => ?_
    obtain ⟨i, hp, rfl⟩ := restoreDirtySnapshot_ok h
    refine ⟨.insert ?_ (fun c hc _ => hp c hc) rfl, fun _ _ hf => .inl hf⟩
    intro c hc
    rw [hp c hc]
  | remoteChange b change => exact .of_same (sameFiles_applyRemoteChange b change)
  | createFile b p n access answer =>
    cases hres : eg.createFile b stt p n access answer with
    | mk rs a =>
      simp only [perform, hres]
      cases rs with
      | error e =>
        obtain ⟨next, rfl⟩ := createFile_error hres
        exact .of_same ⟨rfl, rfl⟩
      | ok m =>
        obtain ⟨nd, hn⟩ := m
        obtain ⟨_, acc, r, next, -, -, -, -, -, ha⟩ := createFile_ok hres
        obtain ⟨-, -, -, rfl⟩ := acceptCreatedFile_ok ha
        refine ⟨.of_eq rfl, ?_⟩
        intro ot f hf
        simp only [lookup_insert_eq] at hf
        split at hf
        · cases hf
          exact .inr rfl
        · exact .inl hf
  | createDirectory b p n answer =>
    refine framedBy_settle fun m h => ?_
    obtain ⟨nd, a⟩ := m
    obtain ⟨_, it, r, -, -, -, -, -, ha⟩ := createDirectory_ok h
    obtain ⟨-, -, -, rfl⟩ := acceptNamespaceCreate_ok ha
    exact .of_same ⟨rfl, rfl⟩
  | rename b p n np nn nr answer =>
    refine framedBy_settle fun a h => ?_
    obtain ⟨-, -, rfl⟩ | ⟨_, _, r, acc, -, -, -, -, -, ha⟩ := rename_ok h
    · exact .of_same ⟨rfl, rfl⟩
    · obtain ⟨-, -, rfl⟩ := acceptRename_ok.mp ha
      exact .of_same (sameFiles_publishRename _ _ _)
  | remove b p n ek answer =>
    refine framedBy_settle fun a h => ?_
    obtain ⟨_, _, r, t, -, -, -, -, -, -, -, -, rfl⟩ := remove_ok h
    exact .of_same (sameFiles_publishRemove _ _)
  | openDirectory b i =>
    refine framedBy_settle fun op h => ?_
    obtain ⟨hn, a⟩ := op
    obtain ⟨_, _, -, rfl⟩ := openDirectory_ok h
    exact .of_same ⟨rfl, rfl⟩
  | releaseDirectory hn =>
    refine framedBy_settle fun a h => ?_
    simp only [releaseDirectory, bind_eq_ok, exists_unit, except_pure, Except.ok.injEq] at h
    obtain ⟨-, rfl⟩ := h
    exact .of_same ⟨rfl, rfl⟩

end

/-! ## The invariant -/

def BackedFile (applied : List (LinuxInode × LocalContentSnapshot)) (file : OpenFile) : Prop :=
  ∀ generation ∈ file.generation, ∃ snapshot, (file.inode, snapshot) ∈ applied ∧
    snapshot.generation = generation ∧ snapshot.size = file.size

/-- What holds between any two locked sections. -/
structure DirtyInvariant (system : DirtyCommits) : Prop where
  dirty : ∀ inode snapshot, system.state.dirtySnapshots.lookup inode = some snapshot →
    (inode, snapshot) ∈ system.applied
  latest : ∀ inode snapshot, (inode, snapshot) ∈ system.applied →
    ∃ current, system.state.dirtySnapshots.lookup inode = some current ∧
      (snapshot = current ∨ snapshot.generation.value < current.generation.value)
  unique : ∀ inode snapshot snapshot', (inode, snapshot) ∈ system.applied →
    (inode, snapshot') ∈ system.applied → snapshot.generation = snapshot'.generation → snapshot = snapshot'
  files : ∀ handle file, system.state.files.lookup handle = some file → BackedFile system.applied file
  opens : ∀ file ∈ system.opens, BackedFile system.applied file

section

variable {engine : LinuxWritableEngine} {sy : DirtyCommits} {sta : WritableState}

lemma mem_published {b a : WritableState} {i : LinuxInode} {s : LocalContentSnapshot} :
    (i, s) ∈ published b a ↔ a.dirtySnapshots.lookup i = some s ∧ b.dirtySnapshots.lookup i ≠ some s := by
  simp only [published, mem_filterMap]
  constructor
  · rintro ⟨⟨o, h⟩, he, hk⟩
    split at hk
    · cases hk
    · rename_i hnew
      cases hk
      exact ⟨AList.mem_lookup_iff.mpr he, hnew⟩
  · rintro ⟨ha, hb⟩
    exact ⟨⟨i, s⟩, AList.mem_lookup_iff.mp ha, if_neg hb⟩

lemma BackedFile.mono {a a' : List (LinuxInode × LocalContentSnapshot)}
    {f : OpenFile} (h : BackedFile a f) (hs : a ⊆ a') : BackedFile a' f := by
  intro g hg
  obtain ⟨s, hm, hr⟩ := h g hg
  exact ⟨s, hs hm, hr⟩

open DirtyCommits

lemma dirtyInvariant_initial : DirtyInvariant .initial where
  dirty := by simp [initial, WritableState.default]
  latest := by simp [initial]
  unique := by simp [initial]
  files := by simp [initial, WritableState.default]
  opens := by simp [initial]

/-- **The step of the invariant**: dirty snapshots advance, and a file that was not there is backed
by what is dirty now, or has no generation. -/
lemma DirtyInvariant.record (h : DirtyInvariant sy) (ha : Advances sy.state sta)
    (hf : ∀ hn f, sta.files.lookup hn = some f → sy.state.files.lookup hn = some f ∨ f ∈ sy.opens ∨
        f.generation = none ∨ CurrentFile sta f) :
    DirtyInvariant (sy.record sta) := by
  have hdirty : ∀ i s, sta.dirtySnapshots.lookup i = some s → (i, s) ∈ (sy.record sta).applied := by
    intro i s hlk
    by_cases hl : sy.state.dirtySnapshots.lookup i = some s
    · exact mem_append_left _ (h.dirty i s hl)
    · exact mem_append_right _ (mem_published.mpr ⟨hlk, hl⟩)
  have hlatest : ∀ i s, (i, s) ∈ (sy.record sta).applied →
      ∃ c, sta.dirtySnapshots.lookup i = some c ∧ (s = c ∨ s.generation.value < c.generation.value) := by
    intro i s hm
    rcases mem_append.mp hm with hm | hm
    · obtain ⟨old, hl, hls⟩ := h.latest i s hm
      rcases ha i with hsm | ⟨n, hnr, hlt⟩
      · exact ⟨old, hsm.trans hl, hls⟩
      · have holder := hlt old hl
        refine ⟨n, hnr, .inr ?_⟩
        rcases hls with rfl | hls
        · exact holder
        · exact hls.trans holder
    · exact ⟨s, (mem_published.mp hm).1, .inl rfl⟩
  have hsub : sy.applied ⊆ (sy.record sta).applied := subset_append_left _ _
  -- a snapshot that is published is the dirty one, and all others of its inode are older
  have hpubl : ∀ i s s', (i, s) ∈ published sy.state sta → (i, s') ∈ (sy.record sta).applied →
      s.generation = s'.generation → s = s' := by
    intro i s s' hm hm' he
    obtain ⟨c, hc, hls⟩ := hlatest i s' hm'
    cases (mem_published.mp hm).1.symm.trans hc
    rcases hls with rfl | hlt
    · rfl
    · rw [he] at hlt
      exact absurd hlt (lt_irrefl _)
  constructor
  case dirty => exact hdirty
  case latest => exact hlatest
  case unique =>
    intro i s s' hm hm' he
    rcases mem_append.mp hm with hl | hnw
    · rcases mem_append.mp hm' with hl' | hnw'
      · exact h.unique i s s' hl hl' he
      · exact (hpubl i s' s hnw' hm he.symm).symm
    · exact hpubl i s s' hnw hm' he
  case files =>
    intro hn f hfl
    rcases hf hn f hfl with hl | ho | hfr | ⟨s, hlk, hgn, hs⟩
    · exact (h.files hn f hl).mono hsub
    · exact (h.opens f ho).mono hsub
    · intro g hg
      rw [hfr] at hg
      cases hg
    · intro g hg
      cases hgn.symm.trans hg
      exact ⟨s, hdirty _ _ hlk, rfl, hs.symm⟩
  case opens => exact fun f hm => (h.opens f hm).mono hsub

end

/-! ## Runs -/

structure SectionSpec (system : DirtyCommits) (answer : Except LinuxCloudFilesError Unit)
    (system' : DirtyCommits) : Prop where
  advances : Advances system.state system'.state
  applied : system'.applied = system.applied ++ published system.state system'.state
  files : ∀ handle file, system'.state.files.lookup handle = some file →
    system.state.files.lookup handle = some file ∨ file ∈ system.opens ∨
      file.generation = none ∨ CurrentFile system'.state file
  opens : ∀ file ∈ system'.opens, file ∈ system.opens ∨ file.generation = none ∨
    CurrentFile system'.state file
  unchanged : ∀ error, answer = .error error → SameFiles system.state system'.state

section

variable {engine : LinuxWritableEngine} {system system' : DirtyCommits}

lemma published_self (state : WritableState) : published state state = [] := by
  refine eq_nil_iff_forall_not_mem.mpr ?_
  rintro ⟨i, s⟩ hm
  obtain ⟨ha, hb⟩ := mem_published.mp hm
  exact hb ha

variable {answer : Except LinuxCloudFilesError Unit}

lemma SectionSpec.of_state_eq (hs : system'.state = system.state) (ha : system'.applied = system.applied)
    (ho : system'.opens ⊆ system.opens) : SectionSpec system answer system' where
  advances := .of_eq (by rw [hs])
  applied := by rw [hs, published_self, append_nil, ha]
  files handle file hfile := .inl (by rwa [hs] at hfile)
  opens file hfile := .inl (ho hfile)
  unchanged _ _ := ⟨by rw [hs], by rw [hs]⟩

open LinuxWritableEngine in
lemma sameFiles_of_perform_error {state : WritableState} {o : LinuxOperation}
    {e : LinuxCloudFilesError} (h : (engine.perform state o).1 = .error e) :
    SameFiles state (engine.perform state o).2 := by
  have hsettl : ∀ {α : Type} {f : α → WritableState} {r : Except LinuxCloudFilesError α},
      (settle state f r).1 = .error e → SameFiles state (settle state f r).2 := by
    intro α f r h
    cases r with
    | error _ => exact ⟨rfl, rfl⟩
    | ok _ => cases h
  cases o with
  | remoteChange b change => exact sameFiles_applyRemoteChange b change
  | createFile b p n a answer =>
    cases hres : engine.createFile b state p n a answer with
    | mk r af =>
      simp only [perform, hres] at h ⊢
      cases r with
      | error _ =>
        obtain ⟨next, rfl⟩ := createFile_error hres
        exact ⟨rfl, rfl⟩
      | ok _ => cases h
  | _ => exact hsettl h

/-- **What every locked section does.** -/
theorem sectionSpec_apply {l : CommitLabel} (hs : system.apply engine l = some (answer, system')) :
    SectionSpec system answer system' := by
  cases l with
  | operation o =>
    cases hs
    obtain ⟨ha, hfl⟩ := @framedBy_perform engine system.state o
    refine ⟨ha, rfl, ?_, fun f hf => .inl hf, ?_⟩
    · intro hn f hf
      rcases hfl hn f hf with hl | hfr
      · exact .inl hl
      · exact .inr (.inr (.inl hfr))
    · intro e he
      exact sameFiles_of_perform_error he
  | openSession ind key a s r =>
    obtain ⟨ha, hfl, ho, hu⟩ :=
      @validateOpenedSession_spec engine system.state ind key s r
    cases hres : engine.validateOpenedSession system.state ind key s r with
    | mk rs state =>
      simp only [hres] at ha hfl ho hu
      simp only [DirtyCommits.apply, hres] at hs
      cases rs with
      | error e =>
        cases hs
        cases hu e rfl
        exact ⟨ha, rfl, fun _ _ h => .inl h, fun _ h => .inl h, fun _ _ => ⟨rfl, rfl⟩⟩
      | ok _ =>
        cases hs
        refine ⟨ha, rfl, fun _ _ h => .inl (hfl ▸ h), ?_, by simp⟩
        intro f hf
        rcases mem_append.mp hf with hl | hnw
        · exact .inl hl
        · rw [mem_singleton.mp hnw]
          cases hsnap : s.snapshot with
          | none => exact .inr (.inl rfl)
          | some sn =>
            obtain ⟨hsz, hd⟩ := ho rfl sn hsnap
            exact .inr (.inr ⟨sn, hd, rfl, hsz.symm⟩)
  | openHandle i =>
    obtain ⟨op, hg, hs⟩ := bind_eq_some_iff.mp hs
    have hsub : system.opens.eraseIdx i ⊆ system.opens := eraseIdx_subset
    cases halloc : system.state.allocate with
    | error e =>
      simp only [halloc] at hs
      cases hs
      exact .of_state_eq rfl rfl hsub
    | ok t =>
      simp only [halloc] at hs
      cases hs
      rw [allocate_ok halloc]
      refine ⟨.of_eq rfl, rfl, ?_, fun f hf => .inl (hsub hf), by simp⟩
      intro ot f hf
      simp only [DirtyCommits.record, lookup_insert_eq] at hf
      split at hf
      · cases hf
        exact .inr (.inl (mem_of_getElem? hg))
      · exact .inl hf
  | beginCommit c =>
    simp only [DirtyCommits.apply] at hs
    split at hs <;> cases hs <;> exact .of_state_eq rfl rfl (List.Subset.refl _)
  | applyCommit i =>
    obtain ⟨c, hg, hs⟩ := bind_eq_some_iff.mp hs
    obtain ⟨ha, hfl, hu⟩ := @applyCommit_spec system.state c
    cases hs
    refine ⟨ha, rfl, ?_, fun f hf => .inl hf, ?_⟩
    · intro hn f hf
      rcases hfl hn f hf with hl | hc
      · exact .inl hl
      · exact .inr (.inr (.inr hc))
    · intro e he
      have hstate : (system.state.applyCommit c).2 = system.state := hu e he
      exact ⟨congrArg files hstate, congrArg dirtySnapshots hstate⟩
  | release hn =>
    simp only [DirtyCommits.apply] at hs
    split at hs
    · cases hs
      refine ⟨.of_eq rfl, rfl, ?_, fun f hf => .inl hf, by simp⟩
      intro ot f hf
      simp only [DirtyCommits.record, lookup_erase_eq] at hf
      split at hf
      · cases hf
      · exact .inl hf
    · cases hs
      exact .of_state_eq rfl rfl (List.Subset.refl _)

/-- **Every locked section keeps the invariant.** -/
theorem DirtyInvariant.step (h : DirtyInvariant system)
    (hs : SectionSpec system answer system') : DirtyInvariant system' := by
  have hrec := h.record hs.advances hs.files
  constructor
  case dirty => rw [hs.applied]; exact hrec.dirty
  case latest => rw [hs.applied]; exact hrec.latest
  case unique => rw [hs.applied]; exact hrec.unique
  case files => rw [hs.applied]; exact hrec.files
  case opens =>
    intro f hfl
    rw [hs.applied]
    rcases hs.opens f hfl with hd | hf | ⟨s, hl, hgn, hsz⟩
    · exact hrec.opens f hd
    · intro g hg
      rw [hf] at hg
      cases hg
    · intro g hg
      cases hgn.symm.trans hg
      exact ⟨s, hrec.dirty _ _ hl, rfl, hsz.symm⟩

lemma DirtyInvariant.reachable (h : DirtyCommits.ReachableSystem engine system) : DirtyInvariant system :=
  Reachable.induction (I := DirtyInvariant) (by rintro _ rfl; exact dirtyInvariant_initial)
    (fun _ _ _ _ hi ⟨_, hs⟩ => hi.step (sectionSpec_apply hs)) h

lemma Advances.generation_le {b a : WritableState} (h : Advances b a)
    {i : LinuxInode} {s : LocalContentSnapshot} (hl : b.dirtySnapshots.lookup i = some s) :
    ∃ s', a.dirtySnapshots.lookup i = some s' ∧ s.generation.value ≤ s'.generation.value := by
  rcases h i with hs | ⟨n, hn, hlt⟩
  · exact ⟨s, hs.trans hl, le_rfl⟩
  · exact ⟨n, hn, (hlt s hl).le⟩

/-- **Dirty generations in any interleaving** of opens, writes, truncations, syncs and releases, with
namespace operations in between.  No section takes the dirty generation of an inode back; no two
snapshots applied to an inode share a generation; a handle with a generation has it, and its size,
from one applied snapshot that is not newer than the dirty one; and a section that answers with an
error leaves handles and dirty snapshots as they are. -/
theorem dirty_generation_order (h : DirtyCommits.ReachableSystem engine system) :
    (∀ label answer system', system.apply engine label = some (answer, system') →
      (∀ inode snapshot, system.state.dirtySnapshots.lookup inode = some snapshot →
        ∃ snapshot', system'.state.dirtySnapshots.lookup inode = some snapshot' ∧
          snapshot.generation.value ≤ snapshot'.generation.value) ∧
      ∀ error, answer = .error error → system'.state.files = system.state.files ∧
          system'.state.dirtySnapshots = system.state.dirtySnapshots) ∧
    (∀ inode snapshot, system.state.dirtySnapshots.lookup inode = some snapshot →
      (inode, snapshot) ∈ system.applied) ∧
    (∀ inode snapshot snapshot', (inode, snapshot) ∈ system.applied →
      (inode, snapshot') ∈ system.applied → snapshot.generation = snapshot'.generation →
      snapshot = snapshot') ∧
    ∀ handle file generation, system.state.files.lookup handle = some file →
      file.generation = some generation →
      ∃ snapshot current, (file.inode, snapshot) ∈ system.applied ∧
        snapshot.generation = generation ∧ snapshot.size = file.size ∧
        system.state.dirtySnapshots.lookup file.inode = some current ∧
        generation.value ≤ current.generation.value := by
  have hinv := DirtyInvariant.reachable h
  refine ⟨?_, hinv.dirty, hinv.unique, ?_⟩
  · intro label answer system' hs
    have hsect := sectionSpec_apply hs
    refine ⟨fun inode snapshot hl => hsect.advances.generation_le hl, ?_⟩
    intro error he
    obtain ⟨hf, hd⟩ := hsect.unchanged error he
    exact ⟨hf, hd⟩
  · intro handle file generation hfl hg
    obtain ⟨snapshot, hm, rfl, hsz⟩ := hinv.files handle file hfl generation hg
    obtain ⟨current, hc, hls⟩ := hinv.latest _ snapshot hm
    refine ⟨snapshot, current, hm, rfl, hsz, hc, ?_⟩
    rcases hls with rfl | hlt
    · exact le_rfl
    · exact hlt.le

end

/-! ## Commits out of order -/

section

open SmallMount

/-- A snapshot of the file `a`. -/
def snapshotOf (generation size : ℕ) (nonzero : 0 < generation := by decide)
    (le_max : generation ≤ u64Max := by decide) (size_le : size ≤ u64Max := by decide) :
    LocalContentSnapshot :=
  ⟨key "a", ⟨generation, nonzero, le_max⟩, ⟨"bytes", by decide⟩, size, none, size_le⟩

/-- Two handles of one file.  The second write of the store is applied first, the first write comes
too late, and so does a sync of it. -/
def commitsOutOfOrder : List CommitLabel :=
  let session : LinuxWriteSession := ⟨⟨"session", by decide⟩, key "a", 0, SmallMount.session, none⟩
  [.openSession (inode 2) (key "a") .write session false,
    .openSession (inode 2) (key "a") .write session false, .openHandle 0, .openHandle 0,
    .beginCommit ⟨⟨1, Nat.one_pos⟩, inode 2, snapshotOf 1 4, .write 4⟩,
    .beginCommit ⟨⟨2, Nat.two_pos⟩, inode 2, snapshotOf 2 8, .write 8⟩,
    .beginCommit ⟨⟨2, Nat.two_pos⟩, inode 2, snapshotOf 2 8, .sync⟩,
    .applyCommit 1, .applyCommit 0, .applyCommit 0]

/-- The handle of the second write has the dirty snapshot, whatever came later. -/
theorem dirty_generation_order_outOfOrder : ∃ system snapshot current,
    execute (fun system label => (DirtyCommits.apply engine system label).map Prod.snd) .initial
      commitsOutOfOrder = some system ∧
    (inode 2, snapshot) ∈ system.applied ∧ snapshot.generation.value = 2 ∧ snapshot.size = 8 ∧
    system.state.dirtySnapshots.lookup (inode 2) = some current ∧
    2 ≤ current.generation.value := by
  have hrun : (execute (fun system label => (DirtyCommits.apply engine system label).map Prod.snd)
      .initial commitsOutOfOrder).bind (fun system =>
        (system.state.files.lookup ⟨2, by decide⟩).map fun f =>
          (f.inode, f.generation, f.size)) =
        some (inode 2, some ⟨2, by decide, by decide⟩, 8) := by
    decide
  simp only [bind_eq_some_iff, map_eq_some_iff, Prod.mk.injEq] at hrun
  obtain ⟨system, hs, f, hfl, hi, hg, hsz⟩ := hrun
  have hsteps : ∀ s label t,
      (DirtyCommits.apply engine s label).map Prod.snd = some t → DirtyCommits.Step engine s label t := by
    intro s label t h
    obtain ⟨⟨answer, _⟩, hst, rfl⟩ := map_eq_some_iff.mp h
    exact ⟨answer, hst⟩
  have hreach : DirtyCommits.ReachableSystem engine system :=
    ⟨_, _, rfl, (run_of_execute hs).mono hsteps⟩
  obtain ⟨-, -, -, hf⟩ := dirty_generation_order hreach
  obtain ⟨snapshot, current, hm, hgn, hsn, hc, hle⟩ := hf _ f _ hfl hg
  rw [hi] at hm hc
  exact ⟨system, snapshot, current, hs, hm, by rw [hgn], hsn.trans hsz, hc, hle⟩

end

end AsterForge.Linux
