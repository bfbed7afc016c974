import AsterForge.Library.Runs
import AsterForge.Linux.LocalMutation

/-!
# The engine as a system

One step of the engine is one operation with the answers it got: of the backend, and of the store.
Runs start with nothing in memory.  Recoveries are steps like the others, so a run may restore where
the engine only does so before its mount is exposed; what holds in every run holds in the engine's.

* **`reachableState_after`** — what a list of operations leaves is reached.
* **`exists_run_of_activate`** — an activation is a run.
-/

namespace AsterForge.Linux

open AsterForge.Core Library

inductive LinuxOperation
  | restoreNamespaceItem (item : LinuxNamespaceItem)
  | restoreTombstone (tombstone : LinuxNamespaceTombstone)
  | restoreCreatedFile (backend : CloudFilesBackend) (created : LinuxCreatedFile)
  | restoreDirtySnapshot (snapshot : LocalContentSnapshot)
  | remoteChange (backend : CloudFilesBackend) (change : LinuxRemoteChange)
  | createFile (backend : CloudFilesBackend) (parent : LinuxInode) (name : String) (access : LinuxFileAccess)
      (answer : LinuxWritableEngine.StoreAnswer LinuxCreateFileAcceptance)
  | createDirectory (backend : CloudFilesBackend) (parent : LinuxInode) (name : String)
      (answer : LinuxWritableEngine.StoreAnswer LinuxNamespaceItem)
  | rename (backend : CloudFilesBackend) (parent : LinuxInode) (name : String)
      (newParent : LinuxInode) (newName : String) (noReplace : Bool)
      (answer : LinuxWritableEngine.StoreAnswer LinuxRenameAcceptance)
  | remove (backend : CloudFilesBackend) (parent : LinuxInode) (name : String) (expectedKind : LinuxNodeKind)
      (answer : LinuxWritableEngine.StoreAnswer LinuxNamespaceTombstone)
  | openDirectory (backend : CloudFilesBackend) (inode : LinuxInode)
  | releaseDirectory (handle : LinuxDirectoryHandle)

/-- The answer of an operation that changes nothing when it fails, with the state it leaves. -/
def settle {α : Type} (state : WritableState) (f : α → WritableState) :
    Except LinuxCloudFilesError α → Except LinuxCloudFilesError Unit × WritableState
  | .ok value => (.ok (), f value)
  | .error error => (.error error, state)

namespace LinuxWritableEngine

variable (engine : LinuxWritableEngine)

def perform (state : WritableState) : LinuxOperation → Except LinuxCloudFilesError Unit × WritableState
  | .restoreNamespaceItem item => settle state id (engine.restoreNamespaceItem state item)
  | .restoreTombstone tombstone => settle state id (engine.restoreTombstone state tombstone)
  | .restoreCreatedFile backend created =>
    settle state id (engine.restoreCreatedFile backend state created)
  | .restoreDirtySnapshot snapshot => settle state id (engine.restoreDirtySnapshot state snapshot)
  | .remoteChange backend change =>
    let (answer, state) := engine.applyRemoteChange backend state change
    (answer.map fun _ => (), state)
  | .createFile backend parent name access answer =>
    let (answer, state) := engine.createFile backend state parent name access answer
    (answer.map fun _ => (), state)
  | .createDirectory backend parent name answer =>
    settle state Prod.snd (engine.createDirectory backend state parent name answer)
  | .rename backend parent name newParent newName noReplace answer =>
    settle state id (engine.rename backend state parent name newParent newName noReplace answer)
  | .remove backend parent name expectedKind answer =>
    settle state id (engine.remove backend state parent name expectedKind answer)
  | .openDirectory backend inode =>
    settle state Prod.snd (engine.openDirectory backend state inode)
  | .releaseDirectory handle => settle state id (state.releaseDirectory handle)

def Step (state : WritableState) (operation : LinuxOperation) (state' : WritableState) : Prop :=
  (engine.perform state operation).2 = state'

def ReachableState (state : WritableState) : Prop :=
  Reachable (fun s => s = WritableState.default) engine.Step state

def after (operations : List LinuxOperation) : WritableState :=
  operations.foldl (fun state operation => (engine.perform state operation).2) .default

variable {engine}

lemma run_foldl : ∀ (o : List LinuxOperation) (s : WritableState), Run engine.Step s o
      (o.foldl (fun s op => (engine.perform s op).2) s)
  | [], s => .nil s
  | _ :: o, _ => .cons rfl (run_foldl o _)

/-- **What is executed is reached.** -/
theorem reachableState_after (o : List LinuxOperation) : engine.ReachableState (engine.after o) :=
  ⟨_, _, rfl, run_foldl o _⟩

lemma exists_run_of_foldlM {α : Type} {f : WritableState → α → Except LinuxCloudFilesError WritableState}
    (lb : α → LinuxOperation) (hs : ∀ s a s', f s a = .ok s' → engine.Step s (lb a) s') :
    ∀ {i : List α} {s s' : WritableState}, i.foldlM f s = .ok s' → ∃ l, Run engine.Step s l s'
  | [], s, s', h => by
    cases h
    exact ⟨[], .nil s⟩
  | a :: i, s, s', h => by
    rw [List.foldlM_cons, bind_eq_ok] at h
    obtain ⟨next, hn, hr⟩ := h
    obtain ⟨l, hl⟩ := exists_run_of_foldlM lb hs hr
    exact ⟨_, .cons (hs _ _ _ hn) hl⟩

lemma step_of_settle {α : Type} {s : WritableState} {f : α → WritableState}
    {r : Except LinuxCloudFilesError α} {v : α} (h : r = .ok v) : (settle s f r).2 = f v := by
  rw [h, settle]

/-- **An activation is a run** from an empty memory. -/
theorem exists_run_of_activate {b : CloudFilesBackend} {a : ActivationAnswers}
    {re : List LinuxRemoteEntry} {s : WritableState} (h : engine.activate b a re = .ok s) :
    ∃ l, Run engine.Step .default l s := by
  simp only [activate, bind_eq_ok] at h
  obtain ⟨i, hi, t, ht, r, hr, c, hc, hd⟩ := h
  obtain ⟨l₁, h₁⟩ := exists_run_of_foldlM .restoreNamespaceItem (fun _ _ _ => step_of_settle) hi
  obtain ⟨l₂, h₂⟩ := exists_run_of_foldlM .restoreTombstone (fun _ _ _ => step_of_settle) ht
  obtain ⟨l₃, h₃⟩ : ∃ l, Run engine.Step t l r := by
    refine exists_run_of_foldlM (fun e => .remoteChange b (.upsert ⟨e, none, none⟩)) ?_ hr
    intro s e s' ha
    split at ha
    · cases ha
    · rename_i happl
      cases ha
      simp only [Step, perform, happl]
  obtain ⟨l₄, h₄⟩ := exists_run_of_foldlM (.restoreCreatedFile b) (fun _ _ _ => step_of_settle) hc
  obtain ⟨l₅, h₅⟩ := exists_run_of_foldlM .restoreDirtySnapshot (fun _ _ _ => step_of_settle) hd
  exact ⟨_, h₁.append (h₂.append (h₃.append (h₄.append h₅)))⟩

end LinuxWritableEngine

/-! ## A mount to try things on -/

namespace SmallMount

/-- A text that stands for an identity, a name or an operation. -/
class Naming (text : String) : Prop where
  nonempty : text ≠ ""
  valid : validateLinuxName text = .ok ()

/-- The identity of a child of the root directory. -/
class ChildNaming (id : String) : Prop extends Naming id where
  ne_root : id ≠ "root"

instance naming_root : Naming "root" := ⟨by decide, by decide⟩

instance naming_create : Naming "create" := ⟨by decide, by decide⟩

instance naming_rename : Naming "rename" := ⟨by decide, by decide⟩

instance naming_remove : Naming "remove" := ⟨by decide, by decide⟩

instance childNaming_a : ChildNaming "a" where
  nonempty := by decide
  valid := by decide
  ne_root := by decide

instance childNaming_b : ChildNaming "b" where
  nonempty := by decide
  valid := by decide
  ne_root := by decide

instance childNaming_c : ChildNaming "c" where
  nonempty := by decide
  valid := by decide
  ne_root := by decide

instance childNaming_d : ChildNaming "d" where
  nonempty := by decide
  valid := by decide
  ne_root := by decide

instance childNaming_x : ChildNaming "x" where
  nonempty := by decide
  valid := by decide
  ne_root := by decide

/-- The number of an inode. -/
class Numbering (value : ℕ) : Prop where
  nonzero : 0 < value
  le_max : value ≤ u64Max

instance numbering_two : Numbering 2 := ⟨by decide, by decide⟩

instance numbering_ten : Numbering 10 := ⟨by decide, by decide⟩

instance numbering_eleven : Numbering 11 := ⟨by decide, by decide⟩

def scope : CloudScope := sampleItemKey.scope

variable (id : String)

def itemId [naming : Naming id] : CloudItemId := ⟨id, naming.nonempty⟩

def key [Naming id] : CloudItemKey := ⟨scope, itemId id⟩

def linuxName [naming : Naming id] : LinuxName := ⟨id, naming.valid⟩

def inode (value : ℕ) [numbering : Numbering value] : LinuxInode :=
  ⟨value, numbering.nonzero, numbering.le_max⟩

def generation : LinuxInodeGeneration := ⟨1, Nat.one_pos, one_le_u64Max⟩

def root : CloudItem :=
  ⟨key "root", none, "root", .directory, ⟨[0], by decide⟩, none, naming_root.nonempty, by decide,
    CloudItem.directory_shape⟩

lemma root_ne [child : ChildNaming id] : some (itemId "root") ≠ some (itemId id) := by
  simp [itemId, child.ne_root.symm]

def file (id name : String) [ChildNaming id] [naming : Naming name] : CloudItem :=
  ⟨key id, some (itemId "root"), name, .file, ⟨[0], by decide⟩, some ⟨⟨[0], by decide⟩, none, 0, Nat.zero_le _⟩,
    naming.nonempty, root_ne id, rfl, rfl⟩

def directory (id name : String) [ChildNaming id] [naming : Naming name] : CloudItem :=
  ⟨key id, some (itemId "root"), name, .directory, ⟨[0], by decide⟩, none, naming.nonempty, root_ne id,
    CloudItem.directory_shape⟩

def record (key : CloudItemKey) (inode : LinuxInode) : LinuxInodeRecord := ⟨key, inode, generation⟩

/-- The root and one file are restored. -/
def table : LinuxInodeTable where
  root := record (key "root") linuxRootInode
  records := [record (key "a") (inode 2)]
  root_inode := rfl
  scope_eq := by simp [record, key]
  inode_ne := by decide
  key_ne := by simp [record, key, itemId]
  keys_nodup := by simp
  inodes_nodup := by simp

def session : SessionGeneration := firstGeneration

def engine : LinuxWritableEngine := ⟨table, session, true⟩

def backend (children : List CloudItem) : CloudFilesBackend where
  getItem itemKey := ((root :: children).find? fun item => item.key = itemKey).elim
    (.error (.new .notFound)) .ok
  listChildren itemKey := if itemKey = root.key then .last children else .last []

def intent (operation : String) [naming : Naming operation] (desired : DesiredMutation) : MutationIntent :=
  ⟨⟨operation, naming.nonempty⟩, ⟨"key", by decide⟩, .platformCommand, session, desired, ⟨none, none⟩, none,
    none, none, ⟨0, none⟩⟩

/-- The store's answer to the creation of a file in the root directory. -/
def createdAs [child : ChildNaming id] (inode : LinuxInode) : LinuxCreateFileAcceptance where
  created := ⟨file id id, record (key id) inode, intent "create" (.create scope (itemId "root") id .file)⟩
  session := ⟨⟨id, child.nonempty⟩, key id, 0, session, none⟩

/-- The store's answer to the creation of a directory. -/
def createdDirectory : LinuxNamespaceItem :=
  ⟨directory "d" "d", record (key "d") (inode 10),
    intent "create" (.create scope (itemId "root") "d" .directory)⟩

end SmallMount

end AsterForge.Linux
