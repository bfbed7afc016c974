import AsterForge.Core.Identity
import Mathlib.Data.List.Nodup

/-!
# Inode records

Stable inode and generation records, and the immutable table of them that a mount is started with.
The table carries what its constructor checks: the root record has the root inode, and no two
records share a key or an inode.  That the records exclude the root is what the constructor asks of
its caller.
-/

namespace AsterForge.Linux

open AsterForge.Core List

/-- Non-zero inode number scoped to one mounted filesystem. -/
@[ext]
structure LinuxInode where
  value : ℕ
  nonzero : 0 < value
  le_max : value ≤ u64Max

instance : DecidableEq LinuxInode := fun _ _ => decidable_of_iff' _ LinuxInode.ext_iff

def linuxRootInode : LinuxInode := ⟨1, Nat.one_pos, one_le_u64Max⟩

@[ext]
structure LinuxInodeGeneration where
  value : ℕ
  nonzero : 0 < value
  le_max : value ≤ u64Max

instance : DecidableEq LinuxInodeGeneration := fun _ _ => decidable_of_iff' _ LinuxInodeGeneration.ext_iff

/-- One durable mapping from a scoped stable cloud identity to an inode and generation. -/
structure LinuxInodeRecord where
  key : CloudItemKey
  inode : LinuxInode
  generation : LinuxInodeGeneration
  deriving DecidableEq

/-- Immutable mapping restored before a mount is exposed to the kernel. -/
structure LinuxInodeTable where
  root : LinuxInodeRecord
  records : List LinuxInodeRecord
  root_inode : root.inode = linuxRootInode
  scope_eq : ∀ record ∈ records, record.key.scope = root.key.scope
  inode_ne : ∀ record ∈ records, record.inode ≠ linuxRootInode
  key_ne : ∀ record ∈ records, record.key ≠ root.key
  keys_nodup : (records.map LinuxInodeRecord.key).Nodup
  inodes_nodup : (records.map LinuxInodeRecord.inode).Nodup

namespace LinuxInodeTable

def scope (table : LinuxInodeTable) : CloudScope := table.root.key.scope

def byKey (table : LinuxInodeTable) (key : CloudItemKey) : Option LinuxInodeRecord :=
  if key = table.root.key then some table.root
  else table.records.find? fun record => record.key = key

def byInode (table : LinuxInodeTable) (inode : LinuxInode) : Option LinuxInodeRecord :=
  if inode = linuxRootInode then some table.root
  else table.records.find? fun record => record.inode = inode

variable {t : LinuxInodeTable} {r : LinuxInodeRecord} {key : CloudItemKey}

lemma mem_of_byKey (h : t.byKey key = some r) : r.key = key ∧ (r = t.root ∨ r ∈ t.records) := by
  unfold byKey at h
  split at h
  · rename_i hroot
    cases h
    exact ⟨hroot.symm, .inl rfl⟩
  · exact ⟨by simpa using find?_some h, .inr (mem_of_find?_eq_some h)⟩

lemma mem_of_byInode {i : LinuxInode} (h : t.byInode i = some r) : r.inode = i ∧ (r = t.root ∨ r ∈ t.records) := by
  unfold byInode at h
  split at h
  · rename_i hroot
    cases h
    exact ⟨t.root_inode.trans hroot.symm, .inl rfl⟩
  · exact ⟨by simpa using find?_some h, .inr (mem_of_find?_eq_some h)⟩

lemma find?_of_nodup_map {α β : Type} [DecidableEq β] {f : α → β} {xs : List α} {a : α}
    (hn : (xs.map f).Nodup) (hm : a ∈ xs) : xs.find? (fun x => f x = f a) = some a := by
  cases hfind : xs.find? (fun x => f x = f a) with
  | none =>
    have hne := find?_eq_none.mp hfind a hm
    simp at hne
  | some b =>
    have himage : f b = f a := by simpa using find?_some hfind
    rw [inj_on_of_nodup_map hn (mem_of_find?_eq_some hfind) hm himage]

/-- **The two sides of the table agree.** -/
lemma byKey_iff : t.byKey r.key = some r ↔ t.byInode r.inode = some r := by
  have hm : r = t.root ∨ r ∈ t.records → t.byKey r.key = some r ∧ t.byInode r.inode = some r := by
    rintro (rfl | hm)
    · exact ⟨if_pos rfl, if_pos t.root_inode⟩
    · exact ⟨by rw [byKey, if_neg (t.key_ne _ hm)]; exact find?_of_nodup_map t.keys_nodup hm,
        by rw [byInode, if_neg (t.inode_ne _ hm)]; exact find?_of_nodup_map t.inodes_nodup hm⟩
  exact ⟨fun h => (hm (mem_of_byKey h).2).2, fun h => (hm (mem_of_byInode h).2).1⟩

lemma byInode_of_byKey (h : t.byKey key = some r) : t.byInode r.inode = some r :=
  byKey_iff.mp ((mem_of_byKey h).1.symm ▸ h)

lemma byKey_of_byInode {i : LinuxInode} (h : t.byInode i = some r) : t.byKey r.key = some r :=
  byKey_iff.mpr ((mem_of_byInode h).1.symm ▸ h)

end LinuxInodeTable

end AsterForge.Linux
