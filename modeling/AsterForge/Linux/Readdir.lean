import AsterForge.Library.Resumption
import AsterForge.Linux.Writeback

/-!
# Reading a directory

The kernel reads an opened directory reply by reply, each time from the offset of the last entry it has got.  The
offset of an entry is the index of the next one; the two dot entries come first.  A reply ends where its buffer
is full, which may be at any entry.

* **`readdir_resumes`** — the entries that are delivered, by both file systems and from every offset.
-/

namespace AsterForge.Linux

open AsterForge.Core Library List

/-! ## Replies -/

inductive FileType
  | regularFile
  | directory
  deriving DecidableEq

def fileType : LinuxNodeKind → FileType
  | .file => .regularFile
  | .directory => .directory

structure ReplyEntry where
  inode : LinuxInode
  offset : ℕ
  kind : FileType
  name : String
  deriving DecidableEq

/-- The entries of a reply so far, in a buffer that has room for a further one or has not. -/
structure ReplyDirectory where
  hasRoom : List ReplyEntry → ReplyEntry → Bool
  entries : List ReplyEntry

namespace ReplyDirectory

/-- Tells whether the buffer is full; the entry is stored if it is not. -/
def add (reply : ReplyDirectory) (entry : ReplyEntry) : ReplyDirectory × Bool :=
  if reply.hasRoom reply.entries entry then ({ reply with entries := reply.entries ++ [entry] }, false)
  else (reply, true)

/-- The loop over the entries of a snapshot. -/
def addEntries (start index : ℕ) (full : Bool) (reply : ReplyDirectory) :
    List LinuxDirectoryEntry → ReplyDirectory
  | [] => reply
  | entry :: entries =>
    if full then reply
    else if u64Max < index + 1 then reply
    else
      let (reply, full) := if start ≤ index then
          reply.add ⟨entry.inode, index + 1, fileType entry.kind, entry.name⟩
        else (reply, full)
      addEntries start (index + 1) full reply entries

end ReplyDirectory

/-! ## The two file systems -/

/-- `readdir`, of a snapshot or of the failure to find one. -/
def readdirSnapshot (snapshot : Except LinuxCloudFilesError LinuxDirectorySnapshot) (inode : LinuxInode)
    (offset : ℕ) (reply : ReplyDirectory) : Except LinuxCloudFilesError (List ReplyEntry) := do
  let snapshot ← snapshot
  if usizeMax < offset then return reply.entries
  let start := offset
  let (reply, full) := if start ≤ 0 then reply.add ⟨inode, 1, .directory, "."⟩ else (reply, false)
  let (reply, full) := if full = false ∧ start ≤ 1 then reply.add ⟨snapshot.parent, 2, .directory, ".."⟩
    else (reply, full)
  return (reply.addEntries start 2 full snapshot.entries).entries

/-- The writable file system's. -/
def WritableState.readdir (state : WritableState) (inode : LinuxInode) (handle : LinuxDirectoryHandle)
    (offset : ℕ) (reply : ReplyDirectory) : Except LinuxCloudFilesError (List ReplyEntry) :=
  readdirSnapshot (state.directorySnapshot inode handle) inode offset reply

/-- The open directories of the read-only engine. -/
abbrev OpenDirectories := AList fun _ : LinuxDirectoryHandle => LinuxDirectorySnapshot

def OpenDirectories.directorySnapshot (directories : OpenDirectories) (inode : LinuxInode)
    (handle : LinuxDirectoryHandle) : Except LinuxCloudFilesError LinuxDirectorySnapshot := do
  let snapshot ← okOr .staleHandle (directories.lookup handle)
  refuse (snapshot.directory ≠ inode) .staleHandle
  return snapshot

/-- The read-only file system's. -/
def OpenDirectories.readdir (directories : OpenDirectories) (inode : LinuxInode)
    (handle : LinuxDirectoryHandle) (offset : ℕ) (reply : ReplyDirectory) :
    Except LinuxCloudFilesError (List ReplyEntry) :=
  readdirSnapshot (directories.directorySnapshot inode handle) inode offset reply

/-! ## What a reply holds -/

/-- The entries of a snapshot as they are replied, each with the index of the next one. -/
def numbered (index : ℕ) : List LinuxDirectoryEntry → List ReplyEntry
  | [] => []
  | entry :: entries =>
    ⟨entry.inode, index + 1, fileType entry.kind, entry.name⟩ :: numbered (index + 1) entries

/-- The whole listing of a directory. -/
def LinuxDirectorySnapshot.listing (snapshot : LinuxDirectorySnapshot) (inode : LinuxInode) :
    List ReplyEntry :=
  ⟨inode, 1, .directory, "."⟩ :: ⟨snapshot.parent, 2, .directory, ".."⟩ :: numbered 2 snapshot.entries

namespace ReplyDirectory

/-- Entries are added up to the first for which there is no room. -/
def fill (reply : ReplyDirectory) : List ReplyEntry → ReplyDirectory
  | [] => reply
  | entry :: entries =>
    if (reply.add entry).2 then (reply.add entry).1 else (reply.add entry).1.fill entries

/-- An empty buffer that has room for an entry. -/
def Accepts (reply : ReplyDirectory) : Prop := reply.entries = [] ∧ ∀ entry, reply.hasRoom [] entry = true

variable {r : ReplyDirectory}

lemma fill_cons (e : ReplyEntry) (l : List ReplyEntry) :
    r.fill (e :: l) = if (r.add e).2 then (r.add e).1 else (r.add e).1.fill l := rfl

lemma addEntries_full (start index : ℕ) (r : ReplyDirectory) (entries : List LinuxDirectoryEntry) :
    r.addEntries start index true entries = r := by
  cases entries <;> simp [addEntries]

/-- **The loop** adds the entries from the offset on. -/
lemma addEntries_eq (start : ℕ) {entries : List LinuxDirectoryEntry} {index : ℕ}
    (h : index + entries.length ≤ u64Max) :
    r.addEntries start index false entries = r.fill ((numbered index entries).drop (start - index)) := by
  induction entries generalizing index r with
  | nil => simp [addEntries, numbered, fill]
  | cons entry entries ih =>
    rw [length_cons] at h
    rw [addEntries, if_neg (by decide), if_neg (by omega), numbered]
    by_cases hs : start ≤ index
    · rw [if_pos hs, Nat.sub_eq_zero_of_le hs, drop_zero, fill_cons]
      cases hfull : (r.add ⟨entry.inode, index + 1, fileType entry.kind, entry.name⟩).2 with
      | true =>
        simp only [hfull, addEntries_full]
        rfl
      | false =>
        simp only [hfull]
        rw [ih (by omega), if_neg (by decide), Nat.sub_eq_zero_of_le (by omega), drop_zero]
    · simp only [if_neg hs]
      rw [ih (by omega), show start - index = start - (index + 1) + 1 by omega, drop_succ_cons]

lemma fill_prefix (l : List ReplyEntry) : ∃ p, (r.fill l).entries = r.entries ++ p ∧ p <+: l := by
  induction l generalizing r with
  | nil => exact ⟨[], by simp [fill]⟩
  | cons e l ih =>
    rw [fill_cons, add]
    by_cases hroom : r.hasRoom r.entries e = true
    · obtain ⟨p, hp, hpl⟩ := ih (r := { r with entries := r.entries ++ [e] })
      exact ⟨e :: p, by simp [hroom, hp], (prefix_cons_inj e).mpr hpl⟩
    · exact ⟨[], by simp [hroom]⟩

lemma eq_nil_of_fill {l : List ReplyEntry} (hempty : r.entries = []) (hroom : ∀ e, r.hasRoom [] e = true)
    (h : (r.fill l).entries = []) : l = [] := by
  cases l with
  | nil => rfl
  | cons e l =>
    rw [fill_cons, add, hempty, if_pos (hroom e), if_neg Bool.false_ne_true] at h
    obtain ⟨p, hp, -⟩ := fill_prefix (r := { r with entries := [e] }) l
    exact absurd (hp.symm.trans h) (by simp)

end ReplyDirectory

section

variable {snapshot : LinuxDirectorySnapshot} {inode : LinuxInode}

lemma length_numbered (l : List LinuxDirectoryEntry) (index : ℕ) : (numbered index l).length = l.length := by
  induction l generalizing index with
  | nil => rfl
  | cons e l ih => rw [numbered, length_cons, length_cons, ih]

open ReplyDirectory in
/-- **A reply** is filled with the listing from the offset on. -/
lemma readdirSnapshot_eq (h : snapshot.entries.length + 2 ≤ usizeMax) (offset : ℕ) (r : ReplyDirectory) :
    readdirSnapshot (.ok snapshot) inode offset r =
      .ok (r.fill ((snapshot.listing inode).drop offset)).entries := by
  have hloop : ∀ full (r : ReplyDirectory), r.addEntries offset 2 full snapshot.entries =
      if full then r else r.fill ((numbered 2 snapshot.entries).drop (offset - 2)) := by
    rintro (_ | _) r
    · exact addEntries_eq offset (by rw [Nat.add_comm]; exact h)
    · exact addEntries_full offset 2 r _
  rw [readdirSnapshot, ok_bind]
  by_cases hbeyond : usizeMax < offset
  · have hnil : (snapshot.listing inode).drop offset = [] := by
      rw [drop_eq_nil_iff, LinuxDirectorySnapshot.listing, length_cons, length_cons, length_numbered]
      omega
    rw [if_pos hbeyond, hnil]
    rfl
  · simp only [if_neg hbeyond, except_pure, hloop]
    rw [LinuxDirectorySnapshot.listing]
    match offset with
    | 0 =>
      simp only [le_rfl, if_true, drop_zero, fill_cons]
      cases (r.add ⟨inode, 1, .directory, "."⟩).2 with
      | true => simp
      | false => simp
    | 1 => simp [fill_cons]
    | offset + 2 => simp

lemma numbered_offset {l : List LinuxDirectoryEntry} {index : ℕ} {before after : List ReplyEntry}
    {item : ReplyEntry} (h : numbered index l = before ++ item :: after) :
    item.offset = index + before.length + 1 := by
  induction l generalizing index before with
  | nil => simp [numbered] at h
  | cons e l ih =>
    cases before with
    | nil =>
      cases h
      rfl
    | cons first before =>
      rw [ih (cons.inj h).2, length_cons]
      omega

lemma placedIn_listing (snapshot : LinuxDirectorySnapshot) (inode : LinuxInode) :
    PlacedIn (snapshot.listing inode) ReplyEntry.offset := by
  rintro (_ | ⟨dot, _ | ⟨dots, before⟩⟩) item after h
  · cases h
    rfl
  · cases h
    rfl
  · rw [numbered_offset (cons.inj (cons.inj h).2).2, length_cons, length_cons]
    omega

lemma resumes_readdirSnapshot (h : snapshot.entries.length + 2 ≤ usizeMax) {r : ReplyDirectory}
    (hr : r.Accepts) (offset : ℕ) :
    Resumes (snapshot.listing inode) offset (readdirSnapshot (.ok snapshot) inode offset r) := by
  obtain ⟨hempty, hroom⟩ := hr
  obtain ⟨p, hp, hprefix⟩ := ReplyDirectory.fill_prefix (r := r) ((snapshot.listing inode).drop offset)
  rw [hempty, nil_append] at hp
  refine ⟨p, by rw [readdirSnapshot_eq h, hp], hprefix, fun hnil => ?_⟩
  exact ReplyDirectory.eq_nil_of_fill hempty hroom (hp.trans hnil)

end

/-- **Reading a directory resumes exactly.**  A directory stays as it was opened, whatever else goes on between
the calls; indices are `usize`, in which those of a slice and of two entries more fit.  Reading from the offset
of the last entry, and first from any offset, gives the listing from there on, by both file systems: nothing is
skipped or repeated, and it ends. -/
theorem readdir_resumes (snapshot : LinuxDirectorySnapshot) (inode : LinuxInode)
    (handle : LinuxDirectoryHandle) (h : snapshot.entries.length + 2 ≤ usizeMax) :
    (∀ (offset : ℕ) (calls : List (OpenDirectories × ReplyDirectory)),
      (∀ call ∈ calls, call.1.directorySnapshot inode handle = .ok snapshot ∧ call.2.Accepts) →
        ReadsAll (snapshot.listing inode) offset calls.length
          (reads (fun offset call => call.1.readdir inode handle offset call.2) ReplyEntry.offset offset calls)) ∧
    ∀ (offset : ℕ) (calls : List (WritableState × ReplyDirectory)),
      (∀ call ∈ calls, call.1.directorySnapshot inode handle = .ok snapshot ∧ call.2.Accepts) →
        ReadsAll (snapshot.listing inode) offset calls.length
          (reads (fun offset call => call.1.readdir inode handle offset call.2) ReplyEntry.offset offset calls) := by
  constructor
  all_goals
    intro offset calls hcalls
    refine ReadsAll.of_resumes (placedIn_listing snapshot inode) (fun call hcall place => ?_) offset
    obtain ⟨hsnap, haccepts⟩ := hcalls call hcall
  · rw [OpenDirectories.readdir, hsnap]
    exact resumes_readdirSnapshot h haccepts place
  · rw [WritableState.readdir, hsnap]
    exact resumes_readdirSnapshot h haccepts place

def oneFile : LinuxDirectorySnapshot :=
  ⟨linuxRootInode, linuxRootInode, [⟨linuxRootInode, ⟨1, Nat.one_pos, one_le_u64Max⟩, "a", .file⟩]⟩

def firstHandle : LinuxDirectoryHandle := ⟨1, Nat.one_pos⟩

/-- A buffer with room for one entry. -/
def small : ReplyDirectory := ⟨fun entries _ => entries = [], []⟩

theorem readdir_resumes_small : ReadsAll (oneFile.listing linuxRootInode) 1 3
      (reads (fun offset (call : OpenDirectories × ReplyDirectory) =>
        call.1.readdir linuxRootInode firstHandle offset call.2) ReplyEntry.offset 1
        (replicate 3 (AList.singleton firstHandle oneFile, small))) ∧
    ReadsAll (oneFile.listing linuxRootInode) 0 4
      (reads (fun offset (call : WritableState × ReplyDirectory) =>
        call.1.readdir linuxRootInode firstHandle offset call.2) ReplyEntry.offset 0
        (replicate 4 ({ WritableState.default with directories := AList.singleton firstHandle oneFile }, small))) := by
  have hsmall : small.Accepts := ⟨rfl, fun _ => rfl⟩
  obtain ⟨hread, hwrite⟩ := readdir_resumes oneFile linuxRootInode firstHandle (by decide)
  refine ⟨hread 1 _ fun call hcall => ?_, hwrite 0 _ fun call hcall => ?_⟩
  all_goals
    rw [eq_of_mem_replicate hcall]
    exact ⟨rfl, hsmall⟩

end AsterForge.Linux
