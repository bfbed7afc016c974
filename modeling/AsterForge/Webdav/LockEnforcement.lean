import AsterForge.Webdav.ResourceTag
import AsterForge.Webdav.Traversal

/-!
# Locks and submitted tokens

Before a mutation, the locks that are in its way are asked for.  Several of them may be at one path, the root
of all of them; one token that is submitted for it is enough.  The tokens stand in the lists of the `If`
header, and those that are negated do not count.

* **`enforceUnlocked_spec`** — when it succeeds, and with what.
-/

namespace AsterForge.Webdav

open Library List

structure DavLock where
  token : Text
  path : DavPath

/-! ## Submitted tokens -/

/-- What is asked of every request: how its URIs are parsed, and the origin that it was sent to. -/
structure RequestOrigin where
  parser : UriParser
  mount : Text
  requestScheme : Text
  requestHost : Text

variable (origin : RequestOrigin)

/-- Lists without a tag apply to every path. -/
def IfResourceGroup.appliesTo (group : IfResourceGroup) (requestPath : Text) : Bool :=
  group.taggedPath.all fun taggedPath =>
    ifTagMatchesPath origin.parser taggedPath requestPath origin.requestScheme origin.requestHost

def submittedLockTokensMatchingPath (ifHeader : IfHeader) (requestPath : Text) (includeNegated : Bool) :
    List Text :=
  sortDedup <| (ifHeader.groups.filter (·.appliesTo origin requestPath)).flatMap fun group =>
    group.lists.flatMap fun list => list.conditions.filterMap fun
      | .token value negated => if includeNegated || !negated then some value else none
      | .etag .. => none

def submittedMutationLockTokens (ifHeader : IfHeader) (requestPath : Text) : List Text :=
  submittedLockTokensMatchingPath origin ifHeader requestPath false

variable (ifHeader : Option IfHeader)

def submittedTokens (path : DavPath) : List Text :=
  ifHeader.elim [] fun ifHeader => submittedMutationLockTokens origin ifHeader (hrefForDavPath origin.mount path)

/-! ## The loop over the locks -/

structure DavLockConflictEvaluation where
  submittedLockTokens : List Text
  unsubmitted : List DavLock

variable (conflicts : List DavLock)

def matchingTokens (path : DavPath) : List Text :=
  (conflicts.filter (·.path = path)).filterMap fun candidate =>
    (submittedTokens origin ifHeader path).find? (· = candidate.token)

def evaluateLock (evaluation : DavLockConflictEvaluation) (entry : DavLock × ℕ) : DavLockConflictEvaluation :=
  let (lock, index) := entry
  if (conflicts.take index).any (·.path = lock.path) then evaluation
  else if matchingTokens origin ifHeader conflicts lock.path = [] then
    { evaluation with unsubmitted := evaluation.unsubmitted ++ [lock] }
  else
    { evaluation with
      submittedLockTokens :=
        evaluation.submittedLockTokens ++ matchingTokens origin ifHeader conflicts lock.path }

def evaluateLockConflicts : DavLockConflictEvaluation :=
  let evaluation := conflicts.zipIdx.foldl (evaluateLock origin ifHeader conflicts) ⟨[], []⟩
  { evaluation with submittedLockTokens := sortDedup evaluation.submittedLockTokens }

inductive DavLockEnforcementError
  | backend (error : DavBackendError)
  | conflict (path : DavPath)

/-- The credentials of a mutation, from the locks in its way, unless they cannot be asked for. -/
def enforceUnlocked (conflictingLocks : Except DavBackendError (List DavLock)) :
    Except DavLockEnforcementError (List Text) := do
  let conflicts ← conflictingLocks.mapError .backend
  let evaluation := evaluateLockConflicts origin ifHeader conflicts
  match evaluation.unsubmitted.head? with
  | some lock => .error (.conflict lock.path)
  | none => .ok evaluation.submittedLockTokens

/-! ## What counts as submitted -/

/-- The token of a lock stands, not negated, in a list that applies to its root. -/
def DavLock.Submitted (lock : DavLock) : Prop :=
  ∃ header ∈ ifHeader, ∃ group ∈ header.groups, group.appliesTo origin (hrefForDavPath origin.mount lock.path) ∧
    ∃ list ∈ group.lists, .token lock.token false ∈ list.conditions

def IfHeader.Extends (header more : IfHeader) : Prop :=
  ∀ group ∈ header.groups, ∃ group' ∈ more.groups, group'.taggedPath = group.taggedPath ∧
    ∀ list ∈ group.lists, ∃ list' ∈ group'.lists, list.conditions ⊆ list'.conditions

variable {origin ifHeader conflicts} {lock : DavLock} {token : Text} {path : DavPath}

lemma mem_submittedTokens :
    token ∈ submittedTokens origin ifHeader path ↔ (⟨token, path⟩ : DavLock).Submitted origin ifHeader := by
  cases ifHeader with
  | none => simp [submittedTokens, DavLock.Submitted]
  | some hd =>
    simp only [submittedTokens, Option.elim_some, submittedMutationLockTokens, submittedLockTokensMatchingPath,
      mem_sortDedup, mem_flatMap, mem_filter, mem_filterMap, DavLock.Submitted,
      Option.mem_some_iff, exists_eq_left', Bool.false_or, and_assoc]
    refine exists_congr fun g => and_congr_right fun _ => and_congr_right fun _ =>
      exists_congr fun l => and_congr_right fun _ => ⟨?_, fun h => ⟨_, h, rfl⟩⟩
    rintro ⟨c, hm, hc⟩
    cases c with
    | token v n => cases n <;> simp_all
    | etag v n => cases hc

lemma mem_matchingTokens : token ∈ matchingTokens origin ifHeader conflicts path ↔
    ∃ lock ∈ conflicts, lock.path = path ∧ lock.token = token ∧ lock.Submitted origin ifHeader := by
  simp only [matchingTokens, mem_filterMap, mem_filter, decide_eq_true_eq, and_assoc]
  refine exists_congr fun lock => and_congr_right fun _ => and_congr_right ?_
  rintro rfl
  constructor
  · intro h
    have hmem := mem_submittedTokens.mp (mem_of_find?_eq_some h)
    have htoken := find?_some h
    obtain rfl := of_decide_eq_true htoken
    exact ⟨rfl, hmem⟩
  · rintro ⟨rfl, hs⟩
    have hsome : ((submittedTokens origin ifHeader lock.path).find? (· = lock.token)).isSome = true := by
      rw [find?_isSome]
      exact ⟨lock.token, mem_submittedTokens.mpr hs, decide_eq_true rfl⟩
    obtain ⟨f, hf⟩ := Option.isSome_iff_exists.mp hsome
    have htoken := find?_some hf
    rw [hf, of_decide_eq_true htoken]

/-! ## What the loop collects -/

def isFirst (conflicts : List DavLock) (entry : DavLock × ℕ) : Bool :=
  !(conflicts.take entry.2).any (·.path = entry.1.path)

lemma evaluateLock_foldl (en : List (DavLock × ℕ)) (e : DavLockConflictEvaluation) :
    en.foldl (evaluateLock origin ifHeader conflicts) e =
      ⟨e.submittedLockTokens ++ (en.filter (isFirst conflicts)).flatMap fun et =>
          matchingTokens origin ifHeader conflicts et.1.path,
        e.unsubmitted ++ ((en.filter (isFirst conflicts)).filter fun et =>
          matchingTokens origin ifHeader conflicts et.1.path = []).map Prod.fst⟩ := by
  induction en generalizing e with
  | nil => simp
  | cons et en ih =>
    rw [foldl_cons, ih, filter_cons]
    by_cases hearl : (conflicts.take et.2).any (·.path = et.1.path) = true
    · simp [evaluateLock, isFirst, hearl]
    · by_cases hnone : matchingTokens origin ifHeader conflicts et.1.path = []
      · simp [evaluateLock, isFirst, hearl, hnone]
      · simp [evaluateLock, isFirst, hearl, hnone]

/-- The lock that stays in the way is the first one at a path without a submitted token: a lock before it at
the same path would have been it. -/
lemma head_unsubmitted : (evaluateLockConflicts origin ifHeader conflicts).unsubmitted.head? =
    conflicts.find? fun lock => matchingTokens origin ifHeader conflicts lock.path = [] := by
  simp only [evaluateLockConflicts, evaluateLock_foldl, nil_append, head?_map, filter_filter, head?_filter]
  cases hfind : conflicts.find? fun lock => matchingTokens origin ifHeader conflicts lock.path = [] with
  | none =>
    rw [Option.map_eq_none_iff, find?_eq_none]
    rw [find?_eq_none] at hfind
    intro e he
    have hnot := hfind e.1 (fst_mem_of_mem_zipIdx he)
    simp [hnot]
  | some lock =>
    obtain ⟨hn, b, a, hs, hb⟩ := find?_eq_some_iff_append.mp hfind
    rw [Option.map_eq_some_iff]
    refine ⟨(lock, b.length), find?_eq_some_iff_append.mpr ⟨?_, b.zipIdx,
      a.zipIdx (b.length + 1), ?_, ?_⟩, rfl⟩
    · rw [Bool.and_eq_true]
      refine ⟨hn, ?_⟩
      rw [isFirst, hs, take_left, Bool.not_eq_true', any_eq_false]
      intro er her hp
      have hnot := hb er her
      rw [of_decide_eq_true hp, hn] at hnot
      cases hnot
    · rw [hs, zipIdx_append, zipIdx_cons, Nat.zero_add]
    · intro e he
      have hnot := hb e.1 (fst_mem_of_mem_zipIdx he)
      rw [Bool.not_and, hnot, Bool.true_or]

/-- Every path has a lock that is its first. -/
lemma exists_first (hl : lock ∈ conflicts) :
    ∃ e ∈ conflicts.zipIdx, isFirst conflicts e = true ∧ e.1.path = lock.path := by
  obtain ⟨first, hf⟩ := Option.isSome_iff_exists.mp
    ((find?_isSome (p := (·.path = lock.path))).mpr ⟨lock, hl, decide_eq_true rfl⟩)
  obtain ⟨hp, b, a, hs, hb⟩ := find?_eq_some_iff_append.mp hf
  refine ⟨(first, b.length), ?_, ?_, of_decide_eq_true hp⟩
  · rw [hs, zipIdx_append, Nat.zero_add]
    exact mem_append_right _ mem_cons_self
  · rw [isFirst, hs, take_left, Bool.not_eq_true', any_eq_false]
    intro er he
    have hnot := hb er he
    rw [of_decide_eq_true hp]
    simpa using hnot

lemma mem_submittedLockTokens :
    token ∈ (evaluateLockConflicts origin ifHeader conflicts).submittedLockTokens ↔
      ∃ lock ∈ conflicts, lock.token = token ∧ lock.Submitted origin ifHeader := by
  simp only [evaluateLockConflicts, evaluateLock_foldl, nil_append, mem_sortDedup, mem_flatMap,
    mem_filter, mem_matchingTokens]
  constructor
  · rintro ⟨e, -, lock, hl, -, ht, hs⟩
    exact ⟨lock, hl, ht, hs⟩
  · rintro ⟨lock, hl, ht, hs⟩
    obtain ⟨e, he, hf, hp⟩ := exists_first hl
    exact ⟨e, ⟨he, hf⟩, lock, hl, hp.symm, ht, hs⟩

/-! ## Enforcement -/

lemma enforceUnlocked_eq : enforceUnlocked origin ifHeader (.ok conflicts) =
    match conflicts.find? fun lock => matchingTokens origin ifHeader conflicts lock.path = [] with
    | some lock => .error (.conflict lock.path)
    | none => .ok (evaluateLockConflicts origin ifHeader conflicts).submittedLockTokens := by
  rw [← head_unsubmitted]
  rfl

variable (origin ifHeader conflicts) in
/-- Some lock at a path has its token submitted. -/
def Released (path : DavPath) : Prop :=
  ∃ lock ∈ conflicts, lock.path = path ∧ lock.Submitted origin ifHeader

lemma matchingTokens_eq_nil :
    matchingTokens origin ifHeader conflicts path = [] ↔ ¬ Released origin ifHeader conflicts path := by
  rw [eq_nil_iff_forall_not_mem]
  simp only [mem_matchingTokens]
  constructor
  · rintro h ⟨lock, hl, hp, hs⟩
    exact h lock.token ⟨lock, hl, hp, rfl, hs⟩
  · rintro h token ⟨lock, hl, hp, -, hs⟩
    exact h ⟨lock, hl, hp, hs⟩

lemma enforceUnlocked_ok_iff : (∃ c, enforceUnlocked origin ifHeader (.ok conflicts) = .ok c) ↔
    ∀ lock ∈ conflicts, Released origin ifHeader conflicts lock.path := by
  rw [enforceUnlocked_eq]
  cases hfind : conflicts.find? fun lock => matchingTokens origin ifHeader conflicts lock.path = [] with
  | none =>
    rw [find?_eq_none] at hfind
    refine ⟨fun _ lock hl => ?_, fun _ => ⟨_, rfl⟩⟩
    have hnot := hfind lock hl
    rwa [decide_eq_true_eq, matchingTokens_eq_nil, not_not] at hnot
  | some lock =>
    have hnone := find?_some hfind
    rw [decide_eq_true_eq, matchingTokens_eq_nil] at hnone
    refine ⟨?_, fun h => absurd (h lock (mem_of_find?_eq_some hfind)) hnone⟩
    rintro ⟨_, ⟨⟩⟩

lemma DavLock.Submitted.extends {hd m : IfHeader} (h : lock.Submitted origin (some hd))
    (hm : hd.Extends m) : lock.Submitted origin (some m) := by
  obtain ⟨_, ⟨⟩, g, hg, ha, l, hl, hmm⟩ := h
  obtain ⟨g', hg', ht, hls⟩ := hm g hg
  obtain ⟨l', hl', hc⟩ := hls l hl
  refine ⟨m, rfl, g', hg', ?_, l', hl', hc hmm⟩
  rw [IfResourceGroup.appliesTo, ht]
  exact ha

/-- **Enforcing locks**, whatever locks are in the way.  It succeeds exactly if at the root of each of them some
lock has its token submitted, and the credentials are these tokens, in order and each once; otherwise the path
that is reported is the first one without a submitted token; and a header with more in it does not fail where
the header succeeds. -/
theorem enforceUnlocked_spec (origin : RequestOrigin) (ifHeader : Option IfHeader) (conflicts : List DavLock) :
    ((∃ credentials, enforceUnlocked origin ifHeader (.ok conflicts) = .ok credentials) ↔
      ∀ lock ∈ conflicts, Released origin ifHeader conflicts lock.path) ∧
    (∀ credentials, enforceUnlocked origin ifHeader (.ok conflicts) = .ok credentials →
      credentials.Pairwise (@LE.le Text instLE) ∧ credentials.Nodup ∧
        ∀ token, token ∈ credentials ↔ ∃ lock ∈ conflicts, lock.token = token ∧ lock.Submitted origin ifHeader) ∧
    (∀ path, enforceUnlocked origin ifHeader (.ok conflicts) = .error (.conflict path) →
      ∃ before lock after, conflicts = before ++ lock :: after ∧ lock.path = path ∧
        ¬ Released origin ifHeader conflicts path ∧
        ∀ earlier ∈ before, Released origin ifHeader conflicts earlier.path) ∧
    ∀ more : IfHeader, (∀ header ∈ ifHeader, header.Extends more) →
      (∃ credentials, enforceUnlocked origin ifHeader (.ok conflicts) = .ok credentials) →
      ∃ credentials, enforceUnlocked origin (some more) (.ok conflicts) = .ok credentials := by
  refine ⟨enforceUnlocked_ok_iff, ?_, ?_, ?_⟩
  · intro credentials h
    rw [enforceUnlocked_eq] at h
    split at h
    · cases h
    · cases h
      exact ⟨pairwise_sortDedup _, nodup_sortDedup _, fun token => mem_submittedLockTokens⟩
  · intro path h
    rw [enforceUnlocked_eq] at h
    split at h
    case h_1 lock hfind =>
      cases h
      obtain ⟨hn, before, after, hsp, hb⟩ := find?_eq_some_iff_append.mp hfind
      refine ⟨before, lock, after, hsp, rfl, ?_, fun earlier he => ?_⟩
      · exact matchingTokens_eq_nil.mp (of_decide_eq_true hn)
      · have hnot := hb earlier he
        rwa [Bool.not_eq_true', decide_eq_false_iff_not, matchingTokens_eq_nil, not_not] at hnot
    case h_2 => cases h
  · intro more hm h
    refine enforceUnlocked_ok_iff.mpr fun lock hl => ?_
    obtain ⟨o, ho, hp, hs⟩ := enforceUnlocked_ok_iff.mp h lock hl
    refine ⟨o, ho, hp, ?_⟩
    cases ifHeader with
    | none =>
      obtain ⟨_, ⟨⟩, -⟩ := hs
    | some header => exact hs.extends (hm header rfl)

end AsterForge.Webdav
