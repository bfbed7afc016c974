import AsterForge.Library.Text

/-!
# Object keys

Keys of stored objects are relative paths.  They are normalised from what a caller gives: trimmed, with
slashes for backslashes, without empty and `.` segments.

White space is trimmed before the leading slashes and the empty segments go, so a segment that they covered
can still begin or end with it.

* `CleanEnds` — the condition: no such white space is left at the ends.
* **`object_key_normalized`** — exactly then normalising again changes nothing.
-/

namespace AsterForge.Storage

open Library List

inductive StorageCoreError
  | invalidObjectKey (message : String)
  deriving DecidableEq

def invalidRelativeKeyMessage : String := "object key must be a safe relative storage path"

/-- A segment that Windows reads as a drive. -/
def isDriveSegment : Text → Bool
  | c :: ':' :: _ => c.isAlpha
  | _ => false

/-- The loop over the segments, with those kept so far. -/
def relativeSegments : List Text → List Text → Except StorageCoreError (List Text)
  | segments, [] => .ok segments
  | segments, segment :: rest =>
    if segment = [] ∨ segment = ['.'] then relativeSegments segments rest
    else if segment = ['.', '.'] then .error (.invalidObjectKey invalidRelativeKeyMessage)
    else if segments = [] ∧ isDriveSegment segment = true then
      .error (.invalidObjectKey invalidRelativeKeyMessage)
    else relativeSegments (segments ++ [segment]) rest

def slashed (value : Text) : Text :=
  (value.dropWhile (· = '/')).map fun c => if c = '\\' then '/' else c

def normalizeRelativeKey (value : Text) : Except StorageCoreError Text :=
  let value := slashed value
  if value = [] then .ok ['.']
  else
    match relativeSegments [] (value.splitOn '/') with
    | .error error => .error error
    | .ok segments => .ok (if segments = [] then ['.'] else ['/'].intercalate segments)

def normalizeObjectKey (value : Text) : Except StorageCoreError Text :=
  match normalizeRelativeKey (trim value) with
  | .error error => .error error
  | .ok key =>
    if key = ['.'] then
      .error (.invalidObjectKey "object key cannot target the storage namespace root")
    else .ok key

def normalizeObjectPrefix (value : Text) : Except StorageCoreError Text :=
  match normalizeRelativeKey (trim value) with
  | .error error => .error error
  | .ok start => .ok (if start = ['.'] then [] else start)

def trimEndSlashes (start : Text) : Text := start.rdropWhile (· = '/')

def joinKeyPrefix (start key : Text) : Text :=
  let start := trimEndSlashes start
  let key := key.dropWhile (· = '/')
  if start = [] then key else if key = [] then start else start ++ '/' :: key

def stripKeyPrefix (start key : Text) : Option Text :=
  let start := trimEndSlashes start
  if start = [] then some (key.dropWhile (· = '/'))
  else if key = start then some []
  else
    match start.isPrefixOf? key with
    | some ('/' :: rest) => some rest
    | _ => none

/-! ## The segments of a value -/

def kept (segments : List Text) : List Text := segments.filter fun s => s ≠ [] ∧ s ≠ ['.']

/-- The segments of a value that are neither empty nor `.`. -/
def keptSegments (value : Text) : List Text := kept ((slashed value).splitOn '/')

/-- Segments that make up a key. -/
def Safe (segments : List Text) : Prop :=
  ['.', '.'] ∉ segments ∧ ∀ s ∈ segments.head?, isDriveSegment s = false

/-- Neither end of the segments is white space. -/
def CleanEnds (segments : List Text) : Prop :=
  (∀ s ∈ segments.head?, startsBlank s = false) ∧ ∀ s ∈ segments.getLast?, endsBlank s = false

structure Canonical (key : Text) : Prop where
  relative : key.head? ≠ some '/'
  segments : ∀ s ∈ key.splitOn '/', s ≠ [] ∧ s ≠ ['.'] ∧ s ≠ ['.', '.']
  backslash : '\\' ∉ key
  drive : ∀ s ∈ (key.splitOn '/').head?, isDriveSegment s = false

variable {value key start : Text} {segments pieces : List Text}

lemma kept_cons (piece : Text) (pieces : List Text) :
    kept (piece :: pieces) = if piece = [] ∨ piece = ['.'] then kept pieces else piece :: kept pieces := by
  simp only [kept, filter_cons, decide_eq_true_eq]
  split_ifs <;> simp_all

lemma relativeSegments_eq_ok (result : List Text) : relativeSegments segments pieces = .ok result ↔
    (['.', '.'] ∉ pieces ∧ (segments = [] → ∀ s ∈ (kept pieces).head?, isDriveSegment s = false)) ∧
      result = segments ++ kept pieces := by
  induction pieces generalizing segments with
  | nil =>
    simp only [relativeSegments, Except.ok.injEq]
    simpa [kept] using eq_comm
  | cons piece pieces ih =>
    rw [relativeSegments, kept_cons]
    split_ifs with hskip hup hdrive
    · rw [ih]
      have hne : ['.', '.'] ≠ piece := by rcases hskip with rfl | rfl <;> decide
      simp [hne]
    · simp [hup]
    · simp [hdrive]
    · rw [ih]
      have hne : ['.', '.'] ≠ piece := fun h => hup h.symm
      simp only [not_and, Bool.not_eq_true] at hdrive
      simp only [mem_cons, hne, false_or, append_eq_nil_iff, cons_ne_nil, and_false, head?_cons,
        Option.mem_def, Option.some.injEq, forall_eq', append_assoc, singleton_append]
      tauto

lemma normalizeRelativeKey_eq_ok : normalizeRelativeKey value = .ok key ↔
    Safe (keptSegments value) ∧
      key = if keptSegments value = [] then ['.'] else ['/'].intercalate (keptSegments value) := by
  have hup : ['.', '.'] ∈ keptSegments value ↔ ['.', '.'] ∈ (slashed value).splitOn '/' := by
    simp [keptSegments, kept]
  unfold normalizeRelativeKey Safe
  by_cases hv : slashed value = []
  · have hk : keptSegments value = [] := by simp [keptSegments, hv, kept]
    simp [hv, hk, @eq_comm _ key]
  · rw [hup]
    simp only [hv, if_false]
    have hspec := @relativeSegments_eq_ok [] ((slashed value).splitOn '/')
    cases hrel : relativeSegments [] ((slashed value).splitOn '/') with
    | error e =>
      have hnot := hspec (keptSegments value)
      rw [hrel] at hnot
      simp only [reduceCtorEq, false_iff, not_and] at hnot ⊢
      exact fun h _ => hnot ⟨h.1, fun _ => h.2⟩ rfl
    | ok result =>
      obtain ⟨hsafe, rfl⟩ := (hspec result).mp hrel
      simp only [nil_append, Except.ok.injEq]
      exact ⟨fun h => ⟨⟨hsafe.1, hsafe.2 rfl⟩, h.symm⟩, fun h => h.2.symm⟩

variable {s : Text}

lemma mem_keptSegments (h : s ∈ keptSegments value) : s ≠ [] ∧ s ≠ ['.'] ∧ '/' ∉ s ∧ '\\' ∉ s := by
  obtain ⟨hm, hp⟩ := mem_filter.mp h
  simp only [decide_eq_true_eq] at hp
  refine ⟨hp.1, hp.2, notMem_of_mem_splitOn hm, fun hc => ?_⟩
  have hin : '\\' ∈ slashed value := by
    rw [← @intercalate_splitOn _ (slashed value) _ _ '/']
    exact (infix_intercalate hm).subset hc
  obtain ⟨c, -, hc⟩ := mem_map.mp hin
  split at hc
  · simp at hc
  · next hne => exact hne hc

/-! ## What a key is made of -/

lemma head?_intercalate (hs : s ≠ []) : (['/'].intercalate (s :: segments)).head? = s.head? := by
  obtain ⟨c, s, rfl⟩ := exists_cons_of_ne_nil hs
  cases segments with
  | nil => simp
  | cons _ _ => simp

lemma getLast?_intercalate (hs : s ≠ []) : (['/'].intercalate (segments ++ [s])).getLast? = s.getLast? := by
  induction segments with
  | nil => simp
  | cons first segments ih =>
    have hne : ['/'].intercalate (segments ++ [s]) ≠ [] := fun h =>
      hs (getLast?_eq_none_iff.mp (by rw [← ih, h]; rfl))
    rw [cons_append, intercalate_cons_of_ne_nil (by simp), getLast?_append_of_ne_nil _ hne, ih]

lemma startsBlank_intercalate (hne : ∀ s ∈ segments, s ≠ []) :
    startsBlank (['/'].intercalate segments) = false ↔ ∀ s ∈ segments.head?, startsBlank s = false := by
  cases segments with
  | nil => simp [startsBlank]
  | cons s segments =>
    rw [startsBlank, head?_intercalate (hne s mem_cons_self)]
    simp [startsBlank]

lemma endsBlank_intercalate (hne : ∀ s ∈ segments, s ≠ []) :
    endsBlank (['/'].intercalate segments) = false ↔ ∀ s ∈ segments.getLast?, endsBlank s = false := by
  rcases eq_nil_or_concat segments with rfl | ⟨segments, s, rfl⟩
  · simp [endsBlank]
  · rw [concat_eq_append, endsBlank, getLast?_intercalate (hne s (by simp))]
    simp [endsBlank]

lemma mem_intercalate {c : Char} (h : c ∈ ['/'].intercalate segments) : c = '/' ∨ ∃ s ∈ segments, c ∈ s := by
  induction segments with
  | nil => simp at h
  | cons s segments ih =>
    by_cases hnil : segments = []
    · subst hnil
      exact .inr ⟨s, mem_cons_self, by simpa using h⟩
    · rw [intercalate_cons_of_ne_nil hnil, mem_append, mem_append, mem_singleton] at h
      rcases h with (h | h) | h
      · exact .inr ⟨s, mem_cons_self, h⟩
      · exact .inl h
      · obtain h | ⟨o, ho, hc⟩ := ih h
        · exact .inl h
        · exact .inr ⟨o, mem_cons_of_mem _ ho, hc⟩

lemma Canonical.of_kept (h : Safe (keptSegments value)) (hk : keptSegments value ≠ []) :
    Canonical (['/'].intercalate (keptSegments value)) := by
  have hsplit : (['/'].intercalate (keptSegments value)).splitOn '/' = keptSegments value :=
    splitOn_intercalate '/' (fun s hs => (mem_keptSegments hs).2.2.1) hk
  refine ⟨?_, ?_, ?_, by rw [hsplit]; exact h.2⟩
  · obtain ⟨s, r, hs⟩ := exists_cons_of_ne_nil hk
    have hm : s ∈ keptSegments value := hs ▸ mem_cons_self
    rw [hs, head?_intercalate (mem_keptSegments hm).1]
    exact fun hc => (mem_keptSegments hm).2.2.1 (mem_of_head? hc)
  · rw [hsplit]
    intro s hs
    exact ⟨(mem_keptSegments hs).1, (mem_keptSegments hs).2.1, fun hup => h.1 (hup ▸ hs)⟩
  · intro hc
    obtain hc | ⟨s, hs, hm⟩ := mem_intercalate hc
    · simp at hc
    · exact (mem_keptSegments hs).2.2.2 hm

/-- What a canonical key says of itself. -/
lemma Canonical.kept (h : Canonical key) : keptSegments key = key.splitOn '/' ∧ Safe (keptSegments key) := by
  have hslash : slashed key = key := by
    rw [slashed]
    have hdrop : key.dropWhile (· = '/') = key := by
      cases key with
      | nil => rfl
      | cons c key => exact dropWhile_cons_of_neg (by simpa using h.relative)
    rw [hdrop]
    conv_rhs => rw [← map_id key]
    refine map_congr_left fun c hc => if_neg ?_
    rintro rfl
    exact h.backslash hc
  have hk : keptSegments key = key.splitOn '/' := by
    rw [keptSegments, hslash, Storage.kept, filter_eq_self]
    intro s hs
    simpa using ⟨(h.segments s hs).1, (h.segments s hs).2.1⟩
  rw [hk]
  exact ⟨rfl, fun hm => (h.segments _ hm).2.2 rfl, h.drive⟩

lemma Canonical.ne_dot (h : Canonical key) : key ≠ ['.'] := by
  rintro rfl
  exact (h.segments ['.'] (by decide)).2.1 rfl

lemma normalizeObjectKey_eq_ok : normalizeObjectKey value = .ok key ↔
    Safe (keptSegments (trim value)) ∧ keptSegments (trim value) ≠ [] ∧
      key = ['/'].intercalate (keptSegments (trim value)) := by
  have hdot : Safe (keptSegments (trim value)) → keptSegments (trim value) ≠ [] →
      ['/'].intercalate (keptSegments (trim value)) ≠ ['.'] := fun h hk =>
    (Canonical.of_kept h hk).ne_dot
  have hspec (k : Text) := @normalizeRelativeKey_eq_ok (trim value) k
  unfold normalizeObjectKey
  cases hrel : normalizeRelativeKey (trim value) with
  | error e =>
    simp only [reduceCtorEq, false_iff]
    intro h
    cases hrel.symm.trans ((hspec _).mpr ⟨h.1, rfl⟩)
  | ok k =>
    obtain ⟨hsafe, rfl⟩ := (hspec k).mp hrel
    by_cases hk : keptSegments (trim value) = []
    · simp [hk]
    · simp only [if_neg hk, hdot hsafe hk, if_false, Except.ok.injEq]
      exact ⟨fun h => ⟨hsafe, hk, h.symm⟩, fun h => h.2.2.symm⟩

lemma normalizeObjectPrefix_eq_ok (hne : start ≠ []) :
    normalizeObjectPrefix value = .ok start ↔ normalizeObjectKey value = .ok start := by
  unfold normalizeObjectPrefix normalizeObjectKey
  cases normalizeRelativeKey (trim value) with
  | error e => simp
  | ok k =>
    simp only [Except.ok.injEq]
    split_ifs with hk
    · simp [hne.symm]
    · simp

/-- Normalising a value makes it no longer. -/
lemma length_intercalate_kept (pieces : List Text) :
    (['/'].intercalate (kept pieces)).length ≤ (['/'].intercalate pieces).length := by
  induction pieces with
  | nil => simp [kept]
  | cons piece pieces ih =>
    rw [kept_cons]
    by_cases hnil : pieces = []
    · subst hnil
      split <;> simp [kept]
    · rw [intercalate_cons_of_ne_nil hnil]
      split
      · simp only [length_append]
        omega
      · by_cases hk : kept pieces = []
        · simp [hk]
        · rw [intercalate_cons_of_ne_nil hk]
          simpa using ih

/-- **Normalising a key again** changes nothing exactly if no white space is left at its ends. -/
lemma Canonical.normalized_iff (h : Canonical key) : normalizeObjectKey key = .ok key ↔ trim key = key := by
  constructor
  · intro hn
    obtain ⟨-, -, hkey⟩ := normalizeObjectKey_eq_ok.mp hn
    have hlen : key.length ≤ (trim key).length := by
      conv_lhs => rw [hkey]
      refine (length_intercalate_kept _).trans ?_
      rw [intercalate_splitOn, slashed, length_map]
      exact (dropWhile_sublist _).length_le
    exact (trim_sublist key).eq_of_length_le hlen
  · intro ht
    rw [normalizeObjectKey_eq_ok, ht, h.kept.1]
    exact ⟨h.kept.1 ▸ h.kept.2, splitOn_ne_nil _ _, (intercalate_splitOn '/').symm⟩

lemma Canonical.strip_join (h : Canonical key) (start : Text) :
    stripKeyPrefix start (joinKeyPrefix start key) = some key := by
  have hne : key ≠ [] := by
    rintro rfl
    exact (h.segments [] (by simp)).1 rfl
  have hdrop : key.dropWhile (· = '/') = key := by
    obtain ⟨c, key, rfl⟩ := exists_cons_of_ne_nil hne
    exact dropWhile_cons_of_neg (by simpa using h.relative)
  unfold stripKeyPrefix joinKeyPrefix
  by_cases hs : trimEndSlashes start = []
  · simp [hs, hdrop]
  · have hp : (trimEndSlashes start).isPrefixOf? (trimEndSlashes start ++ '/' :: key) =
        some ('/' :: key) := isPrefixOf?_eq_some_iff_append_eq.mpr rfl
    simp [hs, hdrop, hne, hp]

lemma stripKeyPrefix_eq_some (hs : trimEndSlashes start ≠ []) (h : stripKeyPrefix start key = some s) :
    key = trimEndSlashes start ∨ key = trimEndSlashes start ++ '/' :: s := by
  simp only [stripKeyPrefix, hs, if_false] at h
  split at h
  · next heq => exact .inl heq
  · split at h
    · next rest hp =>
      cases h
      exact .inr (isPrefixOf?_eq_some_iff_append_eq.mp hp).symm
    · cases h

/-- **Object keys** are canonical, and prefixes are stripped from what they were joined to.  Normalising a
key or a prefix once more changes nothing exactly for the values that are refused, or whose segments have
no white space at their ends. -/
theorem object_key_normalized (value : Text) : ((∀ key, normalizeObjectKey value = .ok key →
        Canonical key ∧ normalizeObjectKey key = .ok key ∧
          ∀ start, stripKeyPrefix start (joinKeyPrefix start key) = some key) ∧
      (∀ start, normalizeObjectPrefix value = .ok start → start ≠ [] →
        normalizeObjectPrefix start = .ok start) ∧
      ∀ start key s, trimEndSlashes start ≠ [] → stripKeyPrefix start key = some s →
        key = trimEndSlashes start ∨ key = trimEndSlashes start ++ '/' :: s) ↔
    (Safe (keptSegments (trim value)) → CleanEnds (keptSegments (trim value))) := by
  have hne : ∀ s ∈ keptSegments (trim value), s ≠ [] := fun s hs => (mem_keptSegments hs).1
  have hclean : trim (['/'].intercalate (keptSegments (trim value))) =
      ['/'].intercalate (keptSegments (trim value)) ↔ CleanEnds (keptSegments (trim value)) := by
    rw [trim_eq_self, startsBlank_intercalate hne, endsBlank_intercalate hne, CleanEnds]
  constructor
  · rintro ⟨hkey, -, -⟩ hsafe
    by_cases hk : keptSegments (trim value) = []
    · simp [CleanEnds, hk]
    · obtain ⟨hcanon, hagain, -⟩ := hkey _ (normalizeObjectKey_eq_ok.mpr ⟨hsafe, hk, rfl⟩)
      exact hclean.mp (hcanon.normalized_iff.mp hagain)
  · intro h
    have hkey : ∀ key, normalizeObjectKey value = .ok key →
        Canonical key ∧ normalizeObjectKey key = .ok key := by
      intro key hn
      obtain ⟨hsafe, hk, rfl⟩ := normalizeObjectKey_eq_ok.mp hn
      have hcanon := Canonical.of_kept hsafe hk
      exact ⟨hcanon, hcanon.normalized_iff.mpr (hclean.mpr (h hsafe))⟩
    refine ⟨fun key hn => ?_, fun start hn hs => ?_, fun _ _ _ => stripKeyPrefix_eq_some⟩
    · obtain ⟨hcanon, hagain⟩ := hkey key hn
      exact ⟨hcanon, hagain, hcanon.strip_join⟩
    · exact (normalizeObjectPrefix_eq_ok hs).mpr (hkey start ((normalizeObjectPrefix_eq_ok hs).mp hn)).2

/-- White space behind a leading slash outlives the trimming. -/
theorem object_key_counterexample : normalizeObjectKey "/ a".toList = .ok " a".toList ∧
    normalizeObjectKey " a".toList = .ok "a".toList := by
  decide

end AsterForge.Storage
