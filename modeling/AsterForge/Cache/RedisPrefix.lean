import AsterForge.Cache.TtlMap
import AsterForge.Library.Substring

/-!
# Invalidation of a prefix in Redis

The keys with a prefix are found by scanning with a glob pattern, page after page, until the server gives
the cursor back with which a scan begins.

* **`glob_scanPattern`** — the pattern stands for the keys with the prefix, whatever characters are in it.
* **`redis_prefix_invalidated`** — what is deleted: the keys with the prefix that the server had all along,
  and no others.
-/

namespace AsterForge.Cache

open Library WildcardPart List

/-! ## Glob patterns -/

/-- The characters in the brackets, as ranges, or all but these. -/
def classPart (cls : Bool × List (Char × Char)) : WildcardPart :=
  .one fun c => (cls.2.any fun range =>
    (range.1 ≤ c && c ≤ range.2) || (range.2 ≤ c && c ≤ range.1)) != cls.1

/-- The server reads a pattern from the left; within brackets it collects ranges. -/
def globParts : Option (Bool × List (Char × Char)) → Text → List WildcardPart
  | none, [] => []
  | none, '*' :: rest => .many :: globParts none rest
  | none, '?' :: rest => .one (fun _ => true) :: globParts none rest
  | none, '[' :: '^' :: rest => globParts (some (true, [])) rest
  | none, '[' :: rest => globParts (some (false, [])) rest
  | none, '\\' :: c :: rest => literal c :: globParts none rest
  | none, c :: rest => literal c :: globParts none rest
  | some cls, [] => [classPart cls]
  | some cls, ']' :: rest => classPart cls :: globParts none rest
  | some (negated, ranges), '\\' :: c :: rest => globParts (some (negated, (c, c) :: ranges)) rest
  | some (negated, ranges), a :: '-' :: b :: rest => globParts (some (negated, (a, b) :: ranges)) rest
  | some (negated, ranges), c :: rest => globParts (some (negated, (c, c) :: ranges)) rest

def globMatches (pattern key : Text) : Bool := wildcardMatches (globParts none pattern) key

def escapeScanGlobLiteral (start : Text) : Text :=
  replaceChar ']' ['\\', ']'] (replaceChar '[' ['\\', '['] (replaceChar '?' ['\\', '?']
    (replaceChar '*' ['\\', '*'] (replaceChar '\\' ['\\', '\\'] start))))

def scanPattern (start : Text) : Text := escapeScanGlobLiteral start ++ ['*']

def metachars : List Char := ['\\', '*', '?', '[', ']']

def escaped (c : Char) : Text := if c ∈ metachars then ['\\', c] else [c]

lemma escapeScanGlobLiteral_eq (s : Text) : escapeScanGlobLiteral s = s.flatMap escaped := by
  simp only [escapeScanGlobLiteral, replaceChar, flatMap_assoc]
  refine flatMap_congr fun c _ => ?_
  by_cases hc : c ∈ metachars
  · simp only [metachars, mem_cons, not_mem_nil, or_false] at hc
    rcases hc with rfl | rfl | rfl | rfl | rfl <;> rfl
  · have hne : ∀ d ∈ metachars, c ≠ d := fun d hd h => hc (h ▸ hd)
    simp only [metachars, forall_mem_cons] at hne
    simp [escaped, hc, hne]

lemma globParts_escaped (c : Char) (rest : Text) :
    globParts none (escaped c ++ rest) = literal c :: globParts none rest := by
  unfold escaped
  split
  · rfl
  · next hc =>
    simp only [metachars, mem_cons, not_mem_nil, or_false, not_or] at hc
    rw [cons_append, nil_append, globParts]
    all_goals simp_all

/-- **The pattern of a prefix** stands for the keys that begin with it. -/
theorem glob_scanPattern (s key : Text) : globMatches (scanPattern s) key = true ↔ s <+: key := by
  have hparts : globParts none (scanPattern s) = s.map literal ++ [.many] := by
    rw [scanPattern, escapeScanGlobLiteral_eq]
    induction s with
    | nil => rfl
    | cons c s ih => rw [flatMap_cons, append_assoc, globParts_escaped, ih, map_cons, cons_append]
  rw [globMatches, hparts, wildcard_begins]

/-! ## The loop -/

/-- One turn of the loop: the keys that the server had all through it, up to the deletion, and what the
client heard of the scan and of the deletion.  It hears nothing while the circuit is open, and after an
error or a time-out. -/
structure ScanTurn where
  present : Set Text
  scanned : Option (ℕ × List Text)
  deleted : Bool

def ScanTurn.keys (turn : ScanTurn) : List Text := (turn.scanned.map Prod.snd).getD []

inductive RedisCommand
  | scan (cursor : ℕ) (pattern : Text)
  | delete (keys : List Text)

structure ScanRun where
  commands : List RedisCommand
  turns : List ScanTurn
  /-- Whether the cursor came back, once the loop is over. -/
  ended : Option Bool

def scanLoop (pattern : Text) : ℕ → List ScanTurn → ScanRun
  | _, [] => ⟨[], [], none⟩
  | cursor, turn :: turns =>
    match turn.scanned with
    | none => ⟨[.scan cursor pattern], [turn], some false⟩
    | some (next, keys) =>
      let commands := .scan cursor pattern :: if keys.isEmpty then [] else [.delete keys]
      if !keys.isEmpty && !turn.deleted then ⟨commands, [turn], some false⟩
      else if next = 0 then ⟨commands, [turn], some true⟩
      else
        let rest := scanLoop pattern next turns
        ⟨commands ++ rest.commands, turn :: rest.turns, rest.ended⟩

def invalidatePrefix {moka : Moka} (memory : MemoryCache moka) (now : ℕ) (start : Text)
    (turns : List ScanTurn) : MemoryCache moka × ScanRun :=
  (memory.invalidatePrefix now start, scanLoop (scanPattern start) 0 turns)

variable {pattern start key : Text} {t : List ScanTurn} {cursor : ℕ}

/-- Nobody else removes the key. -/
def KeptByOthers (key : Text) (turns : List ScanTurn) : Prop :=
  turns.IsChain fun turn next => key ∈ turn.present → key ∉ turn.keys → key ∈ next.present

/-- What the server promises of a scan: it gives keys that match, and when the cursor has come back, it has
given every key that matches and was there all along. -/
structure ScanGuarantee (pattern : Text) (run : ScanRun) : Prop where
  matching : ∀ turn ∈ run.turns, ∀ key ∈ turn.keys, globMatches pattern key = true
  complete : run.ended = some true → ∀ key, globMatches pattern key = true →
    (∀ turn ∈ run.turns, key ∈ turn.present) → ∃ turn ∈ run.turns, key ∈ turn.keys

/-- **The loop** deletes what the scan gave, and goes on only after the deletion was answered. -/
lemma scanLoop_spec (p : Text) (c : ℕ) (turns : List ScanTurn) :
    (∀ keys, .delete keys ∈ (scanLoop p c turns).commands →
        ∃ turn ∈ (scanLoop p c turns).turns, keys = turn.keys) ∧
      ((scanLoop p c turns).ended = some true →
        ∀ turn ∈ (scanLoop p c turns).turns, turn.keys ≠ [] →
        turn.deleted = true ∧ .delete turn.keys ∈ (scanLoop p c turns).commands) := by
  induction turns generalizing c with
  | nil => simp [scanLoop]
  | cons turn turns ih =>
    cases hscan : turn.scanned with
    | none => simp [scanLoop, hscan]
    | some page =>
      obtain ⟨next, keys⟩ := page
      have hkeys : turn.keys = keys := by simp [ScanTurn.keys, hscan]
      obtain ⟨hsent, hdone⟩ := ih next
      simp only [scanLoop, hscan]
      cases keys with
      | nil =>
        by_cases hnext : next = 0
        · simp [hnext, hkeys]
        · simp only [List.isEmpty_nil, Bool.not_true, Bool.false_and, hnext, if_false, if_true]
          refine ⟨fun k hk => ?_, fun hend t ht hne => ?_⟩
          · obtain ⟨t, ht, rfl⟩ := hsent k (by simpa using hk)
            exact ⟨t, mem_cons_of_mem _ ht, rfl⟩
          · rcases mem_cons.mp ht with rfl | ht
            · exact absurd hkeys hne
            · obtain ⟨hd, hc⟩ := hdone hend t ht hne
              exact ⟨hd, mem_append_right _ hc⟩
      | cons k ks =>
        cases hdel : turn.deleted with
        | false => simp [hkeys]
        | true =>
          by_cases hnext : next = 0
          · simp [hnext, hkeys, hdel]
          · simp only [List.isEmpty_cons, Bool.not_false, Bool.not_true, Bool.and_false, hnext, if_false]
            refine ⟨fun k hk => ?_, fun hend t ht hne => ?_⟩
            · rcases mem_append.mp hk with hk | hk
              · exact ⟨turn, mem_cons_self, by simpa [hkeys] using hk⟩
              · obtain ⟨t, ht, rfl⟩ := hsent _ hk
                exact ⟨t, mem_cons_of_mem _ ht, rfl⟩
            · rcases mem_cons.mp ht with rfl | ht
              · exact ⟨hdel, by simp [hkeys]⟩
              · obtain ⟨hd, hc⟩ := hdone hend t ht hne
                exact ⟨hd, mem_append_right _ hc⟩

lemma present_of_kept (h : KeptByOthers key t) (hfirst : ∀ turn ∈ t.head?, key ∈ turn.present)
    (hnot : ∀ turn ∈ t, key ∉ turn.keys) : ∀ turn ∈ t, key ∈ turn.present := by
  induction t with
  | nil => exact forall_mem_nil _
  | cons turn t ih =>
    have hin : key ∈ turn.present := hfirst turn rfl
    cases t with
    | nil => exact forall_mem_singleton.mpr hin
    | cons next t =>
      obtain ⟨hstep, hrest⟩ := isChain_cons_cons.mp h
      refine forall_mem_cons.mpr ⟨hin, ih hrest ?_ (forall_mem_cons.mp hnot).2⟩
      rintro _ ⟨rfl⟩
      exact hstep hin (hnot turn mem_cons_self)

/-- **Invalidating a prefix.**  Only keys with the prefix are deleted.  If the cursor came back, every such
key that was there at the first scan and that nobody else removed was in a deletion that was answered.  The
local tier keeps no entry and no reservation of such a key. -/
theorem redis_prefix_invalidated {moka : Moka} (memory : MemoryCache moka) (now : ℕ) (s : Text)
    (turns : List ScanTurn) (h : ScanGuarantee (scanPattern s) (invalidatePrefix memory now s turns).2) :
    let done := invalidatePrefix memory now s turns
    (∀ key, globMatches (scanPattern s) key = true ↔ s <+: key) ∧
      (∀ keys, .delete keys ∈ done.2.commands → ∀ key ∈ keys, s <+: key) ∧
      (done.2.ended = some true → ∀ key, s <+: key →
        (∃ turn ∈ done.2.turns.head?, key ∈ turn.present) → KeptByOthers key done.2.turns →
        ∃ turn ∈ done.2.turns, key ∈ turn.keys ∧ turn.deleted = true ∧
          .delete turn.keys ∈ done.2.commands) ∧
      ∀ key, s <+: key → unexpired now (moka.stored done.1.cache key) = none ∧
        done.1.reservations.entries.lookup key = none := by
  obtain ⟨hsent, hdone⟩ := scanLoop_spec (scanPattern s) 0 turns
  refine ⟨glob_scanPattern s, fun keys hk key hm => ?_, fun hend key hp hfirst hkept => ?_,
    fun key hp => ⟨?_, ?_⟩⟩
  · obtain ⟨turn, ht, rfl⟩ := hsent keys hk
    exact (glob_scanPattern s key).mp (h.matching turn ht key hm)
  · by_contra hnone
    have hnot : ∀ turn ∈ (scanLoop (scanPattern s) 0 turns).turns, key ∉ turn.keys := by
      intro turn ht hm
      obtain ⟨hd, hc⟩ := hdone hend turn ht (ne_nil_of_mem hm)
      exact hnone ⟨turn, ht, hm, hd, hc⟩
    obtain ⟨first, hf, hin⟩ := hfirst
    have hall := present_of_kept hkept (fun turn ht => Option.mem_unique hf ht ▸ hin) hnot
    obtain ⟨turn, ht, hm⟩ := h.complete hend key ((glob_scanPattern s key).mpr hp) hall
    exact hnot turn ht hm
  · have hpre : s.isPrefixOf key = true := isPrefixOf_iff_prefix.mpr hp
    rw [invalidatePrefix, MemoryCache.invalidatePrefix, unexpired_foldl_remove]
    simp only [mem_filter, moka.mem_keys, hpre, and_true]
    split
    · rfl
    · next hvis => simpa using hvis
  · rw [invalidatePrefix, MemoryCache.invalidatePrefix, ReservationState.lookup_invalidatePrefix,
      if_pos ( isPrefixOf_iff_prefix.mpr hp)]

/-- A page with a key twice, an empty page, and one that ends the scan. -/
theorem redis_prefix_invalidated_pages :
    let memory : MemoryCache (ExpiringCache.table Text MemoryCacheValue) := .new _
    let t : List ScanTurn := [⟨{['a', '*', 'b']}, some (7, [['a', '*', 'b'], ['a', '*', 'b']]), true⟩,
      ⟨∅, some (3, []), true⟩, ⟨∅, some (0, []), true⟩]
    ∃ turn ∈ (invalidatePrefix memory 0 ['a', '*'] t).2.turns,
      ['a', '*', 'b'] ∈ turn.keys ∧ turn.deleted = true ∧
        .delete turn.keys ∈ (invalidatePrefix memory 0 ['a', '*'] t).2.commands := by
  intro memory t
  refine (redis_prefix_invalidated memory 0 ['a', '*'] t ⟨?_, ?_⟩).2.2.1 rfl ['a', '*', 'b']
    (by decide) ⟨_, rfl, rfl⟩ ?_
  · simp [invalidatePrefix, scanLoop, t, ScanTurn.keys]
    decide
  · intro _ key hm hall
    have hkey := hall ⟨∅, some (3, []), true⟩ (by simp [invalidatePrefix, scanLoop, t])
    simp at hkey
  · simp [invalidatePrefix, scanLoop, t, KeptByOthers, ScanTurn.keys]

end AsterForge.Cache
