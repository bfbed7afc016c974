import AsterForge.Library.Substring
import Mathlib.Data.Char

/-!
# Case-insensitive search

A text is searched with `LOWER(column) LIKE pattern`.  The program lowers the pattern, with the Unicode
mapping, and the database lowers the column, with a mapping of its own; SQLite lowers ASCII letters only.

* `LowerTable` — the lower-case mapping of the program.
* `LowerFunction` — `LOWER` of a database, with what is relied on.
* **`lowerLikeCondition_iff`** — what the condition says of the two mappings.
* **`lower_like_finds`** — the search finds the texts that contain the query, exactly if both mappings agree on
  the letters of the query.
-/

namespace AsterForge.Db

open Library WildcardPart List

/-- A lower-case mapping of characters, as Unicode has it. -/
structure LowerTable where
  toLowercase : Char → Text
  ne_nil : ∀ c, toLowercase c ≠ []
  ascii : ∀ c : Char, c.toNat < 128 → toLowercase c = [c.toLower]
  idem : ∀ c, (toLowercase c).flatMap toLowercase = toLowercase c
  letter : ∀ c d, 128 ≤ c.toNat → d ∈ toLowercase c → d.toNat < 128 → d.isAlpha = true

/-- `LOWER` of a database: it maps a text letter by letter, changes nothing of a letter but its case, and makes
it no longer than the program does. -/
structure LowerFunction (table : LowerTable) where
  toLower : Char → Text
  caseOnly : ∀ c, (toLower c).flatMap table.toLowercase = table.toLowercase c
  length_le : ∀ c, (toLower c).length ≤ (table.toLowercase c).length

variable (table : LowerTable)

/-- `char::to_lowercase` of every character of a text. -/
def LowerTable.lower (text : Text) : Text := text.flatMap table.toLowercase

/-- The texts that `LOWER` makes. -/
def LowerFunction.lower {table : LowerTable} (backend : LowerFunction table) (text : Text) : Text :=
  text.flatMap backend.toLower

/-- `LIKE` with `\\` for its escape character, which no pattern may end with.  Both sides are lowered, so
comparing without ASCII case is comparing. -/
def likeParts : Text → List WildcardPart
  | [] => []
  | ['\\'] => [.one fun _ => false]
  | '\\' :: c :: rest => literal c :: likeParts rest
  | '%' :: rest => .many :: likeParts rest
  | '_' :: rest => .one (fun _ => true) :: likeParts rest
  | c :: rest => literal c :: likeParts rest

/-- What the pattern has for a character of the query. -/
def escapedLower : Char → Text
  | '\\' => ['\\', '\\']
  | '%' => ['\\', '%']
  | '_' => ['\\', '_']
  | c => table.toLowercase c

def lowerLikePattern (query : Text) : Text :=
  '%' :: query.flatMap (escapedLower table) ++ ['%']

def lowerLikeCondition {table : LowerTable} (backend : LowerFunction table) (query text : Text) : Bool :=
  wildcardMatches (likeParts (lowerLikePattern table query)) (backend.lower text)

variable {t : LowerTable} {tx qr r : Text} (backend : LowerFunction t)

lemma likeParts_plain {l : Text} (h : ∀ c ∈ l, c ≠ '\\' ∧ c ≠ '%' ∧ c ≠ '_') :
    likeParts (l ++ r) = l.map literal ++ likeParts r := by
  induction l with
  | nil => rfl
  | cons c l ih =>
    obtain ⟨⟨hb, hp, hu⟩, hl⟩ := forall_mem_cons.mp h
    rw [cons_append, map_cons, cons_append, ← ih hl, likeParts]
    all_goals simp_all

def likeMetachars : List Char := ['\\', '%', '_']

lemma toLower_ascii : ∀ n : Fin 128, (Char.ofNat n).toLower ∈ likeMetachars →
    Char.ofNat n ∈ likeMetachars := by
  decide

/-- No other character has one of these for its small letter. -/
lemma notMem_toLowercase {c : Char} (hc : c ∉ likeMetachars) : ∀ d ∈ t.toLowercase c, d ∉ likeMetachars := by
  intro d hd hm
  by_cases hascii : c.toNat < 128
  · rw [t.ascii c hascii, mem_singleton] at hd
    subst hd
    have hlow := toLower_ascii ⟨c.toNat, hascii⟩
    simp only [Char.ofNat_toNat] at hlow
    exact hc (hlow hm)
  · have hletter := t.letter c d (not_lt.mp hascii) hd
    simp only [likeMetachars, mem_cons, not_mem_nil, or_false] at hm
    rcases hm with rfl | rfl | rfl <;> exact absurd (hletter (by decide)) (by decide)

lemma likeParts_escapedLower (c : Char) : likeParts (escapedLower t c ++ r) =
    (t.toLowercase c).map literal ++ likeParts r := by
  by_cases hmeta : c ∈ likeMetachars
  · simp only [likeMetachars, mem_cons, not_mem_nil, or_false] at hmeta
    rcases hmeta with rfl | rfl | rfl <;> rw [t.ascii _ (by decide)] <;> rfl
  · have hesc : escapedLower t c = t.toLowercase c := by
      simp only [likeMetachars, mem_cons, not_mem_nil, or_false, not_or] at hmeta
      unfold escapedLower
      split <;> simp_all
    rw [hesc]
    refine likeParts_plain fun d hd => ?_
    simpa [likeMetachars] using notMem_toLowercase hmeta d hd

open LowerTable

/-- **The condition** holds of the texts that, lowered by the database, contain the lowered query. -/
theorem lowerLikeCondition_iff : lowerLikeCondition backend qr tx = true ↔
    t.lower qr <:+: backend.lower tx := by
  have hparts (q : Text) : likeParts (q.flatMap (escapedLower t) ++ ['%']) =
      (t.lower q).map literal ++ [.many] := by
    induction q with
    | nil => rfl
    | cons c q ih =>
      rw [flatMap_cons, append_assoc, likeParts_escapedLower, ih]
      simp [lower]
  rw [lowerLikeCondition, lowerLikePattern, cons_append, likeParts, hparts, ← cons_append, wildcard_contains]

/-! ## The two mappings -/

variable (text : Text)

lemma lower_backend : t.lower (backend.lower text) = t.lower text := by
  rw [lower, lower, LowerFunction.lower, flatMap_assoc]
  exact flatMap_congr fun c _ => backend.caseOnly c

lemma lower_lower : t.lower (t.lower text) = t.lower text := by
  rw [lower, lower, flatMap_assoc]
  exact flatMap_congr fun c _ => t.idem c

lemma length_lower_le : (backend.lower text).length ≤ (t.lower text).length := by
  induction text with
  | nil => exact Nat.le_refl _
  | cons c text ih =>
    rw [LowerFunction.lower, lower, flatMap_cons, flatMap_cons, length_append, length_append]
    exact Nat.add_le_add (backend.length_le c) ih

/-- No letter is made longer, so two equal texts are equal letter by letter. -/
lemma lower_eq_iff : t.lower tx = backend.lower tx ↔ ∀ c ∈ tx, t.toLowercase c = backend.toLower c := by
  induction tx with
  | nil => simp [lower, LowerFunction.lower]
  | cons c tx ih =>
    rw [lower, LowerFunction.lower, flatMap_cons, flatMap_cons, ← lower,
      ← LowerFunction.lower, forall_mem_cons, ← ih]
    constructor
    · intro h
      have hlen := congrArg length h
      have hle := length_lower_le backend tx
      have hfirst := backend.length_le c
      rw [length_append, length_append] at hlen
      exact append_inj h (by omega)
    · rintro ⟨hc, ht⟩
      rw [hc, ht]

lemma LowerTable.lower_infix (h : qr <:+: tx) : t.lower qr <:+: t.lower tx := by
  obtain ⟨before, after, rfl⟩ := h
  exact ⟨t.lower before, t.lower after, by simp [lower]⟩

/-- **Searching a text for its own words**: what is found contains the query but for case; and every text with
the query is found, exactly if the database lowers each letter of the query as the program does. -/
theorem lower_like_finds (table : LowerTable) (backend : LowerFunction table) (query : Text) :
    ((∀ tx, query <:+: tx → lowerLikeCondition backend query tx = true) ∧
      ∀ tx, lowerLikeCondition backend query tx = true → table.lower query <:+: table.lower tx) ↔
    ∀ c ∈ query, table.toLowercase c = backend.toLower c := by
  simp only [lowerLikeCondition_iff, ← lower_eq_iff]
  constructor
  · rintro ⟨hown, -⟩
    exact (hown query infix_rfl).eq_of_length_le (length_lower_le backend query)
  · intro h
    refine ⟨fun tx hq => ?_, fun tx hq => ?_⟩
    · rw [h]
      obtain ⟨before, after, rfl⟩ := hq
      exact ⟨backend.lower before, backend.lower after, by simp [LowerFunction.lower]⟩
    · rw [← lower_lower query, ← lower_backend backend tx]
      exact lower_infix hq

/-- `LOWER` of SQLite, for the ASCII letters. -/
def sqlite (table : LowerTable) : LowerFunction table where
  toLower c := [c.toLower]
  length_le c := length_pos_iff.mpr (table.ne_nil c)
  caseOnly c := by
    rw [flatMap_singleton]
    by_cases hc : c.toNat < 128
    · have hidem := table.idem c
      rw [table.ascii c hc, flatMap_singleton] at hidem
      rw [hidem, table.ascii c hc]
    · rw [toLower_of_not_ascii (not_lt.mp hc)]

/-- The mapping for the ASCII letters and one more. -/
def acuteTable : LowerTable where
  toLowercase c := if c = 'É' then ['é'] else [c.toLower]
  ne_nil c := by split <;> exact cons_ne_nil _ _
  ascii c hc := if_neg fun h => absurd (h ▸ hc) (by decide)
  idem c := by
    by_cases hc : c = 'É'
    · subst hc
      decide
    · have hlow : c.toLower ≠ 'É' ∧ c.toLower.toLower = c.toLower := by
        by_cases hascii : c.toNat < 128
        · have hall : ∀ n : Fin 128, (Char.ofNat n).toLower ≠ 'É' ∧
              (Char.ofNat n).toLower.toLower = (Char.ofNat n).toLower := by
            decide
          simpa using hall ⟨c.toNat, hascii⟩
        · rw [toLower_of_not_ascii (not_lt.mp hascii), toLower_of_not_ascii (not_lt.mp hascii)]
          exact ⟨hc, rfl⟩
      simp [hc, hlow]
  letter c d hc hd hascii := by
    split at hd
    · rw [mem_singleton.mp hd] at hascii
      exact absurd hascii (by decide)
    · rw [mem_singleton.mp hd, toLower_of_not_ascii hc] at hascii
      omega

/-- SQLite does not find a text with a capital beyond ASCII by its own words. -/
theorem lower_like_counterexample :
    ['É'] <:+: ['É'] ∧ lowerLikeCondition (sqlite acuteTable) ['É'] ['É'] = false := by
  refine ⟨infix_rfl, ?_⟩
  decide

end AsterForge.Db
