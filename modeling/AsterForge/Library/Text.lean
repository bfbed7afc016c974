import Mathlib.Algebra.Order.Ring.Nat
import Mathlib.Data.List.Dedup
import Mathlib.Data.List.DropRight
import Mathlib.Data.List.Sort
import Mathlib.Data.List.TakeDrop

/-!
# Text as a list of characters

Parsers take text apart character by character, so here a text is the list of its characters.  White
space, trimming, cutting at a character and comparing without case are what a parser's host language has
for that.

* **`flatten_map_trim`** — when trimming the pieces of a text does what trimming the text does.
-/

namespace AsterForge.Library

open List

abbrev Text := List Char

instance (text : Text) (p : Char → Prop) [DecidablePred p] : Decidable (∀ c ∈ text, p c) := decidableBAll p text

instance (text : Text) (texts : List Text) : Decidable (text ∈ texts) := inferInstance

/-- Unicode white space. -/
def isWhitespace (c : Char) : Bool :=
  (0x9 ≤ c.toNat && c.toNat ≤ 0xD) || c.toNat = 0x20 || c.toNat = 0x85 || c.toNat = 0xA0 ||
    c.toNat = 0x1680 || (0x2000 ≤ c.toNat && c.toNat ≤ 0x200A) || c.toNat = 0x2028 ||
    c.toNat = 0x2029 || c.toNat = 0x202F || c.toNat = 0x205F || c.toNat = 0x3000

def trimStart (text : Text) : Text := text.dropWhile isWhitespace

def trimEnd (text : Text) : Text := text.rdropWhile isWhitespace

def trim (text : Text) : Text := trimEnd (trimStart text)

/-- A text cut at the first occurrence of a character. -/
def splitOnce (separator : Char) (text : Text) : Option (Text × Text) :=
  match text.span (· ≠ separator) with
  | (_, []) => none
  | (before, _ :: after) => some (before, after)

variable {t : Text} {pc : List Text}

lemma splitOnce_eq_some {s : Char} {b a : Text} : splitOnce s t = some (b, a) ↔ t = b ++ s :: a ∧ s ∉ b := by
  unfold splitOnce
  rw [span_eq_takeWhile_dropWhile]
  have hsplit := @takeWhile_append_dropWhile _ (fun c => decide (c ≠ s)) t
  cases hrest : t.dropWhile fun c => decide (c ≠ s) with
  | nil =>
    simp only [reduceCtorEq, false_iff, not_and, Decidable.not_not]
    rintro rfl
    have hall := dropWhile_eq_nil_iff.mp hrest s (by simp)
    simp at hall
  | cons c r =>
    have hne : (t.dropWhile fun c => decide (c ≠ s)) ≠ [] := by
      rw [hrest]
      exact cons_ne_nil _ _
    have hc := head_dropWhile_not (fun c => decide (c ≠ s)) hne
    rw [hrest] at hsplit
    simp only [hrest, head_cons, decide_eq_false_iff_not, ne_eq, Decidable.not_not] at hc
    subst hc
    simp only [Option.some.injEq, Prod.mk.injEq]
    constructor
    · rintro ⟨rfl, rfl⟩
      refine ⟨hsplit.symm, ?_⟩
      intro hm
      simpa using mem_takeWhile_imp hm
    · rintro ⟨ht, hm⟩
      have hall : ∀ d ∈ b, decide (d ≠ c) = true := by
        intro d hd
        exact decide_eq_true fun h => hm (h ▸ hd)
      rw [ht, takeWhile_append_of_pos hall, takeWhile_cons_of_neg (by simp), append_nil]
      rw [ht, dropWhile_append_of_pos hall, dropWhile_cons_of_neg (by simp)] at hrest
      exact ⟨rfl, (cons.inj hrest).2.symm⟩

lemma notMem_of_splitOnce {s : Char} (h : splitOnce s t = none) : s ∉ t := by
  intro hm
  obtain ⟨b, a, rfl, hb⟩ := eq_append_cons_of_mem hm
  rw [splitOnce_eq_some.mpr ⟨rfl, hb⟩] at h
  cases h

def toAsciiLowercase (text : Text) : Text := text.map Char.toLower

def eqIgnoreAsciiCase (left right : Text) : Bool := toAsciiLowercase left = toAsciiLowercase right

def isHexDigit (c : Char) : Bool :=
  ('0' ≤ c && c ≤ '9') || ('a' ≤ c && c ≤ 'f') || ('A' ≤ c && c ≤ 'F')

def percentEscaped : Text → Bool
  | [] => true
  | '%' :: first :: second :: rest => isHexDigit first && isHexDigit second && percentEscaped rest
  | c :: rest => c ≠ '%' && percentEscaped rest

def latin1 (bytes : List UInt8) : Text := bytes.map fun byte => Char.ofNat byte.toNat

def headerText (value : List UInt8) : Option Text :=
  if value.all fun byte => (32 ≤ byte && byte < 127) || byte = 9 then some (latin1 value) else none

/-- Each occurrence of a character replaced by a text. -/
def replaceChar (c : Char) (replacement text : Text) : Text :=
  text.flatMap fun d => if d = c then replacement else [d]

/-! ## Case -/

lemma toLower_of_not_ascii {c : Char} (hc : 128 ≤ c.toNat) : c.toLower = c := by
  refine dif_neg ?_
  rintro ⟨-, hz⟩
  exact absurd (hc.trans (UInt32.le_iff_toNat_le.mp hz)) (by decide)

/-- What holds of the ASCII characters holds of the others, which have no case here. -/
lemma toLower_induction {p : Char → Char → Prop} (hascii : ∀ n : Fin 128, p (Char.ofNat n) (Char.ofNat n).toLower)
    (hother : ∀ c : Char, 128 ≤ c.toNat → p c c) (c : Char) : p c c.toLower := by
  by_cases hc : c.toNat < 128
  · simpa using hascii ⟨c.toNat, hc⟩
  · rw [toLower_of_not_ascii (not_lt.mp hc)]
    exact hother c (not_lt.mp hc)

lemma toLower_toLower (c : Char) : c.toLower.toLower = c.toLower :=
  toLower_induction (p := fun _ l => l.toLower = l) (by decide) (fun _ => toLower_of_not_ascii) c

lemma toLower_eq_of_not_alpha {c d : Char} (hd : d.isAlpha = false) (h : c.toLower = d) : c = d := by
  subst h
  exact toLower_induction (p := fun c l => l.isAlpha = false → c = l) (by decide) (fun _ _ _ => rfl) c hd

lemma isWhitespace_toLower (c : Char) : isWhitespace c.toLower = isWhitespace c :=
  toLower_induction (p := fun c l => isWhitespace l = isWhitespace c) (by decide) (fun _ _ => rfl) c

lemma toAsciiLowercase_idem (text : Text) :
    toAsciiLowercase (toAsciiLowercase text) = toAsciiLowercase text := by
  rw [toAsciiLowercase, toAsciiLowercase, map_map]
  exact map_congr_left fun c _ => toLower_toLower c

lemma trim_toAsciiLowercase (text : Text) : trim (toAsciiLowercase text) = toAsciiLowercase (trim text) := by
  have hblank : isWhitespace ∘ Char.toLower = isWhitespace := funext isWhitespace_toLower
  simp only [trim, trimEnd, trimStart, toAsciiLowercase, rdropWhile, dropWhile_map, hblank, ← map_reverse]

lemma toAsciiLowercase_append (left right : Text) :
    toAsciiLowercase (left ++ right) = toAsciiLowercase left ++ toAsciiLowercase right := map_append

lemma lower_eq_append {l r : Text} (h : toAsciiLowercase t = toAsciiLowercase (l ++ r)) :
    ∃ l' r', t = l' ++ r' ∧ toAsciiLowercase l' = toAsciiLowercase l ∧
      toAsciiLowercase r' = toAsciiLowercase r := by
  rw [toAsciiLowercase_append] at h
  exact map_eq_append_iff.mp h

/-- Text without letters has no case. -/
lemma eq_of_lower_eq {l : Text} (hl : ∀ c ∈ l, c.isAlpha = false)
    (h : toAsciiLowercase t = toAsciiLowercase l) : t = l := by
  induction l generalizing t with
  | nil => simpa [toAsciiLowercase] using h
  | cons d l ih =>
    obtain ⟨c, t', rfl, hc, ht⟩ := map_eq_cons_iff.mp h
    obtain ⟨hd, hl⟩ := forall_mem_cons.mp hl
    have hlow : d.toLower = d :=
      toLower_induction (p := fun d l => d.isAlpha = false → l = d) (by decide) (fun _ _ _ => rfl) d hd
    rw [ih hl ht, toLower_eq_of_not_alpha hd (hc.trans hlow)]

/-! ## Cutting and joining -/

lemma takeWhile_cut {p : Char → Bool} {l r : Text} (hl : ∀ c ∈ l, p c = true)
    (hr : r.head?.all (!p ·) = true) : (l ++ r).takeWhile p = l ∧ (l ++ r).dropWhile p = r := by
  rw [takeWhile_append_of_pos hl, dropWhile_append_of_pos hl]
  cases r with
  | nil => simp
  | cons c r =>
    have hc : p c = false := by simpa using hr
    simp [hc]

/-- A text is cut in one way where the next part begins with what the first has nowhere. -/
lemma append_inj_of_notMem {l l' r r' : Text} {p : Char → Bool} (h : l ++ r = l' ++ r')
    (hl : ∀ c ∈ l, p c = false) (hl' : ∀ c ∈ l', p c = false)
    (hr : r.head?.all p = true) (hr' : r'.head?.all p = true) : l = l' ∧ r = r' := by
  have hcut := takeWhile_cut (p := (!p ·)) (by simpa using hl) (r := r) (by simpa using hr)
  have hcut' := takeWhile_cut (p := (!p ·)) (by simpa using hl') (r := r') (by simpa using hr')
  rw [h] at hcut
  exact ⟨hcut.1.symm.trans hcut'.1, hcut.2.symm.trans hcut'.2⟩

lemma notMem_of_mem_splitOn {s : Char} {p : Text} (h : p ∈ t.splitOn s) : s ∉ p := by
  induction t generalizing p with
  | nil =>
    obtain rfl : p = [] := by simpa using h
    exact not_mem_nil
  | cons c t ih =>
    rw [splitOn_cons_eq_if_modifyHead] at h
    split at h
    · rcases mem_cons.mp h with rfl | h
      · exact not_mem_nil
      · exact ih h
    · rename_i hc
      obtain ⟨first, rest, hs⟩ := exists_cons_of_ne_nil (splitOn_ne_nil s t)
      rw [hs] at h ih
      rcases mem_cons.mp h with rfl | h
      · have hfirst := ih mem_cons_self
        have hne : s ≠ c := fun heq => hc (by simp [heq])
        simp [hfirst, hne]
      · exact ih (mem_cons_of_mem first h)

lemma infix_intercalate {s : Char} {pc : Text} : ∀ {p : List Text}, pc ∈ p → pc <:+: [s].intercalate p
  | [first], hp => by
    simp [mem_singleton.mp hp]
  | first :: second :: p, hp => by
    rw [intercalate_cons_cons]
    rcases mem_cons.mp hp with rfl | hp
    · exact ( prefix_append_of_prefix (prefix_append _ _)).isInfix
    · exact (infix_intercalate hp).trans (suffix_append _ _).isInfix

/-! ## Trimming -/

def isBlank (text : Text) : Bool := text.all isWhitespace

def startsBlank (text : Text) : Bool := text.head?.any isWhitespace

def endsBlank (text : Text) : Bool := text.getLast?.any isWhitespace

lemma isEmpty_dropWhile (text : Text) : (text.dropWhile isWhitespace).isEmpty = isBlank text := by
  rw [Bool.eq_iff_iff, List.isEmpty_iff, List.dropWhile_eq_nil_iff, isBlank, List.all_eq_true]

lemma isBlank_reverse (text : Text) : isBlank text.reverse = isBlank text := all_reverse

lemma trimStart_append (left right : Text) :
    trimStart (left ++ right) = if isBlank left then trimStart right else trimStart left ++ right := by
  rw [trimStart, trimStart, trimStart, dropWhile_append, isEmpty_dropWhile]

lemma trimEnd_append (left right : Text) :
    trimEnd (left ++ right) = if isBlank right then trimEnd left else left ++ trimEnd right := by
  rw [trimEnd, trimEnd, trimEnd, rdropWhile, rdropWhile, rdropWhile,
    reverse_append, dropWhile_append, isEmpty_dropWhile, isBlank_reverse]
  split
  · rfl
  · rw [reverse_append, reverse_reverse]

lemma trimStart_eq_nil : trimStart t = [] ↔ isBlank t = true := by
  rw [trimStart, dropWhile_eq_nil_iff, isBlank, all_eq_true]

lemma trimEnd_eq_nil : trimEnd t = [] ↔ isBlank t = true := by
  rw [trimEnd, rdropWhile_eq_nil_iff, isBlank, all_eq_true]

lemma trimStart_eq_self : trimStart t = t ↔ startsBlank t = false := by
  cases t with
  | nil => simp [trimStart, startsBlank]
  | cons c t =>
    rw [trimStart]
    simp [startsBlank]

lemma trimEnd_eq_self : trimEnd t = t ↔ endsBlank t = false := by
  rw [trimEnd]
  rcases eq_nil_or_concat t with rfl | ⟨i, l, rfl⟩
  · simp [endsBlank]
  · simp [endsBlank]

lemma isBlank_append (left right : Text) : isBlank (left ++ right) = (isBlank left && isBlank right) :=
  all_append

lemma exists_blank_trimStart (text : Text) : ∃ b, isBlank b = true ∧ text = b ++ trimStart text := by
  refine ⟨text.takeWhile isWhitespace, ?_, (takeWhile_append_dropWhile).symm⟩
  rw [isBlank, all_eq_true]
  intro c hm
  exact mem_takeWhile_imp hm

lemma isBlank_trimStart (text : Text) : isBlank (trimStart text) = isBlank text := by
  obtain ⟨b, hb, ht⟩ := exists_blank_trimStart text
  conv_rhs => rw [ht, isBlank_append, hb, Bool.true_and]

lemma trim_eq_nil : trim t = [] ↔ isBlank t = true := by
  rw [trim, trimEnd_eq_nil, isBlank_trimStart]

lemma trim_blank_append {b : Text} (hb : isBlank b = true) (text : Text) : trim (b ++ text) = trim text := by
  rw [trim, trimStart_append, if_pos hb, trim]

lemma trim_append_blank {b : Text} (hb : isBlank b = true) (text : Text) : trim (text ++ b) = trim text := by
  rw [trim, trimStart_append]
  split
  case isTrue htext =>
    rw [trim_eq_nil.mpr htext]
    exact trimEnd_eq_nil.mpr (by rw [isBlank_trimStart, hb])
  case isFalse htext => rw [trimEnd_append, if_pos hb, trim]

lemma trim_sublist (text : Text) : (trim text).Sublist text :=
  ( rdropWhile_prefix _ _).sublist.trans (dropWhile_sublist _)

lemma trim_eq_self : trim t = t ↔ startsBlank t = false ∧ endsBlank t = false := by
  constructor
  · intro h
    have hs : trimStart t = t := by
      refine (dropWhile_sublist _).eq_of_length_le ?_
      calc t.length = (trim t).length := by rw [h]
        _ ≤ (trimStart t).length := ( rdropWhile_prefix _ _).sublist.length_le
    rw [trim, hs] at h
    exact ⟨trimStart_eq_self.mp hs, trimEnd_eq_self.mp h⟩
  · rintro ⟨hs, he⟩
    rw [trim, trimStart_eq_self.mpr hs, trimEnd_eq_self.mpr he]

lemma trim_trim (text : Text) : trim (trim text) = trim text := by
  have hstart : startsBlank (trimStart text) = false :=
    trimStart_eq_self.mp (dropWhile_idempotent (p := isWhitespace) text)
  have hend : endsBlank (trim text) = false := trimEnd_eq_self.mp (rdropWhile_idempotent _ _)
  refine trim_eq_self.mpr ⟨?_, hend⟩
  obtain ⟨rest, hrest⟩ : trim text <+: trimStart text := rdropWhile_prefix _ _
  rw [← hrest] at hstart
  cases htrim : trim text with
  | nil => rfl
  | cons c kept => simpa [startsBlank, htrim] using hstart

lemma trim_of_no_blank (h : ∀ c ∈ text, isWhitespace c = false) : trim text = text :=
  trim_eq_self.mpr ⟨(Option.any_eq_false ..).mpr fun c hc => h c (mem_of_head? hc),
    (Option.any_eq_false ..).mpr fun c hc => h c (mem_of_getLast? hc)⟩

lemma trim_eq_trimStart (ht : isBlank t = false) : trim t = trimStart t ↔ endsBlank t = false := by
  obtain ⟨b, -, hs⟩ := exists_blank_trimStart t
  have hne : trimStart t ≠ [] := by
    rw [ne_eq, trimStart_eq_nil, ht]
    exact Bool.false_ne_true
  rw [trim, trimEnd_eq_self]
  conv_rhs => rw [hs, endsBlank, getLast?_append_of_ne_nil _ hne, ← endsBlank]

lemma trim_eq_trimEnd (ht : isBlank t = false) : trim t = trimEnd t ↔ startsBlank t = false := by
  obtain ⟨b, hb, hs⟩ := exists_blank_trimStart t
  have hstart : isBlank (trimStart t) = false := by rw [isBlank_trimStart, ht]
  have hend : trimEnd t = b ++ trim t := by
    conv_lhs => rw [hs, trimEnd_append, hstart]
    rfl
  rw [hend, ← trimStart_eq_self]
  constructor
  · intro h
    have hnil : b = [] := by
      have hlen := congrArg length h
      rw [length_append] at hlen
      exact eq_nil_of_length_eq_zero (by omega)
    rw [hnil] at hs
    exact hs.symm
  · intro h
    have hnil : b = [] := by
      have hlen := congrArg length hs
      rw [length_append, h] at hlen
      exact eq_nil_of_length_eq_zero (by omega)
    rw [hnil, nil_append]

/-! ## Pieces of a text -/

def corePieces (pieces : List Text) : List Text := (pieces.dropWhile isBlank).rdropWhile isBlank

/-- No piece but the first starts with white space, and no piece but the last ends with it. -/
def Joined (pieces : List Text) : Prop :=
  (∀ piece ∈ pieces.tail, startsBlank piece = false) ∧ ∀ piece ∈ pieces.dropLast, endsBlank piece = false
  deriving Decidable

lemma isBlank_flatten (h : ∀ p ∈ pc, isBlank p = true) : isBlank pc.flatten = true := by
  rw [isBlank, all_eq_true]
  intro c hm
  obtain ⟨p, hp, hc⟩ := mem_flatten.mp hm
  exact all_eq_true.mp (h p hp) c hc

lemma map_trim_blank (h : ∀ p ∈ pc, isBlank p = true) : (pc.map trim).flatten = [] := by
  rw [flatten_eq_nil_iff]
  intro p hm
  obtain ⟨t, ht, rfl⟩ := mem_map.mp hm
  exact trim_eq_nil.mpr (h t ht)

lemma corePieces_spec (pieces : List Text) : ∃ b a, pieces = b ++ (corePieces pieces ++ a) ∧
    (∀ p ∈ b, isBlank p = true) ∧ ∀ p ∈ a, isBlank p = true := by
  refine ⟨pieces.takeWhile isBlank, (pieces.dropWhile isBlank).rtakeWhile isBlank, ?_, ?_, ?_⟩
  · rw [corePieces, rdropWhile_append_rtakeWhile, takeWhile_append_dropWhile]
  · intro p hm
    exact mem_takeWhile_imp hm
  · intro p hm
    exact mem_rtakeWhile_imp hm

lemma append_eq_of_sublist {left l' right r' : Text} (hl : left.Sublist l')
    (hr : right.Sublist r') (h : left ++ right = l' ++ r') : left = l' ∧ right = r' := by
  have hlen := congrArg length h
  rw [length_append, length_append] at hlen
  have hle := hl.length_le
  have hle' := hr.length_le
  exact ⟨hl.eq_of_length (by omega), hr.eq_of_length (by omega)⟩

lemma map_trim_sublist (pieces : List Text) : (pieces.map trim).flatten.Sublist pieces.flatten := by
  induction pieces with
  | nil => exact List.Sublist.refl _
  | cons p pieces ih => exact (trim_sublist p).append ih

lemma map_trim_eq_self : (pc.map trim).flatten = pc.flatten ↔ ∀ p ∈ pc, trim p = p := by
  induction pc with
  | nil => simp
  | cons p pc ih =>
    rw [map_cons, flatten_cons, flatten_cons, forall_mem_cons, ← ih]
    constructor
    · intro h
      exact append_eq_of_sublist (trim_sublist p) (map_trim_sublist pc) h
    · rintro ⟨hpc, hp⟩
      rw [hpc, hp]

lemma corePieces_ends (pieces : List Text) : corePieces pieces = [] ∨ (∃ p, corePieces pieces = [p]) ∨
    ∃ first m l, corePieces pieces = first :: (m ++ [l]) ∧ isBlank first = false ∧ isBlank l = false := by
  cases hcore : corePieces pieces with
  | nil => exact .inl rfl
  | cons first r =>
    rcases eq_nil_or_concat r with rfl | ⟨m, l, rfl⟩
    · exact .inr (.inl ⟨first, rfl⟩)
    · have hne : corePieces pieces ≠ [] := by simp [hcore]
      refine .inr (.inr ⟨first, m, l, by simp, ?_, ?_⟩)
      · have hprefix : corePieces pieces <+: pieces.dropWhile isBlank := rdropWhile_prefix _ _
        have hdrop : pieces.dropWhile isBlank ≠ [] := fun h => hne (prefix_nil.mp (h ▸ hprefix))
        have hhead := head_dropWhile_not isBlank hdrop
        rw [← hprefix.head hne] at hhead
        simpa [hcore] using hhead
      · have hlast : ¬ isBlank ((corePieces pieces).getLast hne) = true :=
          rdropWhile_last_not isBlank (pieces.dropWhile isBlank) hne
        simpa [hcore] using hlast

/-- **Trimming the pieces** of a text does what trimming the text does, exactly if no white space stands
where two pieces meet. -/
theorem flatten_map_trim (pieces : List Text) :
    (pieces.map trim).flatten = trim pieces.flatten ↔ Joined (corePieces pieces) := by
  obtain ⟨bf, a, hp, hb, ha⟩ := corePieces_spec pieces
  have hmap : (pieces.map trim).flatten = ((corePieces pieces).map trim).flatten := by
    conv_lhs => rw [hp, map_append, map_append, flatten_append,
      flatten_append, map_trim_blank hb, map_trim_blank ha, nil_append, append_nil]
  have htrim : trim pieces.flatten = trim (corePieces pieces).flatten := by
    conv_lhs => rw [hp, flatten_append, flatten_append,
      trim_blank_append (isBlank_flatten hb), trim_append_blank (isBlank_flatten ha)]
  rw [hmap, htrim]
  rcases corePieces_ends pieces with hc | ⟨p, hc⟩ | ⟨first, m, l, hc, hf, hl⟩
  · rw [hc]
    exact iff_of_true rfl (by decide)
  · rw [hc]
    refine iff_of_true ?_ ⟨by simp, by simp⟩
    rw [map_singleton, flatten_singleton, flatten_singleton]
  · rw [hc]
    -- what is left of the whole is the first without its start, the middle, and the last without its end
    have hwhole : trim (first :: (m ++ [l])).flatten = trimStart first ++ (m.flatten ++ trimEnd l) := by
      have hstart : trimStart (first ++ (m.flatten ++ l)) = trimStart first ++ (m.flatten ++ l) := by
        rw [trimStart_append, hf]
        rfl
      rw [flatten_cons, flatten_append, flatten_singleton, trim, hstart,
        ← append_assoc, ← append_assoc, trimEnd_append, hl]
      rfl
    have hparts : ((first :: (m ++ [l])).map trim).flatten =
        trim first ++ ((m.map trim).flatten ++ trim l) := by
      simp
    have hfirstSub : (trim first).Sublist (trimStart first) := ( rdropWhile_prefix _ _).sublist
    have hlastSub : (trim l).Sublist (trimEnd l) := by
      obtain ⟨b, -, hsp⟩ := exists_blank_trimStart l
      have hend : trimEnd l = b ++ trim l := by
        conv_lhs => rw [hsp, trimEnd_append, isBlank_trimStart, hl]
        rfl
      rw [hend]
      exact sublist_append_right _ _
    have hjoined : Joined (first :: (m ++ [l])) ↔
        endsBlank first = false ∧ (∀ p ∈ m, trim p = p) ∧ startsBlank l = false := by
      have hdrop : (first :: (m ++ [l])).dropLast = first :: m := by
        rw [← cons_append, dropLast_concat]
      rw [Joined, hdrop, tail_cons, forall_mem_cons, forall_mem_append, forall_mem_singleton]
      constructor
      · rintro ⟨⟨hs, hl⟩, hf, he⟩
        exact ⟨hf, fun p hm => trim_eq_self.mpr ⟨hs p hm, he p hm⟩, hl⟩
      · rintro ⟨hf, hmd, hl⟩
        exact ⟨⟨fun p hm => (trim_eq_self.mp (hmd p hm)).1, hl⟩, hf,
          fun p hm => (trim_eq_self.mp (hmd p hm)).2⟩
    rw [hparts, hwhole, hjoined, ← trim_eq_trimStart hf, ← trim_eq_trimEnd hl, ← map_trim_eq_self]
    constructor
    · intro h
      obtain ⟨hf, hr⟩ :=
        append_eq_of_sublist hfirstSub ((map_trim_sublist m).append hlastSub) h
      obtain ⟨hmd, hl⟩ := append_eq_of_sublist (map_trim_sublist m) hlastSub hr
      exact ⟨hf, hmd, hl⟩
    · rintro ⟨hf, hmd, hl⟩
      rw [hf, hmd, hl]

/-! ## Sorting -/

/-- Sorting and removing repetitions, which are neighbours then. -/
def sortDedup (keys : List Text) : List Text := (keys.insertionSort (@LE.le Text instLE)).dedup

lemma mem_sortDedup {key : Text} {k : List Text} : key ∈ sortDedup k ↔ key ∈ k := by
  rw [sortDedup, mem_dedup, mem_insertionSort]

lemma nodup_sortDedup (k : List Text) : (sortDedup k).Nodup := nodup_dedup _

lemma pairwise_sortDedup (k : List Text) : (sortDedup k).Pairwise (@LE.le Text instLE) := by
  exact (pairwise_insertionSort _ k).sublist (dedup_sublist _)

end AsterForge.Library
