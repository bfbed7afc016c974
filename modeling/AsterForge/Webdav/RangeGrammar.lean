import AsterForge.Webdav.IfExactness
import AsterForge.Webdav.Ranges
import Mathlib.Data.Nat.Digits.Defs

/-!
# The grammar of the `Range` header

A byte-range set is a list of range specs between commas, with optional white space and empty members.
What may stand for a bound is a parameter of the grammar: the digits of the protocol, or what the parser
takes for a number.

* `ByteRangeSpec` — a spec by its bounds; `ByteRangeSpec.resolve` — what it selects of a representation.
* `BoundSyntax` — what may stand for a bound; `digitsSyntax`, `parsedSyntax`, `wideSyntax`, `u64Syntax`.
* **`spellsSet_iff`** — a set is spelled by the trimmed members that are not empty, in their order.
* **`spellsRange_iff`** — a header is spelled by what follows its unit.
-/

namespace AsterForge.Webdav

open AsterForge.Core Library List

/-! ## Specs -/

inductive ByteRangeSpec
  | interval (first last : ℕ) (ordered : first ≤ last)
  | onward (first : ℕ)
  | suffix (length : ℕ)

/-- What a spec selects of a representation, if it can be satisfied: the last position and the length of a
suffix are clamped. -/
def ByteRangeSpec.resolve (totalSize : ℕ) : ByteRangeSpec → Option HttpByteRange
  | .interval first last ordered =>
    if h : first < totalSize then
      some ⟨first, min last (totalSize - 1), totalSize, by omega, by omega⟩
    else none
  | .onward first =>
    if h : first < totalSize then some ⟨first, totalSize - 1, totalSize, by omega, by omega⟩ else none
  | .suffix length =>
    if h : 0 < length ∧ 0 < totalSize then
      some ⟨totalSize - min length totalSize, totalSize - 1, totalSize, by omega, by omega⟩
    else none

/-! ## Bounds -/

def IsDigits (text : Text) : Prop := text ≠ [] ∧ ∀ c ∈ text, c.isDigit = true

def digitsValue (digits : Text) : ℕ :=
  Nat.ofDigits 10 (digits.reverse.map fun digit => digit.toNat - '0'.toNat)

/-- What may stand for a bound, with its number: digits, and possibly a sign. -/
structure BoundSyntax where
  Spells : Text → ℕ → Prop
  nonempty : ∀ {text number}, Spells text number → text ≠ []
  chars : ∀ {text number}, Spells text number → ∀ c ∈ text, c.isDigit = true ∨ c = '+'

def digitsSyntax : BoundSyntax where
  Spells text number := IsDigits text ∧ number = digitsValue text
  nonempty h := h.1.1
  chars h c hmem := .inl (h.1.2 c hmem)

/-- Digits, with a plus sign or without. -/
def wideSyntax : BoundSyntax where
  Spells text number := ∃ digits, (text = digits ∨ text = '+' :: digits) ∧ IsDigits digits ∧
    number = digitsValue digits
  nonempty := by
    rintro text number ⟨digits, rfl | rfl, hdigits, -⟩
    · exact hdigits.1
    · exact List.cons_ne_nil _ _
  chars := by
    rintro text number ⟨digits, rfl | rfl, hdigits, -⟩ c hmem
    · exact .inl (hdigits.2 c hmem)
    · rcases List.mem_cons.mp hmem with rfl | hmem
      · exact .inr rfl
      · exact .inl (hdigits.2 c hmem)

/-- The part of a syntax whose numbers a `u64` holds. -/
def BoundSyntax.within (bound : BoundSyntax) : BoundSyntax where
  Spells text number := bound.Spells text number ∧ number ≤ u64Max
  nonempty h := bound.nonempty h.1
  chars h := bound.chars h.1

/-- What the parser takes for a number. -/
def parsedSyntax : BoundSyntax := wideSyntax.within

/-- Digits of a number that a `u64` holds. -/
def u64Syntax : BoundSyntax := digitsSyntax.within

lemma digitsValue_eq (d : Text) (s : ℕ) : d.foldl (fun n dg => n * 10 + (dg.toNat - '0'.toNat)) s =
    s * 10 ^ d.length + digitsValue d := by
  induction d generalizing s with
  | nil => simp [digitsValue]
  | cons dg d ih =>
    rw [foldl_cons, ih]
    simp only [digitsValue, reverse_cons, map_append, map_cons, map_nil,
      Nat.ofDigits_append, Nat.ofDigits_singleton, length_map, length_reverse, length_cons]
    ring

lemma not_isDigit_plus : Char.isDigit '+' = false := by decide

variable {text : Text}

/-- **A bound is parsed** exactly if it is a number of the parser's. -/
theorem parseBound_eq_ok {n : ℕ} : parseBound text = .ok n ↔ parsedSyntax.Spells text n := by
  have hvalue : ∀ d : Text, d.foldl (fun n dg => n * 10 + (dg.toNat - '0'.toNat)) 0 = digitsValue d := by
    intro d
    rw [digitsValue_eq, Nat.zero_mul, Nat.zero_add]
  have hsign : ∀ d : Text, IsDigits d → d.head? ≠ some '+' := by
    intro d hd hh
    have hplus := hd.2 '+' (mem_of_mem_head? hh)
    cases hplus
  constructor
  · intro h
    simp only [parseBound, hvalue] at h
    have hcut : text = (if text.head? = some '+' then text.tail else text) ∨
        text = '+' :: (if text.head? = some '+' then text.tail else text) := by
      by_cases hplus : text.head? = some '+'
      · obtain ⟨r, rfl⟩ := head?_eq_some_iff.mp hplus
        exact .inr rfl
      · exact .inl (if_neg hplus).symm
    generalize (if text.head? = some '+' then text.tail else text) = d at h hcut
    split at h
    · rename_i hd
      obtain ⟨hne, ha, hle⟩ := hd
      cases h
      exact ⟨⟨d, hcut, ⟨hne, all_eq_true.mp ha⟩, rfl⟩, hle⟩
    · cases h
  · rintro ⟨⟨d, ht, hd, rfl⟩, hle⟩
    have hcut : (if text.head? = some '+' then text.tail else text) = d := by
      rcases ht with rfl | rfl
      · rw [if_neg (hsign text hd)]
      · rfl
    simp only [parseBound, hvalue, hcut]
    rw [if_pos ⟨hd.1, all_eq_true.mpr hd.2, hle⟩]

/-! ## The grammar -/

section

variable (bound : BoundSyntax)

inductive SpellsSpec : Text → ByteRangeSpec → Prop
  | interval {first last : Text} {start stop : ℕ} (hfirst : bound.Spells first start)
      (hlast : bound.Spells last stop) (ordered : start ≤ stop) :
      SpellsSpec (first ++ '-' :: last) (.interval start stop ordered)
  | onward {first : Text} {start : ℕ} (hfirst : bound.Spells first start) :
      SpellsSpec (first ++ '-' :: []) (.onward start)
  | suffix {last : Text} {length : ℕ} (hlast : bound.Spells last length) :
      SpellsSpec ([] ++ '-' :: last) (.suffix length)

/-- A member of a list: a spec with white space around it, or nothing but white space. -/
inductive SpellsMember : Text → Option ByteRangeSpec → Prop
  | empty {text : Text} (htext : Blanks text) : SpellsMember text none
  | spec {before text after : Text} {spec : ByteRangeSpec} (hbefore : Blanks before)
      (hafter : Blanks after) (hspec : SpellsSpec bound text spec) :
      SpellsMember (before ++ (text ++ after)) (some spec)

/-- Members between commas; the empty ones count for nothing. -/
def SpellsSet (text : Text) (specs : List ByteRangeSpec) : Prop :=
  ∃ members : List (Text × Option ByteRangeSpec), members ≠ [] ∧
    text = [','].intercalate (members.map Prod.fst) ∧
    (∀ member ∈ members, SpellsMember bound member.1 member.2) ∧ specs = members.filterMap Prod.snd

/-- A header value: the unit, and a set with a spec in it. -/
def SpellsRange (raw : Text) (specs : List ByteRangeSpec) : Prop :=
  ∃ before unit set, Blanks before ∧ raw = before ++ (unit ++ '=' :: set) ∧
    toAsciiLowercase unit = "bytes".toList ∧ SpellsSet bound set specs ∧ specs ≠ []

end

variable {b' : BoundSyntax}

variable {spec : ByteRangeSpec}

lemma SpellsSpec.mono {bd : BoundSyntax}
    (hle : ∀ {part number}, part <:+: text → bd.Spells part number → b'.Spells part number)
    (h : SpellsSpec bd text spec) : SpellsSpec b' text spec := by
  cases h with
  | interval hf hl o =>
    refine .interval (hle (prefix_append _ _).isInfix hf) (hle ?_ hl) o
    exact ((suffix_cons _ _).trans (suffix_append _ _)).isInfix
  | onward hf => exact .onward (hle (prefix_append _ _).isInfix hf)
  | suffix hl => exact .suffix (hle ((suffix_cons _ _).trans (suffix_append _ _)).isInfix hl)

lemma SpellsRange.mono {bd : BoundSyntax} {raw : Text} {specs : List ByteRangeSpec}
    (hle : ∀ {part number}, part <:+: raw → bd.Spells part number → b'.Spells part number)
    (h : SpellsRange bd raw specs) : SpellsRange b' raw specs := by
  obtain ⟨b, u, set, hb, hr, hu, ⟨mm, hne, hst, hmm, hs⟩, hsm⟩ := h
  refine ⟨b, u, set, hb, hr, hu, ⟨mm, hne, hst, ?_, hs⟩, hsm⟩
  have hinfix : set <:+: raw := by
    rw [hr]
    exact ((suffix_cons _ _).trans ((suffix_append _ _).trans (suffix_append _ _))).isInfix
  intro m hm
  have hpart : m.1 <:+: raw := by
    refine List.IsInfix.trans ?_ hinfix
    rw [hst]
    exact infix_intercalate (mem_map_of_mem hm)
  have hmember := hmm m hm
  generalize m.1 = text at hmember hpart ⊢
  generalize m.2 = spec at hmember ⊢
  cases hmember with
  | empty ht => exact .empty ht
  | @spec b text a _ hb ha hsp =>
    have ht : text <:+: b ++ (text ++ a) :=
      (prefix_append _ _).isInfix.trans (suffix_append _ _).isInfix
    exact .spec hb ha (hsp.mono fun hi => hle (hi.trans (ht.trans hpart)))

/-! ## Characters -/

lemma isWhitespace_iff {c : Char} (hc : IsHeaderChar c) : isWhitespace c = true ↔ c = ' ' ∨ c = '\t' := by
  constructor
  · intro h
    rcases hc with ⟨hl, hh⟩ | rfl
    · simp only [isWhitespace, Bool.or_eq_true, Bool.and_eq_true, decide_eq_true_eq] at h
      refine .inl (Char.toNat_inj.mp ?_)
      show c.toNat = 32
      omega
    · exact .inr rfl
  · rintro (rfl | rfl) <;> decide

lemma isBlank_iff (ht : ∀ c ∈ text, IsHeaderChar c) : isBlank text = true ↔ Blanks text := by
  rw [isBlank, all_eq_true]
  exact forall₂_congr fun c hm => isWhitespace_iff (ht c hm)

lemma isBlank_of_blanks (ht : Blanks text) : isBlank text = true :=
  (isBlank_iff (isHeaderChar_blanks ht)).mpr ht

lemma exists_blanks_trim (ht : ∀ c ∈ text, IsHeaderChar c) :
    ∃ b a, Blanks b ∧ Blanks a ∧ text = b ++ (trim text ++ a) := by
  have hstart : text = text.takeWhile isWhitespace ++ trimStart text :=
    takeWhile_append_dropWhile.symm
  have hend : trimStart text = trim text ++ (trimStart text).rtakeWhile isWhitespace :=
    (rdropWhile_append_rtakeWhile ..).symm
  have hblanks : ∀ p : Text, (∀ c ∈ p, isWhitespace c = true) → (∀ c ∈ p, c ∈ text) →
      Blanks p := fun p hw hs c hm =>
    (isWhitespace_iff (ht c (hs c hm))).mp (hw c hm)
  refine ⟨text.takeWhile isWhitespace, (trimStart text).rtakeWhile isWhitespace, ?_, ?_, ?_⟩
  · exact hblanks _ (fun c hm => mem_takeWhile_imp hm) fun c hm => (takeWhile_sublist _).subset hm
  · refine hblanks _ (fun c hm => mem_rtakeWhile_imp hm) fun c hm => ?_
    exact (dropWhile_sublist _).subset ((rtakeWhile_suffix ..).subset hm)
  · rw [← hend]
    exact hstart

/-! ## Members -/

section

variable {bn : BoundSyntax} {text : Text}

lemma SpellsSpec.chars (h : SpellsSpec bn text spec) : ∀ c ∈ text, (c.isDigit = true ∨ c = '+') ∨ c = '-' := by
  have hcut : ∀ {first l : Text}, (∀ c ∈ first, c.isDigit = true ∨ c = '+') →
      (∀ c ∈ l, c.isDigit = true ∨ c = '+') →
      ∀ c ∈ first ++ '-' :: l, (c.isDigit = true ∨ c = '+') ∨ c = '-' := by
    intro first l hf hl c hm
    rcases mem_append.mp hm with hm | hm
    · exact .inl (hf c hm)
    · rcases mem_cons.mp hm with rfl | hm
      · exact .inr rfl
      · exact .inl (hl c hm)
  cases h with
  | interval hf hl o => exact hcut (bn.chars hf) (bn.chars hl)
  | onward hf => exact hcut (bn.chars hf) (by simp)
  | suffix hl => exact hcut (by simp) (bn.chars hl)

variable {c : Char} {s : Option ByteRangeSpec} {sp : List ByteRangeSpec}

lemma spec_char (h : (c.isDigit = true ∨ c = '+') ∨ c = '-') : isWhitespace c = false ∧ c ≠ ',' := by
  rcases h with (hd | rfl) | rfl
  · have hrange : 48 ≤ c.toNat ∧ c.toNat ≤ 57 := by
      simpa [Char.isDigit, UInt32.le_iff_toNat_le] using hd
    refine ⟨?_, ?_⟩
    · simp only [isWhitespace, Bool.or_eq_false_iff, Bool.and_eq_false_iff, decide_eq_false_iff_not]
      omega
    · rintro rfl
      exact absurd hrange.1 (by decide)
  · decide
  · decide

lemma SpellsSpec.trim {t : Text} (h : SpellsSpec bn t spec) : trim t = t ∧ t ≠ [] := by
  have hwhite : ∀ c ∈ t, isWhitespace c = false := fun c hm => (spec_char (h.chars c hm)).1
  have hne : t ≠ [] := by cases h <;> simp
  refine ⟨trim_eq_self.mpr ⟨?_, ?_⟩, hne⟩
  · rw [startsBlank, Option.any_eq_false]
    exact fun c hc => by simpa using hwhite c (mem_of_mem_head? hc)
  · rw [endsBlank, Option.any_eq_false]
    exact fun c hc => by simpa using hwhite c (mem_of_getLast? hc)

lemma SpellsMember.notMem (h : SpellsMember bn text s) : ',' ∉ text := by
  have hblanks : ∀ {text : Text}, Blanks text → ',' ∉ text := by
    intro text ht hm
    rcases ht ',' hm with heq | heq <;> cases heq
  cases h with
  | empty ht => exact hblanks ht
  | spec hb ha hs =>
    simp only [mem_append, not_or]
    exact ⟨hblanks hb, fun hm => (spec_char (hs.chars ',' hm)).2 rfl, hblanks ha⟩

lemma spellsMember_trim (h : SpellsMember bn text s) :
    (s = none ∧ trim text = []) ∨ ∃ f, s = some f ∧ trim text ≠ [] ∧ SpellsSpec bn (trim text) f := by
  cases h with
  | empty ht => exact .inl ⟨rfl, trim_eq_nil.mpr (isBlank_of_blanks ht)⟩
  | @spec b text a f hb ha hs =>
    obtain ⟨hsl, hne⟩ := hs.trim
    have htrim : trim (b ++ (text ++ a)) = text := by
      rw [trim_blank_append (isBlank_of_blanks hb), trim_append_blank (isBlank_of_blanks ha), hsl]
    rw [htrim]
    exact .inr ⟨f, rfl, hne, hs⟩

def memberTexts (pieces : List Text) : List Text := (pieces.map trim).filter fun text => text ≠ []

lemma memberTexts_cons {p : Text} {pc : List Text} : memberTexts (p :: pc) =
    if trim p = [] then memberTexts pc else trim p :: memberTexts pc := by
  by_cases hpiece : trim p = []
  · simp [memberTexts, hpiece]
  · simp [memberTexts, hpiece]

lemma forall₂_of_members : ∀ {m : List (Text × Option ByteRangeSpec)}, (∀ mm ∈ m, SpellsMember bn mm.1 mm.2) →
      List.Forall₂ (SpellsSpec bn) (memberTexts (m.map Prod.fst)) (m.filterMap Prod.snd)
  | [], _ => .nil
  | (text, s) :: m, hmems => by
    have hrest := forall₂_of_members fun mm hm => hmems mm (mem_cons_of_mem _ hm)
    rw [map_cons, memberTexts_cons]
    rcases spellsMember_trim (hmems (text, s) mem_cons_self) with
      ⟨hspec, htrim⟩ | ⟨found, hspec, htrim, hfound⟩
    · dsimp only at hspec htrim
      rw [if_pos htrim, hspec]
      exact hrest
    · dsimp only at hspec htrim hfound
      rw [if_neg htrim, hspec]
      exact .cons hfound hrest

lemma members_of_forall₂ : ∀ {pc : List Text} {specs : List ByteRangeSpec},
    (∀ p ∈ pc, ∀ c ∈ p, IsHeaderChar c) → List.Forall₂ (SpellsSpec bn) (memberTexts pc) specs →
        ∃ m : List (Text × Option ByteRangeSpec), m.map Prod.fst = pc ∧
          (∀ mm ∈ m, SpellsMember bn mm.1 mm.2) ∧ specs = m.filterMap Prod.snd
  | [], specs, _, h => by
    cases h
    exact ⟨[], rfl, by simp, rfl⟩
  | p :: pc, specs, hchars, h => by
    have hpiece := hchars p mem_cons_self
    have hpieces : ∀ p ∈ pc, ∀ c ∈ p, IsHeaderChar c :=
      fun o hm => hchars o (mem_cons_of_mem _ hm)
    rw [memberTexts_cons] at h
    by_cases htrim : trim p = []
    · rw [if_pos htrim] at h
      obtain ⟨m, hmp, hmm, hs⟩ := members_of_forall₂ hpieces h
      refine ⟨(p, none) :: m, by rw [map_cons, hmp], ?_, hs⟩
      intro mm hm
      rcases mem_cons.mp hm with rfl | hm
      · exact .empty ((isBlank_iff hpiece).mp (trim_eq_nil.mp htrim))
      · exact hmm mm hm
    · rw [if_neg htrim] at h
      obtain ⟨s, r, hsc, hr, rfl⟩ := forall₂_cons_left_iff.mp h
      obtain ⟨m, hmp, hmm, rfl⟩ := members_of_forall₂ hpieces hr
      refine ⟨(p, some s) :: m, by rw [map_cons, hmp], ?_, rfl⟩
      intro mm hm
      rcases mem_cons.mp hm with rfl | hm
      · obtain ⟨b, a, hb, ha, hsp⟩ := exists_blanks_trim hpiece
        rw [hsp]
        exact .spec hb ha hsc
      · exact hmm mm hm

/-- **A set is spelled** by its members that are not empty, without the white space around them. -/
theorem spellsSet_iff (ht : ∀ c ∈ text, IsHeaderChar c) :
    SpellsSet bn text sp ↔ List.Forall₂ (SpellsSpec bn) (memberTexts (text.splitOn ',')) sp := by
  constructor
  · rintro ⟨m, hne, rfl, hm, rfl⟩
    have hsplit : ([','].intercalate (m.map Prod.fst)).splitOn ',' = m.map Prod.fst := by
      refine splitOn_intercalate ',' ?_ (by simpa using hne)
      intro p hp
      obtain ⟨mm, hmm, rfl⟩ := mem_map.mp hp
      exact (hm mm hmm).notMem
    rw [hsplit]
    exact forall₂_of_members hm
  · intro h
    have hjoin : [','].intercalate (text.splitOn ',') = text := intercalate_splitOn ','
    have hpieces : ∀ p ∈ text.splitOn ',', ∀ c ∈ p, IsHeaderChar c := by
      intro p hp c hmm
      refine ht c ?_
      rw [← hjoin]
      exact (infix_intercalate hp).subset hmm
    obtain ⟨m, hmp, hm, hs⟩ := members_of_forall₂ hpieces h
    refine ⟨m, ?_, by rw [hmp, hjoin], hm, hs⟩
    rintro rfl
    exact splitOn_ne_nil _ _ hmp.symm

/-! ## The unit -/

lemma unit_char {u : Text} (hu : toAsciiLowercase u = "bytes".toList) (hc : c ∈ u) :
    c.toLower ∈ "bytes".toList := by
  rw [← hu]
  exact mem_map_of_mem hc

/-- **A header is spelled** by what follows its unit. -/
theorem spellsRange_iff {raw : Text} (hr : ∀ c ∈ raw, IsHeaderChar c) :
    SpellsRange bn raw sp ↔ ∃ u set, splitOnce '=' (trimStart raw) = some (u, set) ∧
      eqIgnoreAsciiCase u "bytes".toList = true ∧
      List.Forall₂ (SpellsSpec bn) (memberTexts (set.splitOn ',')) sp ∧ sp ≠ [] := by
  have hbytes : toAsciiLowercase "bytes".toList = "bytes".toList := by decide
  constructor
  · rintro ⟨bf, u, set, hbf, rfl, hu, hs, hne⟩
    have hsetChars : ∀ c ∈ set, IsHeaderChar c := fun c hm => hr c (by simp [hm])
    have hstart : startsBlank (u ++ '=' :: set) = false := by
      cases u with
      | nil => cases hu
      | cons c u =>
        have hc : c.toLower = 'b' := (cons.inj hu).1
        by_contra hwhite
        rw [Bool.not_eq_false] at hwhite
        rcases (isWhitespace_iff (hr c (by simp))).mp hwhite with rfl | rfl
        · cases hc
        · cases hc
    have ht : trimStart (bf ++ (u ++ '=' :: set)) = u ++ '=' :: set := by
      rw [trimStart_append, if_pos (isBlank_of_blanks hbf), trimStart_eq_self.mpr hstart]
    refine ⟨u, set, ?_, ?_, (spellsSet_iff hsetChars).mp hs, hne⟩
    · rw [ht]
      refine splitOnce_eq_some.mpr ⟨rfl, fun hm => ?_⟩
      have hlower := unit_char hu hm
      revert hlower
      decide
    · rw [eqIgnoreAsciiCase, decide_eq_true_eq, hu, hbytes]
  · rintro ⟨u, set, hsp, hu, hs, hne⟩
    obtain ⟨ht, -⟩ := splitOnce_eq_some.mp hsp
    obtain ⟨b, hbl, hb⟩ := exists_blank_trimStart raw
    rw [ht] at hb
    have hblankChars : ∀ c ∈ b, IsHeaderChar c := fun c hm => hr c (by rw [hb]; simp [hm])
    have hsetChars : ∀ c ∈ set, IsHeaderChar c := fun c hm => hr c (by rw [hb]; simp [hm])
    refine ⟨b, u, set, (isBlank_iff hblankChars).mp hbl, hb, ?_, (spellsSet_iff hsetChars).mpr hs, hne⟩
    rw [eqIgnoreAsciiCase, decide_eq_true_eq] at hu
    exact hu

end

end AsterForge.Webdav
