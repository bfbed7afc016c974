import AsterForge.Library.Text
import Mathlib.Data.List.Infix

/-!
# Texts inside texts

Finding a text in another, and replacing it wherever it stands.  A text that was put together from tokens
is replaced token by token, if no occurrence begins in one token without being it.

* **`wildcard_begins`**, **`wildcard_contains`** — a literal text with a wildcard after it, or on both sides,
  stands for the texts that begin with it, or contain it.
-/

namespace AsterForge.Library

/-- A text cut at the first occurrence of another. -/
def splitAround (pattern : Text) : Text → Option (Text × Text)
  | [] => if pattern = [] then some ([], []) else none
  | c :: rest =>
    if pattern.isPrefixOf (c :: rest) then some ([], (c :: rest).drop pattern.length)
    else (splitAround pattern rest).map fun (before, after) => (c :: before, after)

/-- Behind an occurrence, so many characters of it are passed over. -/
def replaceFrom (pattern replacement : Text) : ℕ → Text → Text
  | _, [] => []
  | passed + 1, _ :: rest => replaceFrom pattern replacement passed rest
  | 0, c :: rest =>
    if pattern.isPrefixOf (c :: rest) then
      replacement ++ replaceFrom pattern replacement (pattern.length - 1) rest
    else c :: replaceFrom pattern replacement 0 rest

/-- Every occurrence of a text that is not empty replaced, from left to right. -/
def replaceText (pattern replacement text : Text) : Text := replaceFrom pattern replacement 0 text

variable {p rp : Text}

lemma splitAround_eq_some {t b a : Text} (h : splitAround p t = some (b, a)) : t = b ++ p ++ a := by
  induction t generalizing b with
  | nil =>
    obtain ⟨rfl, h⟩ := Option.ite_none_right_eq_some.mp h
    cases h
    rfl
  | cons c r ih =>
    rw [splitAround] at h
    split at h
    · next hprefix =>
      obtain ⟨m, hm⟩ := List.isPrefixOf_iff_prefix.mp hprefix
      cases h
      rw [← hm, List.drop_left, List.nil_append]
    · obtain ⟨⟨f, bc⟩, hc, h⟩ := Option.map_eq_some_iff.mp h
      cases h
      rw [ih hc]
      rfl

lemma splitAround_of_notMem {c : Char} {b : Text} (h : c ∉ b) (a : Text) :
    splitAround (c :: p) (b ++ (c :: p ++ a)) = some (b, a) := by
  induction b with
  | nil =>
    have hprefix : (c :: p).isPrefixOf (c :: (p ++ a)) = true :=
      List.isPrefixOf_iff_prefix.mpr (List.prefix_append (c :: p) a)
    rw [List.nil_append, List.cons_append, splitAround, if_pos hprefix, ← List.cons_append, List.drop_left]
  | cons d b ih =>
    obtain ⟨hne, hb⟩ := List.ne_and_not_mem_of_not_mem_cons h
    have hnot : ¬ (c :: p).isPrefixOf (d :: (b ++ (c :: p ++ a))) = true := by
      rw [List.isPrefixOf_iff_prefix, List.cons_prefix_cons]
      exact fun hp => hne hp.1
    rw [List.cons_append, splitAround, if_neg hnot, ih hb]
    rfl

lemma replaceFrom_append (f r : Text) :
    replaceFrom p rp f.length (f ++ r) = replaceText p rp r := by
  induction f with
  | nil => rfl
  | cons c f ih => exact ih

lemma replaceText_pattern (h : p ≠ []) (r : Text) : replaceText p rp (p ++ r) = rp ++ replaceText p rp r := by
  cases p with
  | nil => exact absurd rfl h
  | cons c m =>
    have hprefix : (c :: m).isPrefixOf (c :: (m ++ r)) = true :=
      List.isPrefixOf_iff_prefix.mpr (List.prefix_append (c :: m) r)
    rw [replaceText, List.cons_append, replaceFrom, if_pos hprefix]
    exact congrArg (rp ++ ·) (replaceFrom_append m r)

lemma replaceText_of_notMem {c : Char} {f : Text} (h : c ∉ f) (r : Text) :
    replaceText (c :: p) rp (f ++ r) = f ++ replaceText (c :: p) rp r := by
  induction f with
  | nil => rfl
  | cons d f ih =>
    obtain ⟨hne, hf⟩ := List.ne_and_not_mem_of_not_mem_cons h
    have hnot : ¬ (c :: p).isPrefixOf (d :: (f ++ r)) = true := by
      rw [List.isPrefixOf_iff_prefix, List.cons_prefix_cons]
      exact fun hp => hne hp.1
    rw [List.cons_append, replaceText, replaceFrom, if_neg hnot]
    exact congrArg (d :: ·) (ih hf)

/-- **Token by token.** -/
theorem replaceText_flatMap {α : Type} {f g : α → Text} (h : ∀ a r, replaceText p rp (f a ++ r) =
      g a ++ replaceText p rp r) (i : List α) :
    replaceText p rp (i.flatMap f) = i.flatMap g := by
  induction i with
  | nil => rfl
  | cons a i ih => rw [List.flatMap_cons, h, ih, List.flatMap_cons]

/-! ## Wildcards -/

/-- A part of a pattern: one character that it admits, or any text. -/
inductive WildcardPart
  | one (admits : Char → Bool)
  | many

open List

namespace WildcardPart

def literal (c : Char) : WildcardPart := .one (· = c)

def wildcardMatches : List WildcardPart → Text → Bool
  | [], text => text.isEmpty
  | .one _ :: _, [] => false
  | .one admits :: parts, c :: text => admits c && wildcardMatches parts text
  | .many :: parts, text => text.tails.any (wildcardMatches parts)

variable {p : List WildcardPart} {t : Text} (l : Text)

lemma wildcard_literal : wildcardMatches (l.map literal ++ p) t = true ↔
    ∃ rest, t = l ++ rest ∧ wildcardMatches p rest = true := by
  induction l generalizing t with
  | nil => simp
  | cons c l ih =>
    cases t with
    | nil => simp [wildcardMatches, literal]
    | cons d t =>
      simp only [map_cons, cons_append, literal, wildcardMatches, Bool.and_eq_true,
        decide_eq_true_eq, cons.injEq]
      simp [ih, and_assoc]

lemma wildcard_many :
    wildcardMatches (.many :: p) t = true ↔ ∃ rest, rest <:+ t ∧ wildcardMatches p rest = true := by
  simp [wildcardMatches, mem_tails]

theorem wildcard_begins : wildcardMatches (l.map literal ++ [.many]) t = true ↔ l <+: t := by
  rw [wildcard_literal]
  constructor
  · rintro ⟨rest, rfl, -⟩
    exact prefix_append _ _
  · rintro ⟨rest, rfl⟩
    exact ⟨rest, rfl, wildcard_many.mpr ⟨[], nil_suffix, rfl⟩⟩

theorem wildcard_contains : wildcardMatches (.many :: l.map literal ++ [.many]) t = true ↔ l <:+: t := by
  rw [cons_append, wildcard_many]
  simp only [wildcard_begins]
  constructor
  · rintro ⟨rest, hs, hp⟩
    exact hp.isInfix.trans hs.isInfix
  · rintro ⟨before, after, rfl⟩
    rw [append_assoc]
    exact ⟨l ++ after, suffix_append _ _, prefix_append _ _⟩

end WildcardPart

end AsterForge.Library
