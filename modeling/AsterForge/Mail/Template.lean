import AsterForge.Library.Substring

/-!
# Mail templates

A template has tokens, for which values are put in; in an HTML template these are escaped.  The text that
goes along with an HTML mail is what is left of it without its tags.

* **`html_to_text_escape_html`** — the text of an escaped text is the text itself, laid out.
* **`rendered_tags_independent`** — values are put in once, and bring in no tags.
* **`ignored_tags_indexed`** — the indices of the tags that are not shown are those of a plain stack.
-/

namespace AsterForge.Mail

open Library List Function

/-! ## Escaping -/

def entity : Char → Text
  | '"' => ['&', 'q', 'u', 'o', 't', ';']
  | '\'' => ['&', '#', '3', '9', ';']
  | '<' => ['&', 'l', 't', ';']
  | '>' => ['&', 'g', 't', ';']
  | _ => ['&', 'a', 'm', 'p', ';']

def escapeHtml (value : Text) : Text :=
  replaceChar '>' (entity '>') (replaceChar '<' (entity '<') (replaceChar '\'' (entity '\'')
    (replaceChar '"' (entity '"') (replaceChar '&' (entity '&') value))))

def decodeHtmlEntities (value : Text) : Text :=
  -- the introducer of all others comes last
  replaceText (entity '&') ['&'] (replaceText (entity '\'') ['\''] (replaceText (entity '"') ['"']
    (replaceText (entity '>') ['>'] (replaceText (entity '<') ['<']
      (replaceText ['&', 'n', 'b', 's', 'p', ';'] [' '] value)))))

/-! ## Tags -/

structure ParsedTag where
  name : Text
  isClosing : Bool
  isSelfClosing : Bool

def parseTag (tag : Text) : Option ParsedTag :=
  let trimmed := trim tag
  if trimmed.head?.all (fun c => c = '!' ∨ c = '?') then none
  else
    let isClosing := trimmed.head? = some '/'
    let content := if isClosing then trimmed.tail else trimmed
    let name := ((content.rdropWhile (· = '/')).dropWhile isWhitespace).takeWhile fun c => !isWhitespace c
    if name = [] then none else some ⟨toAsciiLowercase name, isClosing, content.getLast? = some '/'⟩

/-- The tags whose content is not shown, innermost first, and where each kind of them was opened. -/
structure IgnoredTags where
  stack : List (Fin 4)
  positions : Fin 4 → List ℕ

def IgnoredTags.default : IgnoredTags := ⟨[], fun _ => []⟩

def IgnoredTags.popTo (position : ℕ) : List (Fin 4) → (Fin 4 → List ℕ) → IgnoredTags
  | [], positions => ⟨[], positions⟩
  | popped :: stack, positions =>
    if position < stack.length + 1 then
      popTo position stack (Function.update positions popped (positions popped).tail)
    else ⟨popped :: stack, positions⟩

instance neZero_four : NeZero 4 := ⟨by decide⟩

def ignoredIndex (name : Text) : Option (Fin 4) :=
  if name = "head".toList then some 0
  else if name = "script".toList then some 1
  else if name = "style".toList then some 2
  else if name = "title".toList then some 3
  else none

def updateIgnoredTags (ignored : IgnoredTags) (tag : ParsedTag) : IgnoredTags :=
  if tag.isSelfClosing then ignored
  else
    match ignoredIndex tag.name with
    | none => ignored
    | some index =>
      if tag.isClosing then
        match ignored.positions index with
        | [] => ignored
        | position :: _ => IgnoredTags.popTo position ignored.stack ignored.positions
      else
        ⟨index :: ignored.stack, Function.update ignored.positions index
          (ignored.stack.length :: ignored.positions index)⟩

def blockTags : List Text :=
  ["p", "div", "section", "article", "header", "footer", "tr", "table", "br", "h1", "h2", "h3", "h4", "h5",
    "h6"].map String.toList

def onNewLine (output : Text) : Text :=
  if output ≠ [] ∧ output.getLast? ≠ some '\n' then output ++ ['\n'] else output

def applyTagToText (output : Text) (tag : ParsedTag) : Text :=
  if tag.isClosing then output
  else if tag.name = "li".toList ∧ ¬ ['-', ' '] <:+ output then onNewLine output ++ ['-', ' ']
  else if tag.name ∈ blockTags then onNewLine output
  else output

/-! ## The text of a document -/

structure HtmlScan where
  output : Text
  inTag : Bool
  tag : Text
  ignored : IgnoredTags

namespace HtmlScan

def new : HtmlScan := ⟨[], false, [], .default⟩

def push (scan : HtmlScan) (c : Char) : HtmlScan :=
  if scan.inTag then
    if c = '>' then
      match parseTag scan.tag with
      | none => { scan with tag := [], inTag := false }
      | some parsed =>
        { output := if scan.ignored.stack = [] then applyTagToText scan.output parsed else scan.output
          ignored := updateIgnoredTags scan.ignored parsed
          tag := []
          inTag := false }
    else { scan with tag := scan.tag ++ [c] }
  else if c = '<' then { scan with inTag := true }
  else if scan.ignored.stack = [] then { scan with output := scan.output ++ [c] }
  else scan

/-- The tags that a scan meets. -/
def tagsMet (scan : HtmlScan) : Text → List Text
  | [] => []
  | c :: rest => (if scan.inTag ∧ c = '>' then [scan.tag] else []) ++ (scan.push c).tagsMet rest

end HtmlScan

/-- `str::lines`. -/
def lines : Text → Text → List Text
  | current, [] => if current = [] then [] else [current]
  | current, c :: rest =>
    if c = '\n' then (if current.getLast? = some '\r' then current.dropLast else current) :: lines [] rest
    else lines (current ++ [c]) rest

structure Layout where
  normalized : Text
  lastBlank : Bool

def Layout.line (layout : Layout) (line : Text) : Layout :=
  let trimmed := trim line
  if trimmed = [] then ⟨if layout.lastBlank then layout.normalized else layout.normalized ++ ['\n'], true⟩
  else ⟨onNewLine layout.normalized ++ trimmed, false⟩

def normalizeTextFallback (value : Text) : Text :=
  trim ((lines [] value).foldl Layout.line ⟨[], true⟩).normalized

def htmlToText (html : Text) : Text :=
  normalizeTextFallback (decodeHtmlEntities (html.foldl HtmlScan.push .new).output)

/-! ## Escaped texts -/

/-- What is escaped, in the order in which it is decoded. -/
def special : List Char := ['<', '>', '"', '\'', '&']

/-- A text of which so many characters are still escaped. -/
def encoded (kept : List Char) (c : Char) : Text := if c ∈ kept then entity c else [c]

lemma escapeHtml_eq (v : Text) : escapeHtml v = v.flatMap (encoded special) := by
  simp only [escapeHtml, replaceChar, flatMap_assoc]
  refine flatMap_congr fun c _ => ?_
  by_cases hc : c ∈ special
  · simp only [special, mem_cons, not_mem_nil, or_false] at hc
    rcases hc with rfl | rfl | rfl | rfl | rfl <;> rfl
  · have hne : ∀ d ∈ special, c ≠ d := fun d hd h => hc (h ▸ hd)
    simp only [special, forall_mem_cons] at hne
    simp [encoded, hc, hne]

lemma entity_ampersand (c : Char) : ∃ m, entity c = '&' :: m ∧ '&' ∉ m := by
  unfold entity
  split <;> exact ⟨_, rfl, by decide⟩

/-- An entity is not the beginning of another, whatever follows. -/
lemma entity_isPrefixOf {c d : Char} (hc : c ∈ special) (hd : d ∈ special) (hne : c ≠ d) (r : Text) :
    ¬ (entity d).isPrefixOf (entity c ++ r) = true := by
  simp only [special, mem_cons, not_mem_nil, or_false] at hc hd
  rcases hc with rfl | rfl | rfl | rfl | rfl <;> rcases hd with rfl | rfl | rfl | rfl | rfl <;>
    first | exact absurd rfl hne | simp [entity]

/-- What is not an occurrence stays. -/
lemma replaceText_encoded {k : List Char} {p r : Text} {c : Char} (ha : '&' ∈ k)
    (h : c ∈ k → ∀ rs, ¬ ('&' :: p).isPrefixOf (entity c ++ rs) = true) (rs : Text) :
    replaceText ('&' :: p) r (encoded k c ++ rs) = encoded k c ++ replaceText ('&' :: p) r rs := by
  by_cases hc : c ∈ k
  · obtain ⟨m, he, hm⟩ := entity_ampersand c
    have hnot := h hc rs
    rw [encoded, if_pos hc]
    rw [he, cons_append] at hnot ⊢
    rw [replaceText, replaceFrom, if_neg hnot]
    exact congrArg ('&' :: ·) (replaceText_of_notMem hm rs)
  · rw [encoded, if_neg hc]
    refine replaceText_of_notMem ?_ rs
    rw [mem_singleton]
    exact fun h => hc (h ▸ ha)

/-- **One entity is decoded** where the others are still there. -/
lemma decode_one {k : List Char} {d : Char} (hs : ∀ c ∈ d :: k, c ∈ special) (hn : d ∉ k)
    (ha : '&' ∈ d :: k) (v : Text) :
    replaceText (entity d) [d] (v.flatMap (encoded (d :: k))) = v.flatMap (encoded k) := by
  obtain ⟨p, hp, -⟩ := entity_ampersand d
  refine replaceText_flatMap (fun c r => ?_) v
  by_cases hc : c = d
  · subst hc
    rw [encoded, if_pos mem_cons_self, encoded, if_neg hn]
    refine replaceText_pattern ?_ r
    rw [hp]
    exact cons_ne_nil _ _
  · have hsame : encoded (d :: k) c = encoded k c := by
      simp [encoded, mem_cons, hc]
    rw [← hsame, hp]
    refine replaceText_encoded ha (fun hm r => ?_) r
    rw [← hp]
    exact entity_isPrefixOf (hs c hm) (hs d mem_cons_self) hc r

theorem decode_escape (value : Text) : decodeHtmlEntities (escapeHtml value) = value := by
  have hspaces : replaceText ['&', 'n', 'b', 's', 'p', ';'] [' '] (value.flatMap (encoded special)) =
      value.flatMap (encoded special) := by
    refine replaceText_flatMap (fun c rest => replaceText_encoded (by decide) (fun hc rest => ?_) rest) value
    simp only [special, mem_cons, not_mem_nil, or_false] at hc
    rcases hc with rfl | rfl | rfl | rfl | rfl <;> simp [entity]
  have hplain : value.flatMap (encoded []) = value := flatMap_singleton' value
  rw [decodeHtmlEntities, escapeHtml_eq, hspaces, special, decode_one (by decide) (by decide) (by decide),
    decode_one (by decide) (by decide) (by decide), decode_one (by decide) (by decide) (by decide),
    decode_one (by decide) (by decide) (by decide), decode_one (by decide) (by decide) (by decide), hplain]

lemma notMem_escapeHtml (v : Text) : '<' ∉ escapeHtml v := by
  rw [escapeHtml_eq, mem_flatMap]
  rintro ⟨c, -, hm⟩
  by_cases hc : c ∈ special
  · rw [encoded, if_pos hc] at hm
    simp only [special, mem_cons, not_mem_nil, or_false] at hc
    rcases hc with rfl | rfl | rfl | rfl | rfl <;> revert hm <;> decide
  · rw [encoded, if_neg hc, mem_singleton] at hm
    subst hm
    exact hc (by decide)

open HtmlScan

/-- Text without a tag is kept as it is. -/
lemma foldl_push_of_notMem {scan : HtmlScan} {text : Text} (h : '<' ∉ text) (ho : scan.inTag = false)
    (hs : scan.ignored.stack = []) : text.foldl push scan = { scan with output := scan.output ++ text } := by
  induction text generalizing scan with
  | nil => rw [append_nil]; rfl
  | cons c text ih =>
    obtain ⟨hc, ht⟩ := ne_and_not_mem_of_not_mem_cons h
    have hpush : scan.push c = { scan with output := scan.output ++ [c] } := by
      rw [push, ho, if_neg Bool.false_ne_true, if_neg hc.symm, if_pos hs]
    have hrest := @ih { scan with output := scan.output ++ [c] } ht ho hs
    rw [foldl_cons, hpush, hrest, append_assoc, singleton_append]

/-- **The text of an escaped text is the text itself, laid out.** -/
theorem html_to_text_escape_html (value : Text) :
    htmlToText (escapeHtml value) = normalizeTextFallback value := by
  rw [htmlToText, foldl_push_of_notMem (notMem_escapeHtml value) rfl rfl]
  exact congrArg normalizeTextFallback (decode_escape value)

/-! ## Tokens -/

inductive Segment
  | literal (text : Text)
  | token (key : Text)

def Segment.source : Segment → Text
  | .literal text => text
  | .token key => ['{', '{'] ++ key ++ ['}', '}']

/-- What is put in for a segment: the value of a token that is known. -/
def Segment.filled (values : List (Text × Text)) : Segment → Text
  | .literal text => text
  | .token key => ((values.find? fun value => value.1 = key).map Prod.snd).getD (Segment.token key).source

/-- What is before the next token, its key, and what is behind it. -/
def nextToken (rest : Text) : Option (Text × Text × Text) := do
  let (before, behind) ← splitAround ['{', '{'] rest
  let (key, remaining) ← splitAround ['}', '}'] behind
  return (before, key, remaining)

open Segment

lemma nextToken_eq_some {r b key a : Text} (h : nextToken r = some (b, key, a)) :
    r = b ++ (token key).source ++ a := by
  simp only [nextToken, Option.bind_eq_bind, Option.bind_eq_some_iff, Option.pure_def, Option.some.injEq,
    Prod.mk.injEq, Prod.exists] at h
  obtain ⟨b, bh, ho, key, a, hc, rfl, rfl, rfl⟩ := h
  rw [splitAround_eq_some ho, splitAround_eq_some hc, source]
  simp

lemma nextToken_shorter {r b key a : Text} (h : nextToken r = some (b, key, a)) : a.length < r.length := by
  rw [nextToken_eq_some h]
  simp only [source, length_append, length_cons]
  omega

def renderFrom (values : List (Text × Text)) (rest rendered : Text) : Text :=
  match _h : nextToken rest with
  | none => rendered ++ rest
  | some (before, key, remaining) => renderFrom values remaining (rendered ++ before ++ (Segment.token key).filled values)
termination_by rest.length
decreasing_by exact nextToken_shorter _h

def renderPlaceholders (template : Text) (values : List (Text × Text)) : Text := renderFrom values template []

/-- The literal parts and the tokens of a template. -/
def segments (template : Text) : List Segment :=
  match _h : nextToken template with
  | none => [.literal template]
  | some (before, key, remaining) => .literal before :: .token key :: segments remaining
termination_by template.length
decreasing_by exact nextToken_shorter _h

lemma segments_source (t : Text) : (segments t).flatMap source = t := by
  induction t using segments.induct with
  | case1 t h =>
    rw [segments, h]
    exact append_nil _
  | case2 t b key a h ih =>
    rw [segments, h]
    dsimp only
    rw [flatMap_cons, flatMap_cons, ih, ← append_assoc]
    exact (nextToken_eq_some h).symm

lemma renderFrom_eq (v : List (Text × Text)) (rs r : Text) :
    renderFrom v rs r = r ++ (segments rs).flatMap (filled v) := by
  induction rs, r using renderFrom.induct v with
  | case1 rs r h =>
    rw [renderFrom, segments, h]
    exact congrArg (r ++ ·) (append_nil _).symm
  | case2 rs r b key a h ih =>
    rw [renderFrom, segments, h]
    dsimp only
    rw [ih, flatMap_cons, flatMap_cons]
    simp only [append_assoc]
    rfl

/-! ## Tags around tokens -/

namespace HtmlScan

variable {s ot : HtmlScan} {t : Text}

/-- Two scans are at the same place of the same tag, or outside. -/
def SamePlace (scan other : HtmlScan) : Prop := scan.inTag = other.inTag ∧ scan.tag = other.tag

lemma push_samePlace (h : s.SamePlace ot) (c : Char) : (s.push c).SamePlace (ot.push c) := by
  obtain ⟨o, it, tag, i⟩ := s
  obtain ⟨o', it', tag', i'⟩ := ot
  obtain ⟨rfl, rfl⟩ := h
  unfold push
  split
  · split
    · dsimp only
      cases parseTag tag <;> exact ⟨rfl, rfl⟩
    · exact ⟨rfl, rfl⟩
  · split
    · exact ⟨rfl, rfl⟩
    · split <;> split <;> exact ⟨rfl, rfl⟩

lemma foldl_samePlace (h : s.SamePlace ot) (text : Text) : (text.foldl push s).SamePlace (text.foldl push ot) := by
  induction text generalizing s ot with
  | nil => exact h
  | cons c text ih => exact ih (push_samePlace h c)

lemma tagsMet_congr (h : s.SamePlace ot) (text : Text) : s.tagsMet text = ot.tagsMet text := by
  induction text generalizing s ot with
  | nil => rfl
  | cons c text ih => rw [tagsMet, tagsMet, h.1, h.2, ih (push_samePlace h c)]

lemma tagsMet_append (scan : HtmlScan) (text m : Text) :
    scan.tagsMet (text ++ m) = scan.tagsMet text ++ (text.foldl push scan).tagsMet m := by
  induction text generalizing scan with
  | nil => rfl
  | cons c text ih => rw [cons_append, tagsMet, ih, tagsMet, append_assoc, foldl_cons]

/-- **Outside of tags, a text that opens none** meets none, and is left outside. -/
lemma outside_of_notMem (ho : s.inTag = false) (h : '<' ∉ t) :
    s.tagsMet t = [] ∧ (t.foldl push s).SamePlace s := by
  induction t generalizing s with
  | nil => exact ⟨rfl, rfl, rfl⟩
  | cons c t ih =>
    obtain ⟨hc, ht⟩ := ne_and_not_mem_of_not_mem_cons h
    have hpush : (s.push c).SamePlace s := by
      rw [push, if_neg (Bool.not_eq_true _ ▸ ho), if_neg hc.symm]
      split <;> exact ⟨rfl, rfl⟩
    obtain ⟨hm, hp⟩ := ih (hpush.1.trans ho) ht
    rw [tagsMet, ho, hm]
    exact ⟨rfl, hp.1.trans hpush.1, hp.2.trans hpush.2⟩

end HtmlScan

/-- The tokens of a template are outside of its tags: the scan is outside where they begin, and they open
none. -/
def TokensOutside (scan : HtmlScan) : List Segment → Prop
  | [] => True
  | .literal text :: rest => TokensOutside (text.foldl HtmlScan.push scan) rest
  | .token key :: rest => scan.inTag = false ∧ '<' ∉ key ∧ TokensOutside scan rest

def escapedValues (values : List (Text × Text)) : List (Text × Text) :=
  values.map fun value => (value.1, escapeHtml value.2)

lemma notMem_filled {key : Text} (hk : '<' ∉ key) (vl : List (Text × Text)) :
    '<' ∉ (token key).filled (escapedValues vl) := by
  rw [filled]
  cases hfind : (escapedValues vl).find? fun v => v.1 = key with
  | none =>
    rw [Option.map_none, Option.getD_none, source]
    simp [hk]
  | some v =>
    obtain ⟨v, -, rfl⟩ := mem_map.mp (mem_of_find?_eq_some hfind)
    exact notMem_escapeHtml v.2

lemma tagsMet_filled {t : List Segment} {scan left right : HtmlScan}
    (h : TokensOutside scan t) (hl : left.SamePlace scan) (hr : right.SamePlace scan) (v v' : List (Text × Text)) :
    left.tagsMet (t.flatMap (filled (escapedValues v))) =
      right.tagsMet (t.flatMap (filled (escapedValues v'))) := by
  induction t generalizing scan left right with
  | nil => rfl
  | cons s r ih =>
    rw [flatMap_cons, flatMap_cons, tagsMet_append, tagsMet_append]
    cases s with
    | literal text =>
      have hsame : left.tagsMet text = right.tagsMet text :=
        (tagsMet_congr hl text).trans (tagsMet_congr hr text).symm
      exact congrArg₂ (· ++ ·) hsame (ih h (foldl_samePlace hl text) (foldl_samePlace hr text))
    | token key =>
      obtain ⟨ho, hk, hrs⟩ := h
      obtain ⟨hm, hp⟩ := outside_of_notMem (hl.1.trans ho) (notMem_filled hk v)
      obtain ⟨hm', hp'⟩ := outside_of_notMem (hr.1.trans ho) (notMem_filled hk v')
      rw [hm, hm']
      exact ih hrs ⟨hp.1.trans hl.1, hp.2.trans hl.2⟩ ⟨hp'.1.trans hr.1, hp'.2.trans hr.2⟩

/-- **Values are put in once, and bring in no tags.**  A template has its literal parts and its tokens
whatever the values are; what is rendered is these parts and the values of the tokens that are known; and
where tokens are outside of tags, escaped values leave the tags of the template as they are. -/
theorem rendered_tags_independent (template : Text) :
    (segments template).flatMap source = template ∧ (∀ values, renderPlaceholders template values =
        (segments template).flatMap (filled values)) ∧
      (TokensOutside .new (segments template) → ∀ values values',
        new.tagsMet (renderPlaceholders template (escapedValues values)) =
          new.tagsMet (renderPlaceholders template (escapedValues values'))) := by
  refine ⟨segments_source template, fun values => renderFrom_eq values template [], fun h values values' => ?_⟩
  rw [renderPlaceholders, renderPlaceholders, renderFrom_eq, renderFrom_eq]
  exact tagsMet_filled h ⟨rfl, rfl⟩ ⟨rfl, rfl⟩ values values'

def bold : Text := ['<', 'b', '>', '{', '{', 'n', '}', '}', '<', '/', 'b', '>']

theorem rendered_tags_independent_bold :
    new.tagsMet (renderPlaceholders bold (escapedValues [(['n'], ['<', 'i', '>'])])) =
      new.tagsMet (renderPlaceholders bold (escapedValues [(['n'], [])])) := by
  have hfirst : nextToken bold = some (['<', 'b', '>'], ['n'], ['<', '/', 'b', '>']) := by decide
  have hlast : nextToken ['<', '/', 'b', '>'] = none := by decide
  have hsegs : segments bold = [.literal ['<', 'b', '>'], .token ['n'], .literal ['<', '/', 'b', '>']] := by
    rw [segments, hfirst]
    dsimp only
    rw [segments, hlast]
  have houtside : TokensOutside .new (segments bold) := by
    rw [hsegs]
    exact ⟨by decide, by decide, trivial⟩
  exact (rendered_tags_independent bold).2.2 houtside _ _

/-! ## Tags whose content is not shown -/

/-- The stack alone: an opening tag goes on it, and a closing one takes off everything from the last of its
kind upwards, or nothing where there is none. -/
def updatePlainStack (stack : List (Fin 4)) (tag : ParsedTag) : List (Fin 4) :=
  if tag.isSelfClosing then stack
  else
    match ignoredIndex tag.name with
    | none => stack
    | some index =>
      if tag.isClosing then if index ∈ stack then (stack.dropWhile (· ≠ index)).tail else stack
      else index :: stack

/-- Where a kind stands in a stack, from its bottom on. -/
def indicesOf (index : Fin 4) (stack : List (Fin 4)) : List ℕ :=
  (range stack.length).filter fun position => stack.reverse[position]? = some index

lemma indicesOf_cons (index top : Fin 4) (stack : List (Fin 4)) :
    indicesOf index (top :: stack) = indicesOf index stack ++ if top = index then [stack.length] else [] := by
  have hbelow : (range stack.length).filter (fun p => (top :: stack).reverse[p]? = some index) =
      indicesOf index stack := by
    refine filter_congr fun p hp => ?_
    rw [reverse_cons, getElem?_append_left (by simpa using hp)]
  rw [indicesOf, length_cons, range_succ, filter_append, hbelow]
  by_cases ht : top = index <;> simp [ht]

lemma mem_indicesOf {index : Fin 4} {stack : List (Fin 4)} {position : ℕ}
    (h : position ∈ indicesOf index stack) : position < stack.length ∧ index ∈ stack := by
  obtain ⟨hr, hp⟩ := mem_filter.mp h
  exact ⟨mem_range.mp hr, mem_reverse.mp (mem_of_getElem? (of_decide_eq_true hp))⟩

lemma indicesOf_ne_nil {index : Fin 4} {stack : List (Fin 4)} (h : index ∈ stack) :
    indicesOf index stack ≠ [] := by
  induction stack with
  | nil => exact absurd h not_mem_nil
  | cons top stack ih =>
    rw [indicesOf_cons]
    by_cases ht : top = index
    · simp [ht]
    · simp [ht, ih ((mem_cons.mp h).resolve_left (Ne.symm ht))]

namespace IgnoredTags

/-- The positions that are kept are those of the stack. -/
def Indexed (ignored : IgnoredTags) : Prop :=
  ∀ index, (ignored.positions index).reverse = indicesOf index ignored.stack

variable {stack : List (Fin 4)} {positions : Fin 4 → List ℕ} {index top : Fin 4} {position : ℕ}

lemma Indexed.push (h : Indexed ⟨stack, positions⟩) (top : Fin 4) :
    Indexed ⟨top :: stack, update positions top (stack.length :: positions top)⟩ := by
  intro index
  have hi : (positions index).reverse = indicesOf index stack := h index
  show (update positions top _ index).reverse = indicesOf index (top :: stack)
  rw [indicesOf_cons, ← hi]
  by_cases ht : top = index
  · subst ht
    simp
  · rw [update_of_ne (Ne.symm ht), if_neg ht, append_nil]

lemma Indexed.pop (h : Indexed ⟨top :: stack, positions⟩) :
    Indexed ⟨stack, update positions top (positions top).tail⟩ := by
  intro index
  have hi : (positions index).reverse = indicesOf index (top :: stack) := h index
  show (update positions top _ index).reverse = indicesOf index stack
  rw [indicesOf_cons] at hi
  by_cases ht : top = index
  · subst ht
    rw [update_self, ← dropLast_reverse, hi, if_pos rfl, dropLast_concat]
  · rw [update_of_ne (Ne.symm ht), hi, if_neg ht, append_nil]

lemma popTo_of_le (h : stack.length ≤ position) : popTo position stack positions = ⟨stack, positions⟩ := by
  cases stack with
  | nil => rfl
  | cons top stack => exact if_neg (Nat.not_lt.mpr h)

/-- **Popping to the last position of a kind** takes that entry and all above it off the stack, and what is
left is indexed. -/
lemma Indexed.popTo {older : List ℕ} (h : Indexed ⟨stack, positions⟩) (hp : positions index = position :: older) :
    (popTo position stack positions).Indexed ∧
      (popTo position stack positions).stack = (stack.dropWhile (· ≠ index)).tail := by
  induction stack generalizing positions with
  | nil => exact ⟨h, rfl⟩
  | cons top stack ih =>
    have hi : (positions index).reverse = indicesOf index (top :: stack) := h index
    rw [hp, reverse_cons, indicesOf_cons] at hi
    by_cases ht : top = index
    · -- the entry itself: nothing below it is taken off
      have hposition : position = stack.length := by
        rw [if_pos ht] at hi
        simpa using (append_inj' hi rfl).2
      rw [IgnoredTags.popTo, if_pos (by omega), popTo_of_le hposition.ge, dropWhile_cons_of_neg (by simpa using ht)]
      exact ⟨h.pop, rfl⟩
    · rw [if_neg ht, append_nil] at hi
      have hlt : position < stack.length :=
        (mem_indicesOf (hi ▸ mem_append_right _ mem_cons_self)).1
      rw [IgnoredTags.popTo, if_pos (by omega), dropWhile_cons_of_pos (by simpa using ht)]
      refine ih h.pop ?_
      rw [update_of_ne (Ne.symm ht), hp]

/-- One tag changes the indexed stack as it changes the plain one. -/
lemma Indexed.update {ignored : IgnoredTags} (h : ignored.Indexed) (tag : ParsedTag) :
    (updateIgnoredTags ignored tag).Indexed ∧
      (updateIgnoredTags ignored tag).stack = updatePlainStack ignored.stack tag := by
  unfold updateIgnoredTags updatePlainStack
  by_cases hs : tag.isSelfClosing
  · simpa [hs] using h
  rw [if_neg hs, if_neg hs]
  cases ignoredIndex tag.name with
  | none => exact ⟨h, rfl⟩
  | some index =>
    dsimp only
    by_cases hc : tag.isClosing
    · rw [if_pos hc, if_pos hc]
      have hi := h index
      cases hp : ignored.positions index with
      | nil =>
        have hnone : index ∉ ignored.stack := fun hm => by
          refine indicesOf_ne_nil hm ?_
          rw [← hi, hp, reverse_nil]
        rw [if_neg hnone]
        exact ⟨h, rfl⟩
      | cons position older =>
        have hm : position ∈ indicesOf index ignored.stack := by
          rw [← hi, hp]
          simp
        rw [if_pos (mem_indicesOf hm).2]
        exact h.popTo hp
    · rw [if_neg hc, if_neg hc]
      exact ⟨h.push index, rfl⟩

end IgnoredTags

/-- **The positions are those of a plain stack**, after all tags. -/
theorem ignored_tags_indexed (tags : List ParsedTag) :
    (tags.foldl updateIgnoredTags .default).stack = tags.foldl updatePlainStack [] ∧
      ∀ index, ((tags.foldl updateIgnoredTags .default).positions index).reverse =
        indicesOf index (tags.foldl updateIgnoredTags .default).stack := by
  have hrun : ∀ (tags : List ParsedTag) (ignored : IgnoredTags), ignored.Indexed →
      (tags.foldl updateIgnoredTags ignored).stack = tags.foldl updatePlainStack ignored.stack ∧
        (tags.foldl updateIgnoredTags ignored).Indexed := by
    intro tags
    induction tags with
    | nil => exact fun ignored h => ⟨rfl, h⟩
    | cons tag tags ih =>
      intro ignored h
      obtain ⟨hi, hs⟩ := h.update tag
      rw [foldl_cons, foldl_cons, ← hs]
      exact ih _ hi
  exact hrun tags .default fun index => rfl

end AsterForge.Mail
