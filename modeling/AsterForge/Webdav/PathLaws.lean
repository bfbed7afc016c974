import AsterForge.Webdav.ResourceTag
import Mathlib.Data.List.Infix

/-!
# Laws of paths

A path comes from a request, from a child's name or from another path, and all of them spell segments that are
kept, each after a slash.  Such a text is read back from its href, and a child's parent is the collection that
it was joined to.  An href stands below the mount where the encoding leaves the mount as it is.

* **`davPath_laws`** — all of it, for every path that is made.
-/

namespace AsterForge.Webdav

open Library DavPath List

/-! ## Parents -/

def parentRelativePath (relative : Text) : Option Text :=
  if relative = ['/'] then none
  else
    let trimmed := relative.rdropWhile (· = '/')
    let segments := (trimmed.splitOn '/').filter (· ≠ [])
    if segments.length ≤ 1 then some ['/']
    else some ('/' :: (List.intercalate ['/'] segments.dropLast ++ ['/']))

def DavPath.parent (path : DavPath) : Option DavPath :=
  (parentRelativePath path.canonical.toList).map fun canonical => ⟨String.ofList canonical⟩

def DavPath.root : DavPath := ⟨"/"⟩

def DavPath.isCollection (path : DavPath) : Bool := path.canonical = "/" ∨ EndsWithSlash path.canonical

inductive DavPath.Made : DavPath → Prop
  | root : Made .root
  | new {text : Text} {path : DavPath} (h : DavPath.new text = .ok path) : Made path
  | joinChild {path child : DavPath} {name : List UInt8} {isCollection : Bool} (made : Made path)
      (h : path.joinChild name isCollection = .ok child) : Made child
  | parent {path parent : DavPath} (made : Made path) (h : path.parent = some parent) : Made parent

/-- The text of a path: every segment after a slash, none of them empty or made of one or two dots, and a last
slash exactly where it is a collection. -/
structure DavPath.Spells (path : DavPath) (segments : List Text) : Prop where
  text : path.canonical.toList = spelling segments path.isCollection
  kept : ∀ segment ∈ segments, IsKept segment
  absolute : path.canonical.toList.head? = some '/'

variable {path child : DavPath} {segments i : List Text} {last : Text} {isCollection : Bool}

lemma isCollection_iff : path.isCollection = true ↔ EndsWithSlash path.canonical := by
  rw [isCollection, decide_eq_true_eq, or_iff_right_iff_imp]
  intro h
  rw [h]
  decide

lemma spelling_true (s : List Text) : spelling s true = spelling s false ++ ['/'] := by
  have happend := spelling_append s [] true
  rwa [append_nil] at happend

lemma spells_of_toList (hk : ∀ s ∈ segments, IsKept s) (hr : segments = [] → isCollection = true)
    (h : path.canonical.toList = spelling segments isCollection) : path.Spells segments := by
  suffices hsame : path.isCollection = isCollection by
    refine ⟨by rw [hsame]; exact h, hk, ?_⟩
    rw [h]
    cases segments with
    | nil => rw [hr rfl]; rfl
    | cons s segments => rfl
  rw [Bool.eq_iff_iff, isCollection_iff]
  rcases eq_nil_or_concat segments with rfl | ⟨i, last, rfl⟩
  · rw [hr rfl] at h ⊢
    simp [EndsWithSlash, h, spelling]
  · rw [concat_eq_append] at h hk
    exact (stem_of_toList (hk last (by simp)).1 (by rw [h, spelling_append])).2

lemma DavPath.Spells.root (h : path.Spells segments) (hn : segments = []) : path.isCollection = true := by
  have habsolute := h.absolute
  rw [h.text, hn] at habsolute
  cases hcoll : path.isCollection with
  | true => rfl
  | false => simp [hcoll, spelling] at habsolute

lemma DavPath.Spells.stem (h : path.Spells segments) : path.stem = spelling segments false := by
  have htext := h.text
  cases hcoll : path.isCollection with
  | true =>
    rw [hcoll, spelling_true] at htext
    rw [DavPath.stem, if_pos (isCollection_iff.mp hcoll), htext, dropLast_concat]
  | false =>
    have hends : ¬ EndsWithSlash path.canonical := fun h => by simp [isCollection_iff.mpr h] at hcoll
    rw [DavPath.stem, if_neg hends, htext, hcoll]

/-! ## Children and parents -/

lemma DavPath.Spells.joinChild {n : List UInt8} (h : path.Spells segments)
    (hc : path.joinChild n isCollection = .ok child) : ∃ last, child.Spells (segments ++ [last]) := by
  obtain ⟨t, ht, hs, hsp⟩ := joinChild_ok hc
  simp only [DavPath.joinChild, childRelativePath, bind_eq_ok, okOr_eq_ok, refuse_eq_ok] at hc
  obtain ⟨_, ⟨_, ht', _, hv, -⟩, -⟩ := hc
  obtain rfl := Option.some.inj (ht.symm.trans ht')
  simp only [not_or] at hv
  refine ⟨t.toList, @spells_of_toList child (segments ++ [t.toList]) isCollection ?_ (by simp) ?_⟩
  · intro s hm
    rcases mem_append.mp hm with hm | hm
    · exact h.kept s hm
    · obtain rfl := mem_singleton.mp hm
      exact ⟨hs, fun hdt => hv.2.1 (String.toList_inj.mp hdt), fun hd => hv.2.2.1 (String.toList_inj.mp hd)⟩
  · rw [hsp, h.stem, spelling_append]

lemma DavPath.Spells.trimmed (h : path.Spells (i ++ [last])) :
    path.canonical.toList.rdropWhile (· = '/') = spelling (i ++ [last]) false := by
  have hopen : (spelling (i ++ [last]) false).rdropWhile (· = '/') = spelling (i ++ [last]) false := by
    rw [rdropWhile_eq_self_iff]
    intro hne hs
    have hends := (@stem_of_toList ⟨String.ofList (spelling (i ++ [last]) false)⟩ false (spelling i false)
      last (h.kept last (by simp)).1 (by rw [String.toList_ofList, spelling_append])).2
    rw [EndsWithSlash, String.toList_ofList, getLast?_eq_some_getLast hne] at hends
    exact Bool.false_ne_true (hends.mp (congrArg some (of_decide_eq_true hs)))
  rw [h.text]
  cases path.isCollection with
  | false => exact hopen
  | true => rw [spelling_true, rdropWhile_concat_pos _ _ _ (by simp), hopen]

/-- **The parent** of a path has its segments but for the last, and is a collection. -/
lemma DavPath.Spells.parent (h : path.Spells (i ++ [last])) :
    path.parent = some ⟨String.ofList (spelling i true)⟩ := by
  have hne : path.canonical.toList ≠ ['/'] := by
    intro hr
    have htrimmed := h.trimmed
    rw [hr, spelling_append] at htrimmed
    simp [spelling, rdropWhile] at htrimmed
  have hfilter : (i ++ [last]).filter (· ≠ []) = i ++ [last] :=
    filter_eq_self.mpr fun s hm => decide_eq_true (h.kept s hm).1.1
  have hsplit := splitOn_spelling false not_mem_nil h.kept
  rw [nil_append] at hsplit
  rw [DavPath.parent, parentRelativePath, if_neg hne]
  simp only [h.trimmed, hsplit, Bool.false_eq_true, if_false, append_nil]
  rw [filter_cons_of_neg (by simp), hfilter, dropLast_concat]
  cases i with
  | nil => rfl
  | cons first i =>
    rw [if_neg (by simp), spelling_true, ← spelling_intercalate (cons_ne_nil first i)]
    rfl

lemma DavPath.Spells.parent_root (h : path.Spells []) : path.parent = none := by
  have htext := h.text
  rw [h.root rfl] at htext
  rw [DavPath.parent, htext]
  rfl

/-- **Every path that is made** spells segments that are kept. -/
theorem DavPath.Made.spells (h : path.Made) : ∃ segments, path.Spells segments := by
  induction h with
  | root => exact ⟨[], @spells_of_toList .root [] true (by simp) (fun _ => rfl) rfl⟩
  | new h =>
    obtain ⟨b, d, -, -, -, -, hc⟩ := davPathNew_ok h
    obtain ⟨-, segments, isCollection, hk, hr, ht⟩ := cleanDecodedPath_spec hc
    exact ⟨segments, spells_of_toList hk hr ht⟩
  | joinChild m h ih =>
    obtain ⟨segments, hs⟩ := ih
    obtain ⟨last, hch⟩ := hs.joinChild h
    exact ⟨_, hch⟩
  | parent m h ih =>
    obtain ⟨segments, hs⟩ := ih
    rcases eq_nil_or_concat segments with rfl | ⟨i, last, rfl⟩
    · rw [hs.parent_root] at h
      cases h
    · rw [concat_eq_append] at hs
      rw [hs.parent] at h
      cases h
      exact ⟨i, spells_of_toList (fun s hm => hs.kept s (mem_append_left _ hm))
        (fun _ => rfl) (String.toList_ofList)⟩

/-! ## Hrefs -/

lemma encodeHref_append (b a : Text) : encodeHref (b ++ a) = encodeHref b ++ encodeHref a := by
  rw [encodeHref, textBytes_append, percentEncode, flatMap_append, latin1, map_append]
  rfl

lemma encodeHref_slash (t : Text) : encodeHref ('/' :: t) = '/' :: encodeHref t :=
  encodeHref_append ['/'] t

lemma escape_of_suffix {r : UInt8 → Bool} (hs : r 0x25 = true) {bt t : List UInt8}
    {hg low : UInt8} (h : 0x25 :: hg :: low :: t <:+ percentEncode r bt) :
    ∃ b, r b = true ∧ hg = hexDigit (b / 16) ∧ low = hexDigit (b % 16) := by
  have hnone : hexValue 0x25 = none := by decide
  induction bt with
  | nil => exact absurd (suffix_nil.mp h) (cons_ne_nil _ _)
  | cons b bt ih =>
    rw [percentEncode, flatMap_cons] at h
    by_cases hbyte : r b = true
    · obtain ⟨-, hh, hl⟩ := escaped_eq_some (escaped_hexDigit b)
      rw [if_pos hbyte] at h
      simp only [cons_append, nil_append] at h
      rcases suffix_cons_iff.mp h with h | h
      · simp only [cons.injEq, true_and] at h
        exact ⟨b, hbyte, h.1, h.2.1⟩
      rcases suffix_cons_iff.mp h with h | h
      · exact absurd ((cons.inj h).1 ▸ hnone) hh
      rcases suffix_cons_iff.mp h with h | h
      · exact absurd ((cons.inj h).1 ▸ hnone) hl
      · exact ih h
    · rw [if_neg hbyte] at h
      rcases suffix_cons_iff.mp h with h | h
      · exact absurd ((cons.inj h).1 ▸ hs) hbyte
      · exact ih h

/-- No escape of an href is one of a slash or a backslash. -/
lemma containsEncodedPathSeparator_encodeHref (t : Text) :
    containsEncodedPathSeparator (encodeHref t) = false := by
  rw [containsEncodedPathSeparator, textBytes_encodeHref, any_eq_false]
  intro w hw
  rw [mem_tails] at hw
  split
  · rintro hs
    obtain ⟨rfl, hd⟩ := of_decide_eq_true hs
    obtain ⟨b, hb, rfl, rfl⟩ := escape_of_suffix (by decide) hw
    have hall : ∀ n < 256, davHrefPathSet (UInt8.ofNat n) = true →
        ¬ ((toAsciiLowercaseByte (hexDigit (UInt8.ofNat n / 16)),
          toAsciiLowercaseByte (hexDigit (UInt8.ofNat n % 16))) = (0x32, 0x66) ∨
        (toAsciiLowercaseByte (hexDigit (UInt8.ofNat n / 16)),
          toAsciiLowercaseByte (hexDigit (UInt8.ofNat n % 16))) = (0x35, 0x63)) := by
      decide +kernel
    have hnot := hall b.toNat b.toNat_lt
    rw [UInt8.ofNat_toNat] at hnot
    exact hnot hb hd
  · exact Bool.false_ne_true

/-- **The way through an href** leads back to the path. -/
theorem new_encodeHref (h : path.Spells segments) : new (encodeHref path.canonical.toList) = .ok path := by
  have hclean : IsClean path.canonical.toList := by
    rw [h.text]
    exact isClean_spelling h.kept h.root
  obtain ⟨b, hb⟩ := head?_eq_some_iff.mp h.absolute
  have hslash : ensureLeadingSlash (encodeHref path.canonical.toList) = encodeHref path.canonical.toList := by
    rw [hb, encodeHref_slash]
    cases encodeHref b <;> simp [ensureLeadingSlash]
  simp only [new, hslash, containsEncodedPathSeparator_encodeHref, percentDecodeText_encodeHref]
  rw [IsClean] at hclean
  simp [refuse, okOr, hclean]

/-- The href of a path stands below the mount exactly if the encoding leaves the mount as it is. -/
lemma stripMountPrefix_href (h : path.Spells segments) (m r : Text) :
    stripMountPrefix (hrefForDavPath m path) m = some r ↔
      encodeHref m = m ∧ r = encodeHref path.canonical.toList := by
  obtain ⟨b, hb⟩ := head?_eq_some_iff.mp h.absolute
  rw [stripMountPrefix_eq_some, hrefForDavPath_eq, encodeHref_append]
  constructor
  · rintro ⟨hh, hr⟩
    suffices hm : encodeHref m = m by
      refine ⟨hm, ?_⟩
      rw [hm] at hh
      exact (append_cancel_left hh).symm
    rcases hr with hm | hr
    · rw [hm]
      rfl
    · refine textBytes_injective ?_
      have hbytes := congrArg textBytes hh
      rw [textBytes_append, textBytes_append, textBytes_encodeHref] at hbytes
      rw [textBytes_encodeHref]
      refine @eq_of_percentEncode_append 0x2F _ _ _ (by decide) (by decide) hexValue_slash _ ?_ hbytes
      rcases hr with rfl | hr
      · exact .inl rfl
      · obtain ⟨t, rfl⟩ := head?_eq_some_iff.mp hr
        rw [textBytes_cons_slash]
        exact .inr rfl
  · rintro ⟨hm, rfl⟩
    refine ⟨by rw [hm], .inr (.inr ?_)⟩
    rw [hb, encodeHref_slash]
    rfl

/-- **The laws of paths**, for every path that is made.  It spells segments that are kept, and so names nothing
above the mount; its href is read as itself; the parent of a child is the collection that the child was joined
to; and what is left of its href below a mount is read as itself.  The mounts that accept their hrefs are those
that the encoding leaves as they are. -/
theorem davPath_laws (h : path.Made) : (∃ segments, path.Spells segments) ∧
    new (encodeHref path.canonical.toList) = .ok path ∧
    (path.isCollection = true → ∀ name isCollection child,
      path.joinChild name isCollection = .ok child → child.parent = some path) ∧
    ∀ mount, ((∃ rest, stripMountPrefix (hrefForDavPath mount path) mount = some rest) ↔
        encodeHref mount = mount) ∧
      ∀ rest, stripMountPrefix (hrefForDavPath mount path) mount = some rest → new rest = .ok path := by
  obtain ⟨segments, hs⟩ := h.spells
  refine ⟨⟨segments, hs⟩, new_encodeHref hs, ?_, fun mount => ⟨?_, ?_⟩⟩
  · intro hcl name isCollection child hc
    obtain ⟨last, hl⟩ := hs.joinChild hc
    rw [hl.parent, ← hcl, ← hs.text, String.ofList_toList]
  · simp [stripMountPrefix_href hs]
  · intro rest hr
    rw [((stripMountPrefix_href hs mount rest).mp hr).2]
    exact new_encodeHref hs

/-- A name with a percent sign in it, two levels down. -/
theorem davPath_laws_percent : new "/a%20b/50%25".toList = .ok ⟨"/a b/50%"⟩ ∧
    new (encodeHref "/a b/50%".toList) = .ok ⟨"/a b/50%"⟩ :=
  have hnew : new "/a%20b/50%25".toList = .ok ⟨"/a b/50%"⟩ := by decide +kernel
  ⟨hnew, (davPath_laws (.new hnew)).2.1⟩

end AsterForge.Webdav
