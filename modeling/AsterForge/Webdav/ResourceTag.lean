import AsterForge.Webdav.CanonicalPath
import AsterForge.Webdav.IfHeader

/-!
# Resource tags of an `If` header

A tag names the resource that the conditions behind it are about.  Two functions read it: one finds the path
whose state the conditions are evaluated on, the other tells whether lock tokens behind the tag are submitted
for a given href.  The first cleans the path of the tag; the second compares decoded texts.

The URI parser comes from outside, so it is a parameter here, with what its documentation says on where the
path of a URI stands.

* **`if_tag_consumers_agree`** — the tags for which they mean the same paths.
-/

namespace AsterForge.Webdav

open Library List

/-! ## URIs -/

structure Authority where
  text : Text
  host : Text
  port : Option ℕ

structure Uri where
  scheme : Option Text
  authority : Option Authority
  path : Text

structure UriParser where
  uri : Text → Option Uri
  authority : Text → Option Authority

structure UriParser.Lawful (parser : UriParser) : Prop where
  /-- Without scheme and authority the path comes first, up to the query or the fragment. -/
  path : ∀ {text : Text} {uri : Uri}, parser.uri text = some uri → uri.scheme = none →
    uri.authority = none → ∃ rest, text = uri.path ++ rest ∧ ∀ c ∈ rest.head?, c = '?' ∨ c = '#'
  /-- A scheme comes first, and has neither a slash nor an escape. -/
  scheme : ∀ {text : Text} {uri : Uri}, parser.uri text = some uri → uri.scheme ≠ none →
    ∃ c ∈ text.head?, c ≠ '/' ∧ c ≠ '%'

/-! ## Origins -/

def effectivePort (scheme : Text) (authority : Authority) : Option ℕ :=
  authority.port.or (if eqIgnoreAsciiCase scheme "http".toList then some 80
    else if eqIgnoreAsciiCase scheme "https".toList then some 443
    else none)

variable (parser : UriParser)

def originAuthorityMatches (uriScheme : Text) (uriAuthority : Authority)
    (requestScheme requestHost : Text) : Bool :=
  if eqIgnoreAsciiCase uriScheme requestScheme = false then false
  else
    match parser.authority requestHost with
    | none => false
    | some requestAuthority =>
      if '@' ∈ uriAuthority.text ∨ '@' ∈ requestAuthority.text then false
      else eqIgnoreAsciiCase uriAuthority.host requestAuthority.host &&
        effectivePort uriScheme uriAuthority = effectivePort requestScheme requestAuthority

def stripMountPrefix (path mount : Text) : Option Text :=
  (path.dropPrefix? mount).filter fun rest =>
    mount = ['/'] || path = mount || rest.head? = some '/'

/-! ## The two readings -/

def mountedDavPath (mount path : Text) : Except DavProtocolError (Option DavPath) :=
  if path.head? ≠ some '/' then .error invalidIfHeader
  else
    match stripMountPrefix path mount with
    | none => .ok none
    | some relative =>
      match DavPath.new relative with
      | .ok found => .ok (some found)
      | .error _ => .error invalidIfHeader

def taggedDavPath (mount taggedPath requestScheme requestHost : Text) :
    Except DavProtocolError (Option DavPath) :=
  match parser.uri taggedPath with
  | none => .error invalidIfHeader
  | some uri =>
    match uri.scheme, uri.authority with
    | some scheme, some authority =>
      if originAuthorityMatches parser scheme authority requestScheme requestHost = false then .ok none
      else mountedDavPath mount uri.path
    | none, none => mountedDavPath mount uri.path
    | _, _ => .error invalidIfHeader

def pathEquivalent (left right : Text) : Bool :=
  left = right ||
    match percentDecodeText left, percentDecodeText right with
    | some leftDecoded, some rightDecoded => leftDecoded = rightDecoded
    | some leftDecoded, none => leftDecoded = right
    | none, some rightDecoded => left = rightDecoded
    | none, none => false

def ifTagMatchesPath (taggedPath requestPath requestScheme requestHost : Text) :
    Bool :=
  pathEquivalent taggedPath requestPath ||
    match parser.uri taggedPath with
    | none => false
    | some uri =>
      match uri.scheme, uri.authority with
      | some scheme, some authority =>
        originAuthorityMatches parser scheme authority requestScheme requestHost &&
          pathEquivalent uri.path requestPath
      | none, none => pathEquivalent uri.path requestPath
      | _, _ => false

/-! ## What both start from -/

def designatedPath (taggedPath requestScheme requestHost : Text) : Option Text := do
  let uri ← parser.uri taggedPath
  match uri.scheme, uri.authority with
  | some scheme, some authority =>
    if originAuthorityMatches parser scheme authority requestScheme requestHost then some uri.path
    else none
  | none, none => some uri.path
  | _, _ => none

def spelled (text : Text) : Text := (percentDecodeText text).getD text

section

variable {p : UriParser} {m tp rs rh : Text} {pt : DavPath}

lemma stripMountPrefix_eq_some {path r : Text} : stripMountPrefix path m = some r ↔
    path = m ++ r ∧ (m = ['/'] ∨ r = [] ∨ r.head? = some '/') := by
  simp only [stripMountPrefix, Option.filter_eq_some_iff, dropPrefix?_eq_some_iff, beq_iff_eq,
    exists_eq_right, Bool.or_eq_true, decide_eq_true_eq, or_assoc]
  refine and_congr_right fun hp => ?_
  rw [hp, append_right_eq_self]

variable {t : Text}

lemma mountedDavPath_eq_some : mountedDavPath m t = .ok (some pt) ↔
    t.head? = some '/' ∧ ∃ relative, stripMountPrefix t m = some relative ∧
      DavPath.new relative = .ok pt := by
  unfold mountedDavPath
  by_cases hslash : t.head? = some '/'
  · simp only [hslash, ne_eq, not_true_eq_false, if_false, true_and]
    cases stripMountPrefix t m with
    | none => simp
    | some relative => cases hnew : DavPath.new relative <;> simp [hnew]
  · simp [hslash]

lemma taggedDavPath_eq_some : taggedDavPath p m tp rs rh = .ok (some pt) ↔
    ∃ t, designatedPath p tp rs rh = some t ∧ mountedDavPath m t = .ok (some pt) := by
  unfold taggedDavPath designatedPath
  cases p.uri tp with
  | none => simp
  | some uri =>
    obtain ⟨s, a, t⟩ := uri
    cases s with
    | none => cases a <;> simp
    | some s =>
      cases a with
      | none => simp
      | some a =>
        cases hmatches : originAuthorityMatches p s a rs rh <;> simp [hmatches]

lemma ifTagMatchesPath_eq_true {rp : Text} : ifTagMatchesPath p tp rp rs rh = true ↔
    pathEquivalent tp rp = true ∨ ∃ t, designatedPath p tp rs rh = some t ∧ pathEquivalent t rp = true := by
  unfold ifTagMatchesPath designatedPath
  rw [Bool.or_eq_true]
  cases p.uri tp with
  | none => simp
  | some uri =>
    obtain ⟨s, a, t⟩ := uri
    cases s with
    | none => cases a <;> simp
    | some s =>
      cases a with
      | none => simp
      | some a =>
        cases hmatches : originAuthorityMatches p s a rs rh <;> simp [hmatches]

lemma pathEquivalent_href : pathEquivalent t (hrefForDavPath m pt) = true ↔
    spelled t = m ++ pt.canonical.toList := by
  have hhref := percentDecodeText_encodeHref (m ++ pt.canonical.toList)
  rw [hrefForDavPath_eq, pathEquivalent, spelled, hhref, Bool.or_eq_true]
  cases htext : percentDecodeText t with
  | none =>
    simp only [decide_eq_true_eq, Option.getD_none, or_iff_right_iff_imp]
    rintro rfl
    rw [hhref] at htext
    cases htext
  | some d =>
    simp only [decide_eq_true_eq, Option.getD_some, or_iff_right_iff_imp]
    rintro rfl
    rw [hhref] at htext
    exact (Option.some.inj htext).symm

end

/-! ## What a path is read as -/

variable {text rt relative : Text}

lemma spelled_eq {v : Text} (h : spelled text = v) :
    percentDecode (textBytes text) = textBytes v ∨ text = v := by
  unfold spelled at h
  cases hdec : percentDecodeText text with
  | none => exact .inr (by simpa [hdec] using h)
  | some d =>
    rw [hdec] at h
    exact .inl (h ▸ percentDecodeText_eq_some.mp hdec)

lemma eq_nil_of_textBytes (h : (textBytes text).length = 0) : text = [] := by
  have hnil : textBytes text = textBytes [] := eq_nil_of_length_eq_zero h
  exact textBytes_injective hnil

lemma hexValue_slash : hexValue 0x2F = none := by decide

lemma textBytes_cons_slash (tx : Text) : textBytes ('/' :: tx) = 0x2F :: textBytes tx :=
  textBytes_append ['/'] tx

lemma head_textBytes (h : ∀ c ∈ rt.head?, c = '?' ∨ c = '#') :
    ∀ b ∈ (textBytes rt).head?, b ≠ 0x25 ∧ b ≠ 0x2F ∧ hexValue b = none := by
  cases rt with
  | nil => simp [textBytes_eq]
  | cons c rt =>
    rcases h c rfl with rfl | rfl
    · rw [show '?' :: rt = ['?'] ++ rt from rfl, textBytes_append]
      intro b hb
      cases hb
      decide
    · rw [show '#' :: rt = ['#'] ++ rt from rfl, textBytes_append]
      intro b hb
      cases hb
      decide

lemma clean_length {d c : Text} (h : cleanDecodedPath ('/' :: d) = .ok ('/' :: c)) :
    (textBytes c).length ≤ (textBytes d).length ∧ ((textBytes c).length = (textBytes d).length → c = d) := by
  have hsub : c.Sublist d := cons_sublist_cons.mp (cleanDecodedPath_spec h).1
  have hbytes : (textBytes c).Sublist (textBytes d) := by
    rw [textBytes_eq, textBytes_eq]
    exact hsub.flatMap _
  refine ⟨hbytes.length_le, fun hl => ?_⟩
  exact textBytes_injective (hbytes.eq_of_length hl)

/-- **A path below the mount** that stands for an href has what comes after the mount spelled clean, with no
escape left to read, and nothing after it. -/
lemma spelled_below {mount : Text} {path : DavPath}
    (hrl : mount = ['/'] ∨ relative = [] ∨ relative.head? = some '/')
    (hn : DavPath.new relative = .ok path) (hr : ∀ c ∈ rt.head?, c = '?' ∨ c = '#')
    (hs : spelled (mount ++ relative ++ rt) = mount ++ path.canonical.toList) :
    rt = [] ∧ relative.head? = some '/' ∧ spelled relative = path.canonical.toList := by
  obtain ⟨bd, d, hbd, hsp, hd, hw, hcl⟩ := davPathNew_ok hn
  obtain ⟨cl, hcn⟩ := exists_cons_of_clean hcl
  rw [hcn] at hcl hs ⊢
  obtain ⟨hl, he⟩ := clean_length hcl
  have hhead := head_textBytes hr
  have hsplit := fun bf : List UInt8 =>
    percentDecode_append bf fun b hm => (hhead b hm).2.2
  cases relative with
  | nil =>
    -- the path of the mount itself has no slash for the root
    exfalso
    obtain rfl : bd = [] := (cons.inj hbd).2.symm
    rw [← hd] at hl
    obtain rfl := eq_nil_of_textBytes (Nat.le_zero.mp hl)
    rw [append_nil] at hs
    rcases spelled_eq hs with hb | ht
    · rw [textBytes_append, textBytes_append, hsplit] at hb
      cases hafter : textBytes rt with
      | nil =>
        rw [hafter, percentDecode_eq_nil.mpr rfl, append_nil] at hb
        have hlonger := congrArg length hb
        have hle := length_percentDecode_le (textBytes mount)
        have hone : (textBytes ['/']).length = 1 := rfl
        rw [length_append] at hlonger
        omega
      | cons b af =>
        obtain ⟨hsg, hsl, hdg⟩ := hhead b (by rw [hafter]; rfl)
        rw [hafter, percentDecode_cons_of_ne _ hsg] at hb
        have hsame := eq_of_percentDecode_append hsg hdg hb
        exact hsl (cons.inj hsame).1.symm
    · rw [append_cancel_left ht] at hr
      simpa using hr '/' rfl
  | cons c t =>
    by_cases hc : c = '/'
    · subst hc
      have hsl : ensureLeadingSlash ('/' :: t) = '/' :: t := by
        cases t <;> simp [ensureLeadingSlash]
      obtain rfl : t = bd := (cons.inj (hsl.symm.trans hbd)).2
      have hlengths : (textBytes rt).length = 0 ∧ (textBytes cl).length = (textBytes d).length := by
        rcases spelled_eq hs with hb | ht
        · rw [textBytes_append, hsplit, textBytes_append, textBytes_cons_slash,
            percentDecode_append _ (by simp [hexValue_slash]), percentDecode_cons_of_ne _ (by decide),
            hd, append_assoc, cons_append, textBytes_append, textBytes_cons_slash] at hb
          have hsame := eq_of_percentDecode_append (by decide) hexValue_slash hb
          have hcount := congrArg length (cons.inj hsame).2
          rw [length_append] at hcount
          have hnil : percentDecode (textBytes rt) = [] :=
            eq_nil_of_length_eq_zero (by omega)
          rw [percentDecode_eq_nil.mp hnil]
          rw [hnil] at hcount
          exact ⟨rfl, hcount⟩
        · rw [append_assoc, append_cancel_left_eq, cons_append, cons.injEq] at ht
          have hcount := congrArg (fun text => (textBytes text).length) ht.2
          have hle := length_percentDecode_le (textBytes t)
          simp only [textBytes_append, length_append] at hcount
          rw [hd] at hle
          omega
      obtain rfl := he hlengths.2
      refine ⟨eq_nil_of_textBytes hlengths.1, rfl, ?_⟩
      rw [spelled, hw, Option.getD_some]
    · -- the mount is a slash, and what comes after it spells another one
      exfalso
      obtain rfl := hrl.resolve_right (by simp [hc])
      obtain rfl : c :: t = bd := by
        have hsl : ensureLeadingSlash (c :: t) = '/' :: c :: t := by
          simp [ensureLeadingSlash, hc]
        exact (cons.inj (hsl.symm.trans hbd)).2
      rcases spelled_eq hs with hb | ht
      · rw [textBytes_append, hsplit, singleton_append, textBytes_cons_slash,
          percentDecode_cons_of_ne _ (by decide), singleton_append, textBytes_cons_slash,
          textBytes_cons_slash, cons_append, cons.injEq] at hb
        cases hread : percentDecode (textBytes (c :: t)) with
        | nil =>
          have hempty := percentDecode_eq_nil.mp hread
          have := eq_nil_of_textBytes (congrArg length hempty)
          cases this
        | cons b r =>
          rw [hread] at hb
          obtain rfl := (cons.inj hb.2).1
          have hfirst := head_of_decoded_slash hsp hread
          exact hc (Option.some.inj hfirst)
      · simp only [cons_append, nil_append, cons.injEq, true_and] at ht
        exact hc ht.1

/-! ## Agreement -/

structure PlainTag (parser : UriParser) (mount taggedPath requestScheme requestHost : Text) : Prop where
  /-- A tag that stands for a path below the mount designates what stands for that path. -/
  itself : ∀ {path : Text}, IsClean path → spelled taggedPath = mount ++ path →
    ∃ text, designatedPath parser taggedPath requestScheme requestHost = some text ∧
      spelled text = mount ++ path
  /-- What is accepted below the mount is spelled clean, behind a mount that is spelled as it is. -/
  accepted : ∀ {text relative : Text} {path : DavPath},
    designatedPath parser taggedPath requestScheme requestHost = some text → text.head? = some '/' →
      stripMountPrefix text mount = some relative → DavPath.new relative = .ok path →
      relative.head? = some '/' ∧ IsClean (spelled relative) ∧ spelled text = mount ++ spelled relative
  /-- What stands for a path below the mount has the mount as it is, no separator in an escape, and is spelled
  clean. -/
  refused : ∀ {text path : Text},
    designatedPath parser taggedPath requestScheme requestHost = some text → IsClean path →
      spelled text = mount ++ path →
      text.head? = some '/' ∧ ∃ relative decoded, stripMountPrefix text mount = some relative ∧
        relative.head? = some '/' ∧ containsEncodedPathSeparator relative = false ∧
          percentDecodeText relative = some decoded ∧ IsClean decoded

variable {parser : UriParser}

lemma designatedPath_eq_some {taggedPath requestScheme requestHost : Text}
    (h : designatedPath parser taggedPath requestScheme requestHost = some text) :
    ∃ uri, parser.uri taggedPath = some uri ∧ uri.path = text ∧
      (uri.scheme = none → uri.authority = none) := by
  obtain ⟨uri, hu, h⟩ := Option.bind_eq_some_iff.mp h
  obtain ⟨s, a, path⟩ := uri
  cases s <;> cases a <;> simp_all

lemma eq_designatedPath (hp : parser.Lawful) {mount taggedPath requestScheme requestHost : Text} {path : DavPath}
    (htx : designatedPath parser taggedPath requestScheme requestHost = some text)
    (hsl : text.head? = some '/') (hst : stripMountPrefix text mount = some relative)
    (hn : DavPath.new relative = .ok path)
    (hs : spelled taggedPath = mount ++ path.canonical.toList) : taggedPath = text := by
  obtain ⟨uri, hu, rfl, ha⟩ := designatedPath_eq_some htx
  obtain ⟨hpt, hrl⟩ := stripMountPrefix_eq_some.mp hst
  by_cases hscheme : uri.scheme = none
  · obtain ⟨rt, rfl, hr⟩ := hp.path hu hscheme (ha hscheme)
    rw [hpt] at hs ⊢
    obtain ⟨rfl, -⟩ := spelled_below hrl hn hr hs
    rw [append_nil]
  · -- what starts with a scheme stands for no path
    exfalso
    obtain ⟨c, hm, hne, hsg⟩ := hp.scheme hu hscheme
    obtain ⟨t, rfl⟩ := head?_eq_some_iff.mp hm
    obtain ⟨_, _, -, -, -, -, hcl⟩ := davPathNew_ok hn
    obtain ⟨cl, hc⟩ := exists_cons_of_clean hcl
    have hh : ∃ rt, mount ++ path.canonical.toList = '/' :: rt := by
      rw [hpt] at hsl
      cases mount with
      | nil => exact ⟨cl, hc⟩
      | cons first mount =>
        obtain rfl : first = '/' := Option.some.inj hsl
        exact ⟨_, rfl⟩
    obtain ⟨rt, hh⟩ := hh
    rw [hh] at hs
    have hfirst : ∀ {o : Char} {b : List UInt8}, textBytes (c :: t) = textBytes [o] ++ b → c = o := by
      intro o b hb
      obtain ⟨_, ht, -⟩ := eq_append_of_textBytes hb
      exact (cons.inj ht).1
    rcases spelled_eq hs with hb | htg
    · rw [textBytes_cons_slash] at hb
      rcases percentDecode_eq_cons hb with ⟨b, hb⟩ | ⟨h, low, b, hb, -⟩
      · exact hne (hfirst (hb : _ = textBytes ['/'] ++ b))
      · exact hsg (hfirst (hb : _ = textBytes ['%'] ++ h :: low :: b))
    · exact hne (cons.inj htg).1

lemma ensureLeadingSlash_of_head (hs : relative.head? = some '/') : ensureLeadingSlash relative = relative := by
  obtain ⟨t, rfl⟩ := head?_eq_some_iff.mp hs
  cases t <;> simp [ensureLeadingSlash]

lemma canonical_of_clean {path : DavPath} (hs : relative.head? = some '/')
    (hc : IsClean (spelled relative)) (hn : DavPath.new relative = .ok path) :
    path.canonical.toList = spelled relative := by
  obtain ⟨b, d, hb, -, -, hw, hcn⟩ := davPathNew_ok hn
  rw [← hb, ensureLeadingSlash_of_head hs] at hw
  rw [spelled, hw] at hc ⊢
  exact Except.ok.inj (hcn.symm.trans hc)

/-- What `DavPath.new` needs of a text that starts with a slash. -/
lemma davPathNew_of_clean {decoded : Text} (hs : relative.head? = some '/')
    (he : containsEncodedPathSeparator relative = false) (hd : percentDecodeText relative = some decoded)
    (hc : IsClean decoded) : DavPath.new relative = .ok ⟨String.ofList decoded⟩ := by
  have hc : cleanDecodedPath decoded = .ok decoded := hc
  rw [DavPath.new, ensureLeadingSlash_of_head hs]
  simp [refuse, okOr, he, hd, hc, except_pure]

/-- **Both readings mean the same paths** exactly for the plain tags. -/
theorem if_tag_consumers_agree (parser : UriParser) (hparser : parser.Lawful)
    (mount taggedPath requestScheme requestHost : Text) : (∀ path : DavPath, path.IsCanonical →
      (taggedDavPath parser mount taggedPath requestScheme requestHost = .ok (some path) ↔
        ifTagMatchesPath parser taggedPath (hrefForDavPath mount path) requestScheme requestHost = true)) ↔
      PlainTag parser mount taggedPath requestScheme requestHost := by
  simp only [taggedDavPath_eq_some, ifTagMatchesPath_eq_true, pathEquivalent_href, mountedDavPath_eq_some]
  constructor
  · intro ha
    have hown : ∀ {text relative : Text} {path : DavPath},
        designatedPath parser taggedPath requestScheme requestHost = some text →
          text.head? = some '/' → stripMountPrefix text mount = some relative →
          DavPath.new relative = .ok path → spelled text = mount ++ path.canonical.toList := by
      intro text relative path ht hsl hst hn
      rcases (ha path (new_canonical hn)).mp ⟨text, ht, hsl, relative, hst, hn⟩ with
        hs | ⟨o, ho, hs⟩
      · rwa [eq_designatedPath hparser ht hsl hst hn hs] at hs
      · rwa [Option.some.inj (ht.symm.trans ho)]
    refine ⟨?itself, ?accepted, ?refused⟩
    case itself =>
      intro path hp hs
      have hcanon : DavPath.IsCanonical ⟨String.ofList path⟩ := by
        rwa [DavPath.IsCanonical, String.toList_ofList]
      obtain ⟨text, ht, hsl, relative, hst, hn⟩ :=
        (ha _ hcanon).mpr (.inl (by rwa [String.toList_ofList]))
      have hfound := hown ht hsl hst hn
      rw [String.toList_ofList] at hfound
      exact ⟨text, ht, hfound⟩
    case accepted =>
      intro text relative path ht hsl hst hn
      have hs := hown ht hsl hst hn
      obtain ⟨hp, hr⟩ := stripMountPrefix_eq_some.mp hst
      have hwhole : spelled (mount ++ relative ++ []) = mount ++ path.canonical.toList := by
        rwa [append_nil, ← hp]
      obtain ⟨-, hh, hb⟩ := spelled_below hr hn (by simp) hwhole
      rw [hb]
      exact ⟨hh, new_canonical hn, hs⟩
    case refused =>
      intro text path ht hp hs
      have hcanon : DavPath.IsCanonical ⟨String.ofList path⟩ := by
        rwa [DavPath.IsCanonical, String.toList_ofList]
      obtain ⟨o, ho, hsl, relative, hst, hn⟩ :=
        (ha _ hcanon).mpr (.inr ⟨text, ht, by rwa [String.toList_ofList]⟩)
      obtain rfl := Option.some.inj (ht.symm.trans ho)
      obtain ⟨hm, hr⟩ := stripMountPrefix_eq_some.mp hst
      have hwhole := hown ht hsl hst hn
      rw [hm, ← append_nil (mount ++ relative)] at hwhole
      obtain ⟨-, hh, hspelled⟩ := spelled_below hr hn (by simp) hwhole
      obtain ⟨b, d, hb, he, -, hw, hcl⟩ := davPathNew_ok hn
      rw [← hb, ensureLeadingSlash_of_head hh] at he hw
      have hclean := new_canonical hn
      rw [DavPath.IsCanonical, ← hspelled, spelled, hw] at hclean
      exact ⟨hsl, relative, _, hst, hh, he, hw, hclean⟩
  · intro hpl path hp
    have hread : ∀ {text : Text}, designatedPath parser taggedPath requestScheme requestHost = some text →
        spelled text = mount ++ path.canonical.toList →
        text.head? = some '/' ∧ ∃ relative, stripMountPrefix text mount = some relative ∧
          DavPath.new relative = .ok path := by
      intro text ht hs
      obtain ⟨hsl, relative, decoded, hst, hh, he, hd, hcl⟩ := hpl.refused ht hp hs
      have hn := davPathNew_of_clean hh he hd hcl
      obtain ⟨-, hc, hb⟩ := hpl.accepted ht hsl hst hn
      have hfound := canonical_of_clean hh hc hn
      rw [hb, ← hfound, append_cancel_left_eq, String.toList_inj] at hs
      exact ⟨hsl, relative, hst, hn.trans (congrArg (Except.ok ∘ DavPath.mk) hs)⟩
    constructor
    · rintro ⟨text, ht, hsl, relative, hst, hn⟩
      obtain ⟨hh, hc, hs⟩ := hpl.accepted ht hsl hst hn
      rw [← canonical_of_clean hh hc hn] at hs
      exact .inr ⟨text, ht, hs⟩
    · rintro (hs | ⟨text, ht, hs⟩)
      · obtain ⟨text, ht, hs⟩ := hpl.itself hp hs
        exact ⟨text, ht, hread ht hs⟩
      · exact ⟨text, ht, hread ht hs⟩

def originFormParser : UriParser where
  uri text :=
    if text.head? = some '/' then some ⟨none, none, text.takeWhile fun c => c ≠ '?' && c ≠ '#'⟩ else none
  authority _ := none

lemma originFormParser_lawful : originFormParser.Lawful where
  path := by
    intro text uri hu _ _
    obtain ⟨-, ⟨⟩⟩ := Option.ite_none_right_eq_some.mp hu
    refine ⟨text.dropWhile fun c => c ≠ '?' && c ≠ '#', takeWhile_append_dropWhile.symm, ?_⟩
    intro c hm
    have hnot := head?_dropWhile_not (fun c => decide (c ≠ '?') && decide (c ≠ '#')) text
    rw [Option.mem_def.mp hm] at hnot
    by_cases hquery : c = '?'
    · exact .inl hquery
    · exact .inr (by simpa [hquery] using hnot)
  scheme := by
    intro text uri hu hs
    obtain ⟨-, ⟨⟩⟩ := Option.ite_none_right_eq_some.mp hu
    exact absurd rfl hs

/-- An escaped space in a tag: both readings mean one path. -/
theorem if_tag_consumers_agree_space :
    taggedDavPath originFormParser "/webdav".toList "/webdav/a%20b".toList "https".toList
        "files".toList = .ok (some ⟨"/a b"⟩) ↔
      ifTagMatchesPath originFormParser "/webdav/a%20b".toList
        (hrefForDavPath "/webdav".toList ⟨"/a b"⟩) "https".toList "files".toList = true := by
  have hdesignated : designatedPath originFormParser "/webdav/a%20b".toList "https".toList
      "files".toList = some "/webdav/a%20b".toList := by
    decide +kernel
  have hstrip : stripMountPrefix "/webdav/a%20b".toList "/webdav".toList = some "/a%20b".toList := by
    decide +kernel
  refine (if_tag_consumers_agree originFormParser originFormParser_lawful _ _ _ _).mpr
    ⟨?itself, ?accepted, ?refused⟩ _ (by unfold DavPath.IsCanonical; decide +kernel)
  case itself =>
    intro path _ hs
    exact ⟨_, hdesignated, hs⟩
  case accepted =>
    intro text relative path ht _ hr _
    obtain rfl := Option.some.inj (hdesignated.symm.trans ht)
    obtain rfl := Option.some.inj (hstrip.symm.trans hr)
    decide +kernel
  case refused =>
    intro text path ht _ _
    obtain rfl := Option.some.inj (hdesignated.symm.trans ht)
    exact ⟨rfl, _, "/a b".toList, hstrip, by decide +kernel⟩

/-- A doubled slash in a tag: the conditions are evaluated on the path, and no lock token is submitted for
it. -/
theorem if_tag_consumers_agree_counterexample :
    ¬ ∀ (parser : UriParser) (mount taggedPath requestScheme requestHost : Text) (path : DavPath),
      parser.Lawful → path.IsCanonical →
        (taggedDavPath parser mount taggedPath requestScheme requestHost = .ok (some path) ↔
          ifTagMatchesPath parser taggedPath (hrefForDavPath mount path) requestScheme requestHost =
            true) := by
  intro ha
  have hboth := ha originFormParser "/webdav".toList "/webdav//a".toList "https".toList "files".toList
    ⟨"/a"⟩ originFormParser_lawful (by unfold DavPath.IsCanonical; decide +kernel)
  revert hboth
  decide +kernel

end AsterForge.Webdav
