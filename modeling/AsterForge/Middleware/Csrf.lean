import AsterForge.Library.Checks
import AsterForge.Library.Substring
import AsterForge.Utils.Origin

/-!
# The source of a request

A request that changes state names its source in the headers `Origin`, `Referer` and `Sec-Fetch-Site`, which
are compared with the origin of the request and with the configured ones.

* `SourceAllowed`, `WithinBounds` — what is asked of the source, and of the lengths of the values.
* **`ensure_headers_allowed`** — these two decide, and nothing behind the authority of a referer does.
-/

namespace AsterForge.Middleware

open Library List Utils

/-! ## The check -/

def maxRequestSchemeLen : ℕ := 16

def maxRequestHostLen : ℕ := 512

def maxRefererAuthorityLen : ℕ := maxRequestHostLen + 16

def maxSourceHeaderLen : ℕ := 2048

def maxSecFetchSiteLen : ℕ := 64

inductive RequestSourceMode
  | optionalWhenPresent
  | required
  deriving DecidableEq

/-- The categories of failure that the check of the source has. -/
inductive CsrfErrorKind
  | requestSourceUntrusted
  | requestOriginUntrusted
  | requestRefererUntrusted
  | requestSourceMissing
  | requestSchemeInvalid
  | requestHeaderValueInvalid
  | requestOriginInvalid
  | requestRefererInvalid
  deriving DecidableEq

structure CsrfError where
  kind : CsrfErrorKind
  message : String
  deriving DecidableEq

/-- The length in bytes. -/
def byteLen (value : Text) : ℕ := (value.map Char.utf8Size).sum

def isAscii (value : Text) : Bool := value.all (·.toNat < 128)

def trimmedHeaderValue (value : Option Text) : Option Text := (value.map trim).filter (· ≠ [])

def ensureValueLen (value : Text) (maxLen : ℕ) (label : String) (kind : CsrfErrorKind) :
    Except CsrfError Unit :=
  refuse (maxLen < byteLen value) ⟨kind, s!"{label} exceeds {maxLen} bytes"⟩

def sourceHeaderValue (value : Option Text) (maxLen : ℕ) (label : String) (kind : CsrfErrorKind) :
    Except CsrfError (Option Text) :=
  match trimmedHeaderValue value with
  | none => .ok none
  | some value => do
    ensureValueLen value maxLen label kind
    return some value

def crossSite : Text := "cross-site".toList

def noSite : Text := "none".toList

def sameSite : Text := "same-site".toList

section

variable (parser : UriParser)

def normalizeOrigin (origin : Text) (kind : CsrfErrorKind) : Except CsrfError Text :=
  (Utils.normalizeOrigin parser origin false).mapError fun _ => ⟨kind, "invalid origin"⟩

def originIsTrusted (origin requestOrigin : Text) (publicSiteOrigins : List Text) : Bool :=
  origin = requestOrigin || publicSiteOrigins.any (· = origin)

/-- What ends the authority of a reference. -/
def authorityStops : List Char := ['/', '?', '#']

def originFromUrl (url : Text) : Except CsrfError Text := do
  let (scheme, authorityTail) ← okOr ⟨.requestSchemeInvalid, "invalid Referer header"⟩
    (splitAround schemeEnd url)
  ensureValueLen scheme maxRequestSchemeLen "Referer scheme" .requestSchemeInvalid
  let authority := authorityTail.takeWhile (· ∉ authorityStops)
  ensureValueLen authority maxRefererAuthorityLen "Referer authority" .requestRefererInvalid
  (normalizeOrigin parser (toAsciiLowercase scheme ++ (schemeEnd ++ authority))
    .requestRefererInvalid).mapError fun _ => ⟨.requestRefererInvalid, "invalid Referer header"⟩

def ensureHeadersAllowed (origin referer secFetchSite : Option Text) (requestOrigin : Text)
    (publicSiteOrigins : List Text) (mode : RequestSourceMode) : Except CsrfError Unit := do
  let fetchSite := (← sourceHeaderValue secFetchSite maxSecFetchSiteLen "Sec-Fetch-Site"
    .requestHeaderValueInvalid).map toAsciiLowercase
  refuse (fetchSite.any (!isAscii ·)) ⟨.requestHeaderValueInvalid, "invalid Sec-Fetch-Site header"⟩
  refuse (fetchSite = some crossSite ∨ fetchSite = some noSite)
    ⟨.requestSourceUntrusted, "untrusted request source for cookie-authenticated action"⟩
  match ← sourceHeaderValue origin maxSourceHeaderLen "Origin" .requestOriginInvalid with
  | some value =>
    let origin ← normalizeOrigin parser value .requestOriginInvalid
    refuse (originIsTrusted origin requestOrigin publicSiteOrigins = false)
      ⟨.requestOriginUntrusted, "untrusted request origin for cookie-authenticated action"⟩
  | none =>
    match trimmedHeaderValue referer with
    | some referer =>
      let refererOrigin ← originFromUrl parser referer
      refuse (originIsTrusted refererOrigin requestOrigin publicSiteOrigins = false)
        ⟨.requestRefererUntrusted, "untrusted request referer for cookie-authenticated action"⟩
    | none =>
      refuse (fetchSite = some sameSite) ⟨.requestSourceUntrusted,
        "missing trusted request source for same-site cookie-authenticated action"⟩
      refuse (mode = .required)
        ⟨.requestSourceMissing, "missing request source for cookie-authenticated action"⟩

/-! ## What is asked -/

/-- A reference taken apart as the general syntax of references says. -/
structure RefererParts (referer scheme authority rest : Text) : Prop where
  text : referer = scheme ++ (schemeEnd ++ (authority ++ rest))
  scheme : ∀ c ∈ scheme, c ∉ ':' :: authorityStops
  authority : ∀ c ∈ authority, c ∉ authorityStops
  rest : rest.head?.all (· ∈ authorityStops) = true

/-- A text that normalises to a trusted origin. -/
def Trusted (text requestOrigin : Text) (publicSiteOrigins : List Text) : Prop :=
  ∃ origin, Utils.normalizeOrigin parser text false = .ok origin ∧
    (origin = requestOrigin ∨ origin ∈ publicSiteOrigins)

def SourceAllowed (origin referer secFetchSite : Option Text) (requestOrigin : Text)
    (publicSiteOrigins : List Text) (mode : RequestSourceMode) : Prop :=
  (∀ site ∈ trimmedHeaderValue secFetchSite, toAsciiLowercase site ∉ [crossSite, noSite]) ∧
    ((∃ value ∈ trimmedHeaderValue origin, Trusted parser value requestOrigin publicSiteOrigins) ∨
      (trimmedHeaderValue origin = none ∧ ∃ value ∈ trimmedHeaderValue referer,
        ∃ scheme authority rest, RefererParts value scheme authority rest ∧
          Trusted parser (scheme ++ (schemeEnd ++ authority)) requestOrigin publicSiteOrigins) ∨
      (trimmedHeaderValue origin = none ∧ trimmedHeaderValue referer = none ∧ mode = .optionalWhenPresent ∧
        ∀ site ∈ trimmedHeaderValue secFetchSite, toAsciiLowercase site ≠ sameSite))

end

def WithinBounds (origin referer secFetchSite : Option Text) : Prop :=
  (∀ site ∈ trimmedHeaderValue secFetchSite, byteLen site ≤ maxSecFetchSiteLen ∧ isAscii site = true) ∧
    (∀ value ∈ trimmedHeaderValue origin, byteLen value ≤ maxSourceHeaderLen) ∧
    (trimmedHeaderValue origin = none → ∀ value ∈ trimmedHeaderValue referer,
      ∀ scheme authority rest, RefererParts value scheme authority rest →
        byteLen authority ≤ maxRefererAuthorityLen)

variable {parser : UriParser} {value url scheme authority rest origin requestOrigin : Text}
  {publicSiteOrigins : List Text}

lemma sourceHeaderValue_eq_ok {value result : Option Text} {maxLen : ℕ} {label : String}
    {kind : CsrfErrorKind} : sourceHeaderValue value maxLen label kind = .ok result ↔
      (∀ text ∈ trimmedHeaderValue value, byteLen text ≤ maxLen) ∧ result = trimmedHeaderValue value := by
  unfold sourceHeaderValue
  cases trimmedHeaderValue value with
  | none => simp [eq_comm]
  | some text =>
    simp only [ensureValueLen, bind_eq_ok, refuse_eq_ok, except_pure, exists_and_left,
      Except.ok.injEq, not_lt, Option.mem_def, Option.some.injEq, forall_eq']
    simp [eq_comm]

lemma trusted_iff : Trusted parser value requestOrigin publicSiteOrigins ↔
    ∃ origin, Utils.normalizeOrigin parser value false = .ok origin ∧
      originIsTrusted origin requestOrigin publicSiteOrigins = true := by
  simp [Trusted, originIsTrusted]

lemma trimmedHeaderValue_startsBlank {referer : Option Text} (h : url ∈ trimmedHeaderValue referer) :
    startsBlank url = false := by
  obtain ⟨text, -, rfl⟩ : ∃ text, referer = some text ∧ trim text = url := by
    simpa [trimmedHeaderValue, Option.filter_eq_some_iff] using (Option.filter_eq_some_iff.mp h).1
  exact (trim_eq_self.mp (trim_trim text)).1

/-! ## The origin of a reference -/

lemma exists_scheme (h : Utils.normalizeOrigin parser value false = .ok origin) (hb : startsBlank value = false) :
    ∃ scheme rest, value = scheme ++ (schemeEnd ++ rest) ∧ toAsciiLowercase scheme ∈ httpSchemes := by
  obtain ⟨fragment, st, a, p, htext, hhttp, -⟩ := normalizeOrigin_eq_ok.mp h
  obtain ⟨tail, htail⟩ : trim value <+: value := by
    rw [trim, trimStart_eq_self.mpr hb]
    exact rdropWhile_prefix _ _
  refine ⟨st, a ++ (p ++ ([] ++ fragment.elim [] ('#' :: ·))) ++ tail, ?_, hhttp⟩
  rw [← htail, htext, uriText, append_assoc, append_assoc]
  rfl

lemma scheme_of_ok (hb : startsBlank (scheme ++ (schemeEnd ++ authority)) = false) (hs : ':' ∉ scheme)
    (h : Utils.normalizeOrigin parser (scheme ++ (schemeEnd ++ authority)) false = .ok origin) :
    toAsciiLowercase scheme ∈ httpSchemes := by
  obtain ⟨st, r, htext, hst⟩ := exists_scheme h hb
  obtain ⟨rfl, -⟩ := append_inj_of_notMem (p := (decide <| · = ':')) htext
    (fun c hc => decide_eq_false fun e => hs (e ▸ hc))
    (fun c hc => decide_eq_false fun e => notMem_of_http hst (e ▸ hc)) rfl rfl
  exact hst

lemma clean_scheme (h : toAsciiLowercase scheme ∈ httpSchemes) : ∀ c ∈ scheme, c ∉ ':' :: authorityStops := by
  have hstops : ∀ s ∈ httpSchemes, ∀ c ∈ ':' :: authorityStops, c.toLower ∉ s := by decide
  exact fun c hc hm => hstops _ h c hm (mem_map_of_mem hc)

/-- What stands before the first `://` of a web address has no colon. -/
lemma colon_notMem (hcut : splitAround schemeEnd url = some (scheme, rest))
    (h : Utils.normalizeOrigin parser (toAsciiLowercase scheme ++ (schemeEnd ++ authority)) false =
      .ok origin)
    (hb : startsBlank (toAsciiLowercase scheme ++ (schemeEnd ++ authority)) = false) : ':' ∉ scheme := by
  intro hc
  obtain ⟨u, v, rfl, hu⟩ := eq_append_cons_of_mem hc
  obtain ⟨st, r, htext, hst⟩ := exists_scheme h hb
  have hlow : ':' ∉ toAsciiLowercase u := by
    intro hm
    obtain ⟨c, hcu, hcl⟩ := mem_map.mp hm
    exact hu (toLower_eq_of_not_alpha (by decide) hcl ▸ hcu)
  rw [toAsciiLowercase_append, append_assoc] at htext
  obtain ⟨-, hafter⟩ := append_inj_of_notMem (p := (decide <| · = ':')) htext
    (fun c hc => decide_eq_false fun e => hlow (e ▸ hc))
    (fun c hc => decide_eq_false fun e => notMem_of_http hst (e ▸ hc)) rfl rfl
  have htwo : ∃ v', v = '/' :: '/' :: v' := by
    rw [schemeEnd_eq] at hafter
    rcases v with _ | ⟨x, _ | ⟨y, v⟩⟩
    · simp [toAsciiLowercase] at hafter
    · simp [toAsciiLowercase] at hafter
    · simp only [toAsciiLowercase, map_cons, cons_append, cons.injEq] at hafter
      obtain ⟨-, hx, hy, -⟩ := hafter
      exact ⟨v, by rw [toLower_eq_of_not_alpha (by decide) hx, toLower_eq_of_not_alpha (by decide) hy]⟩
  obtain ⟨v', rfl⟩ := htwo
  have hfirst : splitAround schemeEnd url = some (u, v' ++ (schemeEnd ++ rest)) := by
    rw [splitAround_eq_some hcut, schemeEnd_eq, ← splitAround_of_notMem (p := ['/', '/']) hu]
    simp
  rw [hcut] at hfirst
  simp at hfirst

lemma byteLen_scheme (h : toAsciiLowercase scheme ∈ httpSchemes) : byteLen scheme ≤ maxRequestSchemeLen := by
  have hsize : ∀ c : Char, c.toLower.toNat < 128 → c.utf8Size = 1 :=
    toLower_induction (p := fun c l => l.toNat < 128 → c.utf8Size = 1) (by decide)
      fun c hc hl => absurd hl (not_lt.mpr hc)
  have hascii : ∀ s ∈ httpSchemes, s.length ≤ maxRequestSchemeLen ∧ ∀ c ∈ s, c.toNat < 128 := by decide
  obtain ⟨hlen, hall⟩ := hascii _ h
  have hones : scheme.map Char.utf8Size = replicate scheme.length 1 := by
    refine eq_replicate_iff.mpr ⟨length_map _, fun n hn => ?_⟩
    obtain ⟨c, hc, rfl⟩ := mem_map.mp hn
    exact hsize c (hall _ (mem_map_of_mem hc))
  rw [byteLen, hones, sum_replicate_nat, mul_one]
  simpa [toAsciiLowercase] using hlen

/-- **The origin of a reference** is that of its scheme and authority. -/
lemma originFromUrl_eq_ok (hb : startsBlank url = false) : originFromUrl parser url = .ok origin ↔
    ∃ scheme authority rest, RefererParts url scheme authority rest ∧
      byteLen authority ≤ maxRefererAuthorityLen ∧
      Utils.normalizeOrigin parser (scheme ++ (schemeEnd ++ authority)) false = .ok origin := by
  have hlow (s a : Text) : Utils.normalizeOrigin parser (toAsciiLowercase s ++ (schemeEnd ++ a)) false =
      .ok origin ↔ Utils.normalizeOrigin parser (s ++ (schemeEnd ++ a)) false = .ok origin := by
    refine normalizeOrigin_congr ?_ false
    simp only [toAsciiLowercase_append, toAsciiLowercase_idem]
  simp only [originFromUrl, ensureValueLen, normalizeOrigin, bind_eq_ok, okOr_eq_ok, refuse_eq_ok,
    except_mapError_eq_ok, exists_unit, not_lt, Prod.exists]
  have hstarts (s t : Text) : startsBlank (toAsciiLowercase s ++ (schemeEnd ++ t)) =
      startsBlank (s ++ (schemeEnd ++ t)) := by
    cases s <;> simp [toAsciiLowercase, startsBlank, isWhitespace_toLower]
  have hsame (s t t' : Text) : startsBlank (s ++ (schemeEnd ++ t)) = startsBlank (s ++ (schemeEnd ++ t')) := by
    cases s <;> rfl
  constructor
  · rintro ⟨s, t, hcut, -, ha, hok⟩
    have hurl := splitAround_eq_some hcut
    rw [append_assoc] at hurl
    have hblank : startsBlank (s ++ (schemeEnd ++ t.takeWhile (· ∉ authorityStops))) = false := by
      rw [hsame s _ t, ← hurl, hb]
    have hcolon := colon_notMem hcut hok ((hstarts ..).trans hblank)
    rw [hlow] at hok
    refine ⟨s, _, t.dropWhile (· ∉ authorityStops), ⟨?_, ?_, ?_, ?_⟩, ha, hok⟩
    · rw [takeWhile_append_dropWhile, hurl]
    · exact clean_scheme (scheme_of_ok hblank hcolon hok)
    · intro c hc
      simpa using mem_takeWhile_imp hc
    · have hhead := head?_dropWhile_not (· ∉ authorityStops) t
      cases hd : t.dropWhile (· ∉ authorityStops) with
      | nil => rfl
      | cons c r =>
        rw [hd] at hhead
        simpa using hhead
  · rintro ⟨s, a, r, hparts, ha, hok⟩
    have hcolon : ':' ∉ s := fun hc => hparts.scheme _ hc mem_cons_self
    obtain ⟨hhead, -⟩ := takeWhile_cut (p := (· ∉ authorityStops)) (l := a) (r := r)
      (fun c hc => by simpa using hparts.authority c hc) (by simpa using hparts.rest)
    have hblank : startsBlank (s ++ (schemeEnd ++ a)) = false := by
      rw [hsame s a (a ++ r), ← hparts.text, hb]
    refine ⟨s, a ++ r, ?_, byteLen_scheme (scheme_of_ok hblank hcolon hok), ?_⟩
    · rw [hparts.text]
      exact splitAround_of_notMem hcolon (a ++ r)
    · rw [hhead, hlow]
      exact ⟨ha, hok⟩

/-! ## The decision -/

lemma RefererParts.unique {value s a t s' a' t' : Text} (h : RefererParts value s a t)
    (h' : RefererParts value s' a' t') : a = a' := by
  obtain ⟨rfl, hrest⟩ := append_inj_of_notMem (p := (decide <| · = ':')) (h.text.symm.trans h'.text)
    (fun c hc => decide_eq_false fun e => h.scheme c hc (by simp [e]))
    (fun c hc => decide_eq_false fun e => h'.scheme c hc (by simp [e])) rfl rfl
  exact (append_inj_of_notMem (p := (decide <| · ∈ authorityStops)) (append_cancel_left hrest)
    (fun c hc => decide_eq_false (h.authority c hc)) (fun c hc => decide_eq_false (h'.authority c hc))
    h.rest h'.rest).1

/-- What stands behind the authority is not looked at. -/
lemma originFromUrl_congr {url' rest' : Text} (h : RefererParts url scheme authority rest)
    (h' : RefererParts url' scheme authority rest') : originFromUrl parser url = originFromUrl parser url' := by
  have hcut : ∀ {u t : Text}, RefererParts u scheme authority t →
      splitAround schemeEnd u = some (scheme, authority ++ t) ∧
        (authority ++ t).takeWhile (· ∉ authorityStops) = authority := by
    intro u t hp
    have hcolon : ':' ∉ scheme := fun hc => hp.scheme _ hc mem_cons_self
    refine ⟨?_, (takeWhile_cut (fun c hc => ?_) ?_).1⟩
    · rw [hp.text]
      exact splitAround_of_notMem hcolon (authority ++ t)
    · simpa using hp.authority c hc
    · simpa using hp.rest
  obtain ⟨hs, ha⟩ := hcut h
  obtain ⟨hs', ha'⟩ := hcut h'
  simp only [originFromUrl, hs, hs', okOr_some, ok_bind, ha, ha']

lemma isAscii_toAsciiLowercase (value : Text) : isAscii (toAsciiLowercase value) = isAscii value := by
  have hascii : ∀ c : Char, decide (c.toLower.toNat < 128) = decide (c.toNat < 128) :=
    toLower_induction (p := fun c l => decide (l.toNat < 128) = decide (c.toNat < 128)) (by decide)
      fun _ _ => rfl
  simp only [isAscii, toAsciiLowercase, all_map]
  exact congrArg value.all (funext hascii)

/-- What is asked of `Sec-Fetch-Site` before the source is looked at. -/
lemma fetchSite_iff (site : Option Text) : ((∀ text ∈ site, byteLen text ≤ maxSecFetchSiteLen) ∧
      ¬ ((site.map toAsciiLowercase).any (!isAscii ·) = true) ∧
      ¬ (site.map toAsciiLowercase = some crossSite ∨ site.map toAsciiLowercase = some noSite)) ↔
    (∀ text ∈ site, toAsciiLowercase text ∉ [crossSite, noSite]) ∧
      ∀ text ∈ site, byteLen text ≤ maxSecFetchSiteLen ∧ isAscii text = true := by
  cases site with
  | none => simp
  | some text =>
    simp only [Option.mem_def, Option.some.injEq, forall_eq', Option.map_some, Option.any_some,
      isAscii_toAsciiLowercase, mem_cons, not_mem_nil, or_false, Bool.not_eq_true', Bool.not_eq_false]
    tauto

lemma trusted_ok_iff {kind : CsrfErrorKind} {error : CsrfError} :
    (normalizeOrigin parser value kind >>= fun origin =>
      refuse (originIsTrusted origin requestOrigin publicSiteOrigins = false) error) = .ok () ↔
    Trusted parser value requestOrigin publicSiteOrigins := by
  simp [normalizeOrigin, bind_eq_ok, except_mapError_eq_ok, refuse_eq_ok, trusted_iff]

lemma referer_ok_iff {error : CsrfError} (hb : startsBlank url = false) :
    (originFromUrl parser url >>= fun origin =>
      refuse (originIsTrusted origin requestOrigin publicSiteOrigins = false) error) = .ok () ↔
    (∃ scheme authority rest, RefererParts url scheme authority rest ∧
      Trusted parser (scheme ++ (schemeEnd ++ authority)) requestOrigin publicSiteOrigins) ∧
      ∀ scheme authority rest, RefererParts url scheme authority rest →
        byteLen authority ≤ maxRefererAuthorityLen := by
  simp only [bind_eq_ok, originFromUrl_eq_ok hb, refuse_eq_ok, Bool.not_eq_false, trusted_iff]
  constructor
  · rintro ⟨o, ⟨s, a, t, hp, ha, hok⟩, ht⟩
    refine ⟨⟨s, a, t, hp, o, hok, ht⟩, fun s' a' t' hp' => ?_⟩
    rwa [hp'.unique hp]
  · rintro ⟨⟨s, a, t, hp, o, hok, ht⟩, ha⟩
    exact ⟨o, ⟨s, a, t, hp, ha s a t hp, hok⟩, ht⟩

/-- **The source of a request.**  A request is let through exactly if its source is allowed and the headers are
not too long.  What follows the authority of a referer changes nothing, and a further trusted origin refuses
nothing. -/
theorem ensure_headers_allowed (parser : UriParser) :
    (∀ origin referer secFetchSite requestOrigin publicSiteOrigins mode,
      ensureHeadersAllowed parser origin referer secFetchSite requestOrigin publicSiteOrigins mode = .ok () ↔
        SourceAllowed parser origin referer secFetchSite requestOrigin publicSiteOrigins mode ∧
          WithinBounds origin referer secFetchSite) ∧
    (∀ origin secFetchSite requestOrigin publicSiteOrigins mode referer referer' scheme authority rest rest',
      (∃ value ∈ trimmedHeaderValue referer, RefererParts value scheme authority rest) →
      (∃ value ∈ trimmedHeaderValue referer', RefererParts value scheme authority rest') →
        ensureHeadersAllowed parser origin referer secFetchSite requestOrigin publicSiteOrigins mode =
          ensureHeadersAllowed parser origin referer' secFetchSite requestOrigin publicSiteOrigins mode) ∧
    ∀ origin referer secFetchSite requestOrigin publicSiteOrigins publicSiteOrigins' mode,
      publicSiteOrigins ⊆ publicSiteOrigins' →
      ensureHeadersAllowed parser origin referer secFetchSite requestOrigin publicSiteOrigins mode = .ok () →
      ensureHeadersAllowed parser origin referer secFetchSite requestOrigin publicSiteOrigins' mode =
        .ok () := by
  have hdecision : ∀ origin referer site requestOrigin publicSiteOrigins mode,
      ensureHeadersAllowed parser origin referer site requestOrigin publicSiteOrigins mode = .ok () ↔
        SourceAllowed parser origin referer site requestOrigin publicSiteOrigins mode ∧
          WithinBounds origin referer site := by
    intro origin referer site requestOrigin publicSiteOrigins mode
    have hmode : ¬ mode = .required ↔ mode = .optionalWhenPresent := by cases mode <;> simp
    have hsite := fetchSite_iff (trimmedHeaderValue site)
    simp only [ensureHeadersAllowed, bind_eq_ok, sourceHeaderValue_eq_ok, refuse_eq_ok, exists_unit,
      and_assoc, exists_and_left, exists_eq_left, SourceAllowed, WithinBounds]
    cases ho : trimmedHeaderValue origin with
    | some value =>
      simp only [trusted_ok_iff, Option.mem_def, Option.some.injEq, exists_eq_left', forall_eq',
        reduceCtorEq, false_and, or_false, false_imp_iff, and_true] at hsite ⊢
      constructor
      · rintro ⟨hlen, hascii, hcross, hbound, ht⟩
        obtain ⟨hallowed, hwithin⟩ := hsite.mp ⟨hlen, hascii, hcross⟩
        exact ⟨hallowed, ht, hwithin, hbound⟩
      · rintro ⟨hallowed, ht, hwithin, hbound⟩
        obtain ⟨hlen, hascii, hcross⟩ := hsite.mpr ⟨hallowed, hwithin⟩
        exact ⟨hlen, hascii, hcross, hbound, ht⟩
    | none =>
      cases hr : trimmedHeaderValue referer with
      | some value =>
        simp only [referer_ok_iff (trimmedHeaderValue_startsBlank hr), Option.mem_def, Option.some.injEq,
          exists_eq_left', forall_eq', reduceCtorEq, false_and, exists_false, false_or, or_false, true_and,
          true_imp_iff, false_imp_iff, implies_true] at hsite ⊢
        constructor
        · rintro ⟨hlen, hascii, hcross, ht, hbound⟩
          obtain ⟨hallowed, hwithin⟩ := hsite.mp ⟨hlen, hascii, hcross⟩
          exact ⟨hallowed, ht, hwithin, hbound⟩
        · rintro ⟨hallowed, ht, hwithin, hbound⟩
          obtain ⟨hlen, hascii, hcross⟩ := hsite.mpr ⟨hallowed, hwithin⟩
          exact ⟨hlen, hascii, hcross, ht, hbound⟩
      | none =>
        have hsame : ¬ (trimmedHeaderValue site).map toAsciiLowercase = some sameSite ↔
            ∀ text ∈ trimmedHeaderValue site, toAsciiLowercase text ≠ sameSite := by
          simp [Option.map_eq_some_iff]
        simp only [bind_eq_ok, refuse_eq_ok, exists_unit, hmode, hsame, Option.mem_def, reduceCtorEq,
          false_and, exists_false, false_or, true_and, false_imp_iff, implies_true, and_true,
          and_false] at hsite ⊢
        constructor
        · rintro ⟨hlen, hascii, hcross, hother, hm⟩
          obtain ⟨hallowed, hwithin⟩ := hsite.mp ⟨hlen, hascii, hcross⟩
          exact ⟨hallowed, ⟨hm, hother⟩, hwithin⟩
        · rintro ⟨hallowed, ⟨hm, hother⟩, hwithin⟩
          obtain ⟨hlen, hascii, hcross⟩ := hsite.mpr ⟨hallowed, hwithin⟩
          exact ⟨hlen, hascii, hcross, hother, hm⟩
  refine ⟨hdecision, ?_, ?_⟩
  · rintro origin site requestOrigin publicSiteOrigins mode referer referer' s a t t' ⟨v, hv, hp⟩ ⟨v', hv', hp'⟩
    simp only [ensureHeadersAllowed, Option.mem_def.mp hv, Option.mem_def.mp hv', originFromUrl_congr hp hp']
  · intro origin referer site requestOrigin publicSiteOrigins publicSiteOrigins' mode hsub h
    rw [hdecision] at h ⊢
    have hmono : ∀ value, Trusted parser value requestOrigin publicSiteOrigins →
        Trusted parser value requestOrigin publicSiteOrigins' :=
      fun value ⟨o, ho, hin⟩ => ⟨o, ho, hin.imp_right (hsub ·)⟩
    obtain ⟨⟨hsite, hsource⟩, hbounds⟩ := h
    refine ⟨⟨hsite, ?_⟩, hbounds⟩
    rcases hsource with ⟨v, hv, ht⟩ | ⟨hnone, v, hv, s, a, t, hp, ht⟩ | hneither
    · exact .inl ⟨v, hv, hmono v ht⟩
    · exact .inr (.inl ⟨hnone, v, hv, s, a, t, hp, hmono _ ht⟩)
    · exact .inr (.inr hneither)

/-- A value of `Sec-Fetch-Site` that is too long. -/
theorem ensure_headers_counterexample :
    ¬ (ensureHeadersAllowed webParser none none (some (replicate 65 'a')) [] [] .optionalWhenPresent =
        .ok () ↔
      SourceAllowed webParser none none (some (replicate 65 'a')) [] [] .optionalWhenPresent) := by
  intro h
  have hallowed : SourceAllowed webParser none none (some (replicate 65 'a')) [] [] .optionalWhenPresent := by
    refine ⟨?_, .inr (.inr ⟨rfl, rfl, rfl, ?_⟩)⟩ <;> decide
  have hrefused : ensureHeadersAllowed webParser none none (some (replicate 65 'a')) [] []
      .optionalWhenPresent = .error ⟨.requestHeaderValueInvalid, "Sec-Fetch-Site exceeds 64 bytes"⟩ := by
    decide +kernel
  rw [hrefused] at h
  cases h.mpr hallowed

end AsterForge.Middleware
