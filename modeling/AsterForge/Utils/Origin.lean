import AsterForge.Library.Text

/-!
# Web origins

An origin is normalised to `scheme://authority` in small letters.  A URI is taken apart by a general parser,
which drops the fragment, so an origin with a fragment behind it passes for the origin.

* `UriParser` — the parser, and what is relied on.
* `IsOrigin` — what an origin is; **`normalize_origin_exact`** — it is accepted, exactly if no fragment follows.
-/

namespace AsterForge.Utils

open Library List Option

/-! ## Uniform resource identifiers -/

structure Uri where
  scheme : Option Text
  authority : Option Text
  path : Text
  query : Option Text

def httpSchemes : List Text := ["http".toList, "https".toList]

/-- The parser knows the web's schemes in any case. -/
def schemeName (scheme : Text) : Text :=
  if toAsciiLowercase scheme ∈ httpSchemes then toAsciiLowercase scheme else scheme

def schemeEnd : Text := "://".toList

def uriText (scheme authority path : Text) (query fragment : Option Text) : Text :=
  scheme ++ (schemeEnd ++ (authority ++ (path ++ (query.elim [] ('?' :: ·) ++ fragment.elim [] ('#' :: ·)))))

def byteLength (text : Text) : ℕ := (text.map Char.utf8Size).sum

/-- Components that end where the next one begins. -/
structure UriShape (scheme authority path : Text) (query : Option Text) : Prop where
  scheme : ':' ∉ scheme
  authority : ∀ c ∈ authority, isWhitespace c = false ∧ c ∉ ['/', '?', '#']
  path : path.head?.all (· = '/') = true ∧ ∀ c ∈ path, c ∉ ['?', '#']
  query : ∀ text ∈ query, '#' ∉ text

/-- The parser of the web library.  It takes an absolute URI apart and drops its fragment; whether it takes a
scheme with an authority does not depend on case, or on what follows if that takes no more bytes. -/
structure UriParser where
  parse : Text → Option Uri
  splits : ∀ text uri, parse text = some uri → uri.scheme ≠ none → ∃ scheme authority path query fragment,
    text = uriText scheme authority path query fragment ∧ UriShape scheme authority path query ∧
      uri = ⟨some (schemeName scheme), some authority, if path = [] then ['/'] else path, query⟩
  http : ∀ scheme rest uri, toAsciiLowercase scheme ∈ httpSchemes →
    parse (scheme ++ (schemeEnd ++ rest)) = some uri → uri.scheme ≠ none
  again : ∀ scheme authority path query fragment, UriShape scheme authority path query →
    (parse (uriText scheme authority path query fragment)).isSome → ∀ scheme' authority' path' fragment',
      toAsciiLowercase scheme' = toAsciiLowercase scheme → toAsciiLowercase scheme ∈ httpSchemes →
        toAsciiLowercase authority' = toAsciiLowercase authority → path' = [] ∨ path' = ['/'] →
        byteLength (uriText scheme' authority' path' none fragment') ≤
          byteLength (uriText scheme authority path query fragment) →
        (parse (uriText scheme' authority' path' none fragment')).isSome

/-! ## Normalisation -/

/-- The message of an invalid value. -/
structure UtilsError where
  invalidValue ::
  message : Text

def complain (before : String) (trimmed : Text) : UtilsError :=
  .invalidValue (before.toList ++ '\'' :: (trimmed ++ ['\'']))

section

variable (parser : UriParser)

def normalizeOriginWithAdditionalSchemes (origin : Text) (allowWildcard : Bool)
    (additionalSchemes : List Text) : Except UtilsError Text :=
  let trimmed := trim origin
  if trimmed = [] then .error (.invalidValue "origin cannot be empty".toList)
  else if allowWildcard ∧ trimmed = ['*'] then .ok ['*']
  else
    match parser.parse trimmed with
    | none => .error (complain "invalid origin " trimmed)
    | some uri =>
      match uri.scheme with
      | none => .error (complain "origin must include http:// or https://: " trimmed)
      | some scheme =>
        if scheme ∉ httpSchemes ∧ scheme ∉ additionalSchemes then
          .error (complain "origin scheme is not supported: " trimmed)
        else
          match uri.authority with
          | none => .error (complain "origin must include a host: " trimmed)
          | some authority =>
            if '@' ∈ authority then .error (complain "origin must not include userinfo: " trimmed)
            else if uri.query.isSome then
              .error (complain "origin must not include query parameters: " trimmed)
            else if uri.path ≠ [] ∧ uri.path ≠ ['/'] then
              .error (complain "origin must not include a path: " trimmed)
            else .ok (toAsciiLowercase scheme ++ (schemeEnd ++ toAsciiLowercase authority))

def normalizeOrigin (origin : Text) (allowWildcard : Bool) : Except UtilsError Text :=
  normalizeOriginWithAdditionalSchemes parser origin allowWildcard []

def normalizePublicSiteOrigin (origin : Text) : Except UtilsError Text :=
  if trim origin = ['*'] then
    .error (.invalidValue "public_site_url does not support wildcard origins".toList)
  else
    match normalizeOrigin parser origin false with
    | .ok normalized => .ok normalized
    | .error error => .error (.invalidValue ("invalid public_site_url origin '".toList ++
        (origin ++ ("': ".toList ++ error.message))))

-- the JSON library, with the text of its error
variable (fromJson : Text → Except Text (List Text))

def parsePublicSiteOriginEntries (value : Text) : Except UtilsError (List Text) :=
  if trim value = [] then
    .error (.invalidValue "public_site_url must be a JSON array of origins".toList)
  else
    match fromJson (trim value) with
    | .error error => .error (.invalidValue
        ("public_site_url must be a JSON array of origins: ".toList ++ error))
    | .ok entries => .ok ((entries.map trim).filter (· ≠ []))

def pushNew (origins : List Text) (normalized : Text) : List Text :=
  if normalized ∈ origins then origins else origins ++ [normalized]

def collectOrigins : List Text → List Text → Except UtilsError (List Text)
  | origins, [] => .ok origins
  | origins, origin :: entries =>
    match normalizePublicSiteOrigin parser origin with
    | .error error => .error error
    | .ok normalized => collectOrigins (pushNew origins normalized) entries

def parsePublicSiteOrigins (value : Text) : Except UtilsError (List Text) :=
  match parsePublicSiteOriginEntries fromJson value with
  | .error error => .error error
  | .ok entries => collectOrigins parser [] entries

/-- The loop over the entries, with what is reported as invalid. -/
def collectValid : List Text → List Text → List Text × List (Option Text × UtilsError)
  | origins, [] => (origins, [])
  | origins, origin :: entries =>
    match normalizePublicSiteOrigin parser origin with
    | .ok normalized => collectValid (pushNew origins normalized) entries
    | .error error =>
      let rest := collectValid origins entries
      (rest.1, (some origin, error) :: rest.2)

def runtimePublicSiteOriginsWith (value : Option Text) : List Text × List (Option Text × UtilsError) :=
  match (value.map trim).filter (· ≠ []) with
  | none => ([], [])
  | some value =>
    match parsePublicSiteOriginEntries fromJson value with
    | .error error => ([], [(none, error)])
    | .ok entries => collectValid parser [] entries

def publicSiteOriginForRequest (origins : List Text) (scheme host : Text) : Option Text :=
  if origins = [] then none
  else
    match normalizeOrigin parser (scheme ++ (schemeEnd ++ host)) false with
    | .ok requestOrigin => if requestOrigin ∈ origins then some requestOrigin else origins.head?
    | .error _ => origins.head?

/-! ## What is accepted -/

/-- An authority without user information. -/
def Bare (authority : Text) : Prop :=
  ∀ c ∈ authority, isWhitespace c = false ∧ c ∉ ['/', '?', '#', '@']

/-- A web origin, with an optional slash and a fragment or none, that the parser takes. -/
def IsOrigin (text : Text) (fragment : Option Text) (normalized : Text) : Prop :=
  ∃ scheme authority path, text = uriText scheme authority path none fragment ∧
    toAsciiLowercase scheme ∈ httpSchemes ∧ Bare authority ∧ (path = [] ∨ path = ['/']) ∧ (parser.parse text).isSome ∧
    normalized = toAsciiLowercase scheme ++ (schemeEnd ++ toAsciiLowercase authority)

end

variable {parser : UriParser} {scheme authority path scheme' authority' path' text origin : Text}
  {query fragment query' fragment' : Option Text}

lemma schemeEnd_eq : schemeEnd = [':', '/', '/'] := by decide

lemma byteLength_lower (text : Text) : byteLength (toAsciiLowercase text) = byteLength text := by
  have hsize : Char.utf8Size ∘ Char.toLower = Char.utf8Size := funext fun c =>
    toLower_induction (p := fun c l => l.utf8Size = c.utf8Size) (by decide) (fun _ _ => rfl) c
  rw [byteLength, toAsciiLowercase, List.map_map, hsize, byteLength]

lemma uriText_inj (h : uriText scheme authority path query fragment =
      uriText scheme' authority' path' query' fragment')
    (hs : UriShape scheme authority path query) (hs' : UriShape scheme' authority' path' query') :
    scheme = scheme' ∧ authority = authority' ∧ path = path' ∧ query = query' ∧ fragment = fragment' := by
  have htail : ∀ q f : Option Text, (q.elim [] ('?' :: ·) ++ f.elim [] ('#' :: ·)).head?.all
      (fun c => decide (c ∈ ['?', '#'])) = true := by
    intro q f
    cases q <;> cases f <;> simp
  have hpath : ∀ {p : Text} {q f : Option Text}, p.head?.all (· = '/') = true →
      (p ++ (q.elim [] ('?' :: ·) ++ f.elim [] ('#' :: ·))).head?.all
        (fun c => decide (c ∈ ['/', '?', '#'])) = true := by
    intro p q f hp
    cases p with
    | nil => cases q <;> cases f <;> simp
    | cons c p => simpa using .inl (by simpa using hp)
  obtain ⟨rfl, h₁⟩ := append_inj_of_notMem (p := fun c => decide (c = ':')) h
    (fun c hc => decide_eq_false fun e => hs.scheme (e ▸ hc))
    (fun c hc => decide_eq_false fun e => hs'.scheme (e ▸ hc)) rfl rfl
  obtain ⟨rfl, h₂⟩ := append_inj_of_notMem (append_cancel_left h₁)
    (fun c hc => decide_eq_false (hs.authority c hc).2)
    (fun c hc => decide_eq_false (hs'.authority c hc).2) (hpath hs.path.1) (hpath hs'.path.1)
  obtain ⟨rfl, h₃⟩ := append_inj_of_notMem h₂ (fun c hc => decide_eq_false (hs.path.2 c hc))
    (fun c hc => decide_eq_false (hs'.path.2 c hc)) (htail _ _) (htail _ _)
  have hfragment : ∀ f f' : Option Text, f.elim [] ('#' :: ·) = f'.elim [] ('#' :: ·) → f = f' := by
    intro f f' hf
    cases f <;> cases f' <;> simp_all
  cases query with
  | none =>
    cases query' with
    | none => exact ⟨rfl, rfl, rfl, rfl, hfragment _ _ h₃⟩
    | some q => cases fragment <;> simp at h₃
  | some q =>
    cases query' with
    | none => cases fragment' <;> simp at h₃
    | some q' =>
      have hstop : ∀ f : Option Text, (f.elim [] ('#' :: ·)).head?.all (· = '#') = true := by
        intro f
        cases f <;> simp
      obtain ⟨rfl, h₄⟩ := append_inj_of_notMem (p := fun c => decide (c = '#')) (cons.inj h₃).2
        (fun c hc => decide_eq_false fun e => hs.query q rfl (e ▸ hc))
        (fun c hc => decide_eq_false fun e => hs'.query q' rfl (e ▸ hc)) (hstop _) (hstop _)
      exact ⟨rfl, rfl, rfl, rfl, hfragment _ _ h₄⟩

lemma notMem_of_http (h : toAsciiLowercase scheme ∈ httpSchemes) : ':' ∉ scheme := by
  intro hc
  have hlow : ':' ∈ toAsciiLowercase scheme := mem_map.mpr ⟨':', hc, by decide⟩
  simp only [httpSchemes, mem_cons, not_mem_nil, or_false] at h
  rcases h with h | h <;> rw [h] at hlow <;> revert hlow <;> decide

lemma shape_of_http (h : toAsciiLowercase scheme ∈ httpSchemes) (ha : Bare authority)
    (hp : path = [] ∨ path = ['/']) : UriShape scheme authority path none := by
  refine ⟨notMem_of_http h, fun c hc => ⟨(ha c hc).1, fun hm => (ha c hc).2 ?_⟩, ?_, fun _ hq => nomatch hq⟩
  · simp only [mem_cons, not_mem_nil, or_false] at hm ⊢
    tauto
  · rcases hp with rfl | rfl <;> decide

lemma lower_of_http (h : text ∈ httpSchemes) : toAsciiLowercase text = text := by
  simp only [httpSchemes, mem_cons, not_mem_nil, or_false] at h
  rcases h with rfl | rfl <;> decide

lemma schemeName_http (h : schemeName scheme ∈ httpSchemes) : toAsciiLowercase scheme ∈ httpSchemes ∧
    toAsciiLowercase (schemeName scheme) = toAsciiLowercase scheme := by
  unfold schemeName at h ⊢
  split_ifs at h ⊢ with hs
  · exact ⟨hs, lower_of_http hs⟩
  · exact ⟨(lower_of_http h).symm ▸ h, rfl⟩

/-- **What is accepted**: the origins, whether a fragment follows or not. -/
theorem normalizeOrigin_eq_ok : normalizeOrigin parser origin false = .ok text ↔
    ∃ fragment, IsOrigin parser (trim origin) fragment text := by
  unfold normalizeOrigin normalizeOriginWithAdditionalSchemes IsOrigin
  simp only [Bool.false_eq_true, false_and, if_false, not_mem_nil, not_false_eq_true, and_true]
  constructor
  · intro h
    split_ifs at h with hne
    split at h
    · cases h
    next uri hparse =>
    split at h
    · cases h
    next s hscheme =>
    obtain ⟨st, a, p, q, f, htext, hshape, rfl⟩ := parser.splits _ uri hparse (by simp [hscheme])
    simp only [some.injEq] at hscheme
    subst hscheme
    simp only at h
    split_ifs at h with hs hat hq hpath
    all_goals
      cases h
      obtain rfl : q = none := by simpa using hq
      obtain ⟨hhttp, hlow⟩ := schemeName_http hs
      refine ⟨f, st, a, p, htext, hhttp, fun c hc => ?_, by tauto, by simp [hparse], by rw [hlow]⟩
      have hne : c ≠ '@' := fun e => hat (e ▸ hc)
      simpa [hne] using hshape.authority c hc
  · rintro ⟨f, st, a, p, htext, hhttp, ha, hp, hparse, rfl⟩
    obtain ⟨uri, huri⟩ := isSome_iff_exists.mp hparse
    have hscheme := parser.http st (a ++ (p ++ ([] ++ f.elim [] ('#' :: ·)))) uri hhttp (htext ▸ huri)
    obtain ⟨st', a', p', q', f', htext', hshape, rfl⟩ := parser.splits _ uri huri hscheme
    obtain ⟨rfl, rfl, rfl, rfl, rfl⟩ :=
      uriText_inj (htext.symm.trans htext') (shape_of_http hhttp ha hp) hshape
    have hne : trim origin ≠ [] := by
      rw [htext, uriText, schemeEnd_eq]
      simp
    have hname : schemeName st = toAsciiLowercase st := if_pos hhttp
    have hat : '@' ∉ a := fun hc => (ha _ hc).2 (by simp)
    simp only [hne, huri, hname, hhttp, not_true_eq_false, if_false, hat, isSome_none,
      Bool.false_eq_true, lower_of_http hhttp]
    rcases hp with rfl | rfl <;> simp

/-! ## Case -/

/-- Characters that stop an authority have no case. -/
lemma lower_stops {stops : List Char} (hl : toAsciiLowercase authority' = toAsciiLowercase authority)
    (h : ∀ c ∈ authority, isWhitespace c = false ∧ c ∉ stops)
    (hs : ∀ c ∈ stops, c.isAlpha = false ∧ c.toLower = c) :
    ∀ c ∈ authority', isWhitespace c = false ∧ c ∉ stops := by
  intro c hc
  have hm : c.toLower ∈ toAsciiLowercase authority := hl ▸ mem_map_of_mem hc
  obtain ⟨d, hd, hcd⟩ := mem_map.mp hm
  obtain ⟨hb, hout⟩ := h d hd
  refine ⟨by rw [← isWhitespace_toLower, ← hcd, isWhitespace_toLower, hb], fun hin => hout ?_⟩
  obtain ⟨ha, hlow⟩ := hs c hin
  rwa [toLower_eq_of_not_alpha ha (hcd.trans hlow)]

lemma Bare.of_lower (h : Bare authority) (hl : toAsciiLowercase authority' = toAsciiLowercase authority) :
    Bare authority' := lower_stops hl h (by decide)

lemma IsOrigin.of_lower {text' : Text} (h : IsOrigin parser text fragment origin)
    (hl : toAsciiLowercase text' = toAsciiLowercase text) :
    ∃ fragment', IsOrigin parser text' fragment' origin := by
  obtain ⟨st, a, p, rfl, hhttp, ha, hp, hparse, rfl⟩ := h
  obtain ⟨st', r₁, rfl, hst, h₁⟩ := lower_eq_append hl
  obtain ⟨e, r₂, rfl, he, h₂⟩ := lower_eq_append h₁
  obtain ⟨a', r₃, rfl, ha', h₃⟩ := lower_eq_append h₂
  obtain ⟨p', r₄, rfl, hp', h₄⟩ := lower_eq_append h₃
  obtain rfl := eq_of_lower_eq (by decide) he
  obtain rfl : p' = p := eq_of_lower_eq (by rcases hp with rfl | rfl <;> decide) hp'
  obtain ⟨f', rfl⟩ : ∃ f' : Option Text, r₄ = f'.elim [] ('#' :: ·) := by
    cases fragment with
    | none => exact ⟨none, by simpa [toAsciiLowercase] using h₄⟩
    | some f =>
      obtain ⟨c, f', rfl, hc, -⟩ := map_eq_cons_iff.mp h₄
      rw [toLower_eq_of_not_alpha (by decide) hc]
      exact ⟨some f', rfl⟩
  have hlen := congrArg byteLength hl
  simp only [byteLength_lower] at hlen
  refine ⟨f', st', a', p', rfl, hst ▸ hhttp, ha.of_lower ha', hp, ?_, by rw [hst, ha']⟩
  exact parser.again st a p' none fragment (shape_of_http hhttp ha hp) hparse st' a' p' f' hst hhttp
    ha' hp hlen.le

/-- An origin in its normal form. -/
lemma IsOrigin.again (h : IsOrigin parser text fragment origin) : IsOrigin parser (trim origin) none origin := by
  obtain ⟨st, a, p, rfl, hhttp, ha, hp, hparse, rfl⟩ := h
  have hblank : ∀ c ∈ toAsciiLowercase st ++ (schemeEnd ++ toAsciiLowercase a), isWhitespace c = false := by
    intro c hc
    rcases mem_append.mp hc with hc | hc
    · have hweb : ∀ s ∈ httpSchemes, ∀ c ∈ s, isWhitespace c = false := by decide
      exact hweb _ hhttp c hc
    · rcases mem_append.mp hc with hc | hc
      · have hends : ∀ c ∈ schemeEnd, isWhitespace c = false := by decide
        exact hends c hc
      · exact ((ha.of_lower (toAsciiLowercase_idem a)) c hc).1
  have htext : toAsciiLowercase st ++ (schemeEnd ++ toAsciiLowercase a) =
      uriText (toAsciiLowercase st) (toAsciiLowercase a) [] none none := by
    simp [uriText]
  rw [trim_of_no_blank hblank, IsOrigin]
  refine ⟨_, _, [], htext, ?_, ha.of_lower (toAsciiLowercase_idem a), .inl rfl, ?_, ?_⟩
  · rwa [toAsciiLowercase_idem]
  · rw [htext]
    refine parser.again st a p none fragment (shape_of_http hhttp ha hp) hparse _ _ [] none
      (toAsciiLowercase_idem st) hhttp (toAsciiLowercase_idem a) (.inl rfl) ?_
    have hst := byteLength_lower st
    have ha := byteLength_lower a
    simp only [byteLength, uriText, map_append, sum_append, elim_none, map_nil, sum_nil] at *
    omega
  · rw [toAsciiLowercase_idem, toAsciiLowercase_idem]

/-- With a fragment or without, not both. -/
lemma IsOrigin.no_fragment {f normalized : Text} (h : IsOrigin parser text none origin) :
    ¬ IsOrigin parser text (some f) normalized := by
  rintro ⟨st', a', p', htext', hhttp', ha', hp', -⟩
  obtain ⟨st, a, p, rfl, hhttp, ha, hp, -⟩ := h
  have hinj := uriText_inj htext' (shape_of_http hhttp ha hp) (shape_of_http hhttp' ha' hp')
  cases hinj.2.2.2.2

/-! ## Lists of origins -/

lemma pushNew_nodup {origins : List Text} (h : origins.Nodup) (origin : Text) :
    (pushNew origins origin).Nodup := by
  unfold pushNew
  split_ifs with hm
  · exact h
  · exact nodup_append.mpr ⟨h, nodup_singleton _, by rintro a ha _ hb rfl; exact hm (mem_singleton.mp hb ▸ ha)⟩

lemma foldl_pushNew (l : List Text) : l.foldl pushNew [] = l.eraseDups ∧ l.eraseDups.Nodup := by
  induction l using reverseRecOn with
  | nil => simp
  | append_singleton l a ih =>
    have heq : (l ++ [a]).foldl pushNew [] = (l ++ [a]).eraseDups := by
      rw [foldl_append, ih.1, eraseDups_append]
      by_cases ha : a ∈ l <;> simp [pushNew, removeAll, ha, eraseDups_cons]
    rw [← heq, foldl_append, ih.1]
    exact ⟨rfl, pushNew_nodup ih.2 a⟩

/-- What an entry counts for. -/
def validOrigin (parser : UriParser) (origin : Text) : Option Text :=
  (normalizePublicSiteOrigin parser origin).toOption

lemma collectValid_fst (parser : UriParser) (origins entries : List Text) :
    (collectValid parser origins entries).1 = (entries.filterMap (validOrigin parser)).foldl pushNew origins := by
  induction entries generalizing origins with
  | nil => rfl
  | cons origin entries ih =>
    rw [filterMap_cons, validOrigin, collectValid]
    cases normalizePublicSiteOrigin parser origin with
    | ok normalized => exact ih _
    | error error => exact ih _

/-- Where all are valid the two loops agree. -/
lemma collectOrigins_eq (parser : UriParser) (origins entries : List Text)
    (h : ∀ entry ∈ entries, (validOrigin parser entry).isSome) :
    collectOrigins parser origins entries = .ok (collectValid parser origins entries).1 ∧
      (collectValid parser origins entries).2 = [] := by
  induction entries generalizing origins with
  | nil => exact ⟨rfl, rfl⟩
  | cons origin entries ih =>
    obtain ⟨hvalid, h⟩ := forall_mem_cons.mp h
    rw [validOrigin] at hvalid
    rw [collectOrigins, collectValid]
    cases hn : normalizePublicSiteOrigin parser origin with
    | ok normalized => exact ih _ h
    | error error => simp [hn, Except.toOption] at hvalid

lemma trim_trim_ne {value : Text} {entries : List Text} {fromJson : Text → Except Text (List Text)}
    (h : parsePublicSiteOriginEntries fromJson value = .ok entries) :
    ((some value).map trim).filter (· ≠ []) = some (trim value) ∧
      parsePublicSiteOriginEntries fromJson (trim value) = .ok entries := by
  have hne : trim value ≠ [] := by
    intro he
    simp [parsePublicSiteOriginEntries, he] at h
  refine ⟨by simp [hne], ?_⟩
  rwa [parsePublicSiteOriginEntries, trim_trim]

lemma request_mem (parser : UriParser) {origins : List Text} (scheme host : Text) (h : origins ≠ []) :
    ∃ origin ∈ origins, publicSiteOriginForRequest parser origins scheme host = some origin := by
  obtain ⟨first, hfirst⟩ := ne_none_iff_exists'.mp (mt head?_eq_none_iff.mp h)
  have hmem := mem_of_mem_head? hfirst
  unfold publicSiteOriginForRequest
  rw [if_neg h]
  split
  · split_ifs with hm
    · exact ⟨_, hm, rfl⟩
    · exact ⟨first, hmem, hfirst⟩
  · exact ⟨first, hmem, hfirst⟩

/-! ## A parser -/

/-- A simple parser of the web's URIs without query. -/
def parseWeb (text : Text) : Option Uri :=
  let body := text.takeWhile (· ≠ '#')
  let scheme := body.takeWhile (· ≠ ':')
  let rest := body.drop (scheme.length + 3)
  let authority := rest.takeWhile (· ≠ '/')
  let path := rest.dropWhile (· ≠ '/')
  if body = scheme ++ (schemeEnd ++ rest) ∧ toAsciiLowercase scheme ∈ httpSchemes ∧ '?' ∉ rest ∧
      authority ≠ [] ∧ ∀ c ∈ authority, isWhitespace c = false then
    some ⟨some (toAsciiLowercase scheme), some authority, if path = [] then ['/'] else path, none⟩
  else none

lemma web_clean (hs : toAsciiLowercase scheme ∈ httpSchemes) (h : UriShape scheme authority path none) :
    (∀ c ∈ scheme ++ (schemeEnd ++ (authority ++ path)), c ≠ '#') ∧ '?' ∉ authority ++ path := by
  have hweb : ∀ s ∈ httpSchemes, '#' ∉ s := by decide
  have hscheme : '#' ∉ scheme := fun hc => hweb _ hs (mem_map.mpr ⟨'#', hc, by decide⟩)
  have hauthority : '#' ∉ authority ∧ '?' ∉ authority :=
    ⟨fun hc => (h.authority _ hc).2 (by simp), fun hc => (h.authority _ hc).2 (by simp)⟩
  have hpath : '#' ∉ path ∧ '?' ∉ path :=
    ⟨fun hc => h.path.2 _ hc (by simp), fun hc => h.path.2 _ hc (by simp)⟩
  constructor
  · rintro c hc rfl
    simp [hscheme, hauthority, hpath, schemeEnd_eq] at hc
  · simp [hauthority, hpath]

lemma parseWeb_eq (hs : toAsciiLowercase scheme ∈ httpSchemes) (h : UriShape scheme authority path none)
    (hne : authority ≠ []) : parseWeb (uriText scheme authority path none fragment) =
      some ⟨some (toAsciiLowercase scheme), some authority, if path = [] then ['/'] else path, none⟩ := by
  obtain ⟨hhash, hquery⟩ := web_clean hs h
  have hbody : (uriText scheme authority path none fragment).takeWhile (· ≠ '#') =
      scheme ++ (schemeEnd ++ (authority ++ path)) := by
    have htext : uriText scheme authority path none fragment =
        (scheme ++ (schemeEnd ++ (authority ++ path))) ++ fragment.elim [] ('#' :: ·) := by
      simp [uriText]
    rw [htext]
    exact (takeWhile_cut (by simpa using hhash) (by cases fragment <;> simp)).1
  have hscheme : (scheme ++ (schemeEnd ++ (authority ++ path))).takeWhile (· ≠ ':') = scheme := by
    refine (takeWhile_cut (fun c hc => ?_) rfl).1
    have hne : c ≠ ':' := fun e => h.scheme (e ▸ hc)
    simpa using hne
  have hrest : (scheme ++ (schemeEnd ++ (authority ++ path))).drop (scheme.length + 3) =
      authority ++ path := by
    rw [drop_append, schemeEnd_eq]
    simp
  obtain ⟨ha, hp⟩ : (authority ++ path).takeWhile (· ≠ '/') = authority ∧
      (authority ++ path).dropWhile (· ≠ '/') = path := by
    refine takeWhile_cut (fun c hc => ?_) (by simpa using h.path.1)
    have hne : c ≠ '/' := fun e => (h.authority c hc).2 (by simp [e])
    simpa using hne
  unfold parseWeb
  simp only [hbody, hscheme, hrest, ha, hp]
  exact if_pos ⟨trivial, hs, hquery, hne, fun c hc => (h.authority c hc).1⟩

lemma parseWeb_some {uri : Uri} (h : parseWeb text = some uri) :
    ∃ scheme authority path fragment, text = uriText scheme authority path none fragment ∧
      toAsciiLowercase scheme ∈ httpSchemes ∧ UriShape scheme authority path none ∧ authority ≠ [] := by
  unfold parseWeb at h
  extract_lets body st rest a p at h
  obtain ⟨⟨hbody, hs, hquery, hne, hblank⟩, -⟩ := ite_none_right_eq_some.mp h
  have hrest : rest = a ++ p := takeWhile_append_dropWhile.symm
  have hhash : ∀ c ∈ body, c ≠ '#' := fun c hc => by simpa using mem_takeWhile_imp hc
  have hsub : ∀ c ∈ rest, c ∈ body := fun c hc => by
    rw [hbody]
    simp [hc]
  obtain ⟨f, hf⟩ : ∃ f : Option Text, text.dropWhile (· ≠ '#') = f.elim [] ('#' :: ·) := by
    cases hd : text.dropWhile (· ≠ '#') with
    | nil => exact ⟨none, rfl⟩
    | cons c f =>
      have hc := head?_dropWhile_not (· ≠ '#') text
      rw [hd] at hc
      obtain rfl : c = '#' := by simpa using hc
      exact ⟨some f, rfl⟩
  refine ⟨st, a, p, f, ?_, hs, ⟨?_, fun c hc => ⟨hblank c hc, fun hm => ?_⟩, ⟨?_, fun c hc hm => ?_⟩,
    fun _ hq => nomatch hq⟩, hne⟩
  · rw [uriText, ← hf, elim_none, nil_append, ← append_assoc a, ← hrest, ← append_assoc schemeEnd,
      ← append_assoc st, ← hbody]
    exact takeWhile_append_dropWhile.symm
  · intro hc
    simpa using mem_takeWhile_imp hc
  · have hslash : c ≠ '/' := by simpa using mem_takeWhile_imp hc
    have hin : c ∈ rest := by simp [hrest, hc]
    have hmark := hhash c (hsub c hin)
    have hask : c ≠ '?' := fun e => hquery (e ▸ hin)
    simp_all
  · cases hd : p with
    | nil => rfl
    | cons c rest' =>
      have hc := head?_dropWhile_not (· ≠ '/') rest
      rw [show rest.dropWhile (· ≠ '/') = p from rfl, hd] at hc
      simpa using hc
  · have hin : c ∈ rest := by simp [hrest, hc]
    simp_all

def webParser : UriParser where
  parse := parseWeb
  splits := by
    intro text uri h _
    obtain ⟨st, a, p, f, rfl, hs, hshape, hne⟩ := parseWeb_some h
    rw [parseWeb_eq hs hshape hne] at h
    refine ⟨st, a, p, none, f, rfl, hshape, ?_⟩
    rw [schemeName, if_pos hs]
    exact (some.inj h).symm
  http := by
    intro st rest uri hs h
    obtain ⟨st', a, p, f, htext, hs', hshape, hne⟩ := parseWeb_some h
    rw [htext, parseWeb_eq hs' hshape hne] at h
    cases h
    simp
  again := by
    intro st a p q f hshape h st' a' p' f' hst hhttp ha hp _
    obtain ⟨uri, huri⟩ := isSome_iff_exists.mp h
    obtain ⟨st₁, a₁, p₁, f₁, htext, -, hshape₁, hne⟩ := parseWeb_some huri
    obtain ⟨rfl, rfl, rfl, rfl, rfl⟩ := uriText_inj htext hshape hshape₁
    rw [parseWeb_eq (hst ▸ hhttp) ⟨notMem_of_http (hst ▸ hhttp), lower_stops ha hshape.authority (by decide), ?_,
      fun _ hq => nomatch hq⟩ ?_]
    · rfl
    · rcases hp with rfl | rfl <;> decide
    · rintro rfl
      exact hne (map_eq_nil_iff.mp ha.symm)

lemma normalizeOrigin_wild (wild : Bool) : normalizeOrigin parser origin wild = .ok text ↔
    (wild = true ∧ trim origin = ['*'] ∧ text = ['*']) ∨ normalizeOrigin parser origin false = .ok text := by
  by_cases hstar : wild = true ∧ trim origin = ['*']
  · have hno : ¬ normalizeOrigin parser origin false = .ok text := by
      rw [normalizeOrigin_eq_ok]
      rintro ⟨_, st, a, p, htext, -⟩
      have hcolon : ':' ∈ trim origin := by simp [htext, uriText, schemeEnd_eq]
      simp [hstar.2] at hcolon
    have hwild : normalizeOrigin parser origin wild = .ok ['*'] := by
      have hne : trim origin ≠ [] := by
        rw [hstar.2]
        exact cons_ne_nil _ _
      exact (if_neg hne).trans (if_pos hstar)
    rw [hwild]
    constructor
    · intro h
      exact .inl ⟨hstar.1, hstar.2, (Except.ok.inj h).symm⟩
    · rintro (⟨-, -, rfl⟩ | h)
      · rfl
      · exact absurd h hno
  · have hsame : normalizeOrigin parser origin wild = normalizeOrigin parser origin false := by
      unfold normalizeOrigin normalizeOriginWithAdditionalSchemes
      simp only [hstar, Bool.false_eq_true, false_and, if_false]
    rw [hsame]
    exact ⟨.inr, fun h => h.resolve_left fun h => hstar ⟨h.1, h.2.1⟩⟩

/-- Case does not matter. -/
lemma normalizeOrigin_congr {origin' : Text} (hl : toAsciiLowercase origin = toAsciiLowercase origin')
    (wild : Bool) : normalizeOrigin parser origin wild = .ok text ↔
      normalizeOrigin parser origin' wild = .ok text := by
  have hlow : toAsciiLowercase (trim origin) = toAsciiLowercase (trim origin') := by
    rw [← trim_toAsciiLowercase, hl, trim_toAsciiLowercase]
  have hstar : trim origin = ['*'] ↔ trim origin' = ['*'] :=
    ⟨fun h => eq_of_lower_eq (by decide) (by rw [← hlow, h]),
      fun h => eq_of_lower_eq (by decide) (by rw [hlow, h])⟩
  rw [normalizeOrigin_wild wild, normalizeOrigin_wild wild, hstar, normalizeOrigin_eq_ok,
    normalizeOrigin_eq_ok]
  exact or_congr_right ⟨fun ⟨_, hf⟩ => hf.of_lower hlow.symm, fun ⟨_, hf⟩ => hf.of_lower hlow⟩

/-- **Origins.**  An origin is accepted exactly if it is one, once trimmed, unless a fragment stands behind it:
then it is accepted without. -/
theorem normalize_origin_exact (parser : UriParser) (fromJson : Text → Except Text (List Text)) :
    (∀ origin, ((∃ normalized, normalizeOrigin parser origin false = .ok normalized) ↔
        ∃ normalized, IsOrigin parser (trim origin) none normalized) ↔
      ∀ fragment normalized, ¬ IsOrigin parser (trim origin) (some fragment) normalized) ∧
    (∀ origin normalized, IsOrigin parser (trim origin) none normalized →
      normalizeOrigin parser origin false = .ok normalized) ∧
    (∀ origin wildcard normalized, normalizeOrigin parser origin wildcard = .ok normalized ↔
      (wildcard = true ∧ trim origin = ['*'] ∧ normalized = ['*']) ∨
        normalizeOrigin parser origin false = .ok normalized) ∧
    (∀ origin wildcard normalized, normalizeOrigin parser origin wildcard = .ok normalized →
      normalizeOrigin parser normalized wildcard = .ok normalized) ∧
    (∀ origin origin' wildcard normalized, toAsciiLowercase origin = toAsciiLowercase origin' →
      (normalizeOrigin parser origin wildcard = .ok normalized ↔
        normalizeOrigin parser origin' wildcard = .ok normalized)) ∧
    (∀ value entries, parsePublicSiteOriginEntries fromJson value = .ok entries →
      let valid := (entries.filterMap (validOrigin parser)).eraseDups
      let runtime := runtimePublicSiteOriginsWith parser fromJson (some value)
      runtime.1 = valid ∧ valid.Nodup ∧ ((∀ entry ∈ entries, (validOrigin parser entry).isSome) →
        parsePublicSiteOrigins parser fromJson value = .ok valid ∧ runtime.2 = [])) ∧
    ∀ origins scheme host, origins ≠ [] →
      ∃ origin ∈ origins, publicSiteOriginForRequest parser origins scheme host = some origin := by
  refine ⟨fun origin => ?_, fun origin normalized h => normalizeOrigin_eq_ok.mpr ⟨none, h⟩,
    fun origin wild normalized => normalizeOrigin_wild wild, ?_,
    fun origin origin' wild normalized hl => normalizeOrigin_congr hl wild, fun value entries hentries => ?_,
    fun origins st host h => request_mem parser st host h⟩
  · simp only [normalizeOrigin_eq_ok]
    constructor
    · intro h fragment normalized hf
      obtain ⟨normalized', h'⟩ := h.mp ⟨normalized, some fragment, hf⟩
      exact h'.no_fragment hf
    · refine fun h => ⟨?_, fun ⟨normalized, hn⟩ => ⟨normalized, none, hn⟩⟩
      rintro ⟨normalized, _ | fragment, hf⟩
      · exact ⟨normalized, hf⟩
      · exact absurd hf (h fragment normalized)
  · intro origin wild normalized h
    rw [normalizeOrigin_wild wild] at h ⊢
    refine h.imp (fun ⟨hw, _, hn⟩ => ⟨hw, by rw [hn]; decide, hn⟩) fun h => ?_
    obtain ⟨fragment, hf⟩ := normalizeOrigin_eq_ok.mp h
    exact normalizeOrigin_eq_ok.mpr ⟨none, hf.again⟩
  · obtain ⟨hvalue, hagain⟩ := trim_trim_ne hentries
    have hruntime : runtimePublicSiteOriginsWith parser fromJson (some value) =
        collectValid parser [] entries := by
      rw [runtimePublicSiteOriginsWith, hvalue]
      simp only [hagain]
    have hfirst := collectValid_fst parser [] entries
    obtain ⟨hdup, hnodup⟩ := foldl_pushNew (entries.filterMap (validOrigin parser))
    rw [hdup] at hfirst
    refine ⟨by rw [hruntime, hfirst], hnodup, fun h => ?_⟩
    obtain ⟨hok, hnone⟩ := collectOrigins_eq parser [] entries h
    rw [hruntime, parsePublicSiteOrigins, hentries]
    exact ⟨by rw [← hfirst]; exact hok, hnone⟩

/-- The fragment is dropped. -/
theorem normalize_origin_counterexample : ¬ ((∃ normalized, normalizeOrigin webParser
      "https://a#b".toList false = .ok normalized) ↔
    ∃ normalized, IsOrigin webParser (trim "https://a#b".toList) none normalized) := by
  have hf : IsOrigin webParser (trim "https://a#b".toList) (some ['b']) "https://a".toList :=
    ⟨"https".toList, ['a'], [], by decide, by decide, by unfold Bare; decide, .inl rfl, by decide +kernel,
      by decide⟩
  intro h
  obtain ⟨_, h'⟩ := h.mp ⟨_, normalizeOrigin_eq_ok.mpr ⟨_, hf⟩⟩
  exact h'.no_fragment hf

end AsterForge.Utils
