import AsterForge.Library.Checks
import AsterForge.Library.OrderedMap
import AsterForge.Utils.Origin
import Mathlib.Data.List.Find

/-!
# Requests across origins

A request from another origin is judged by the policy of the moment, and the response is given the headers
that say so.  What the product has set in the response stays where the policy does not forbid it.

* `evaluate` — the decision; `applyOriginHeaders`, `applyRejectionHeaders` — what becomes of the response.
* **`cors_grants`** — what is granted, and what the inherited headers and further request lines change in that.
-/

namespace AsterForge.Middleware

open Library List Utils Function Option Except

/-! ## Headers -/

/-- The names of the headers in question, which have no case. -/
inductive HeaderName
  | origin
  | accessControlRequestMethod
  | accessControlRequestHeaders
  | accessControlAllowOrigin
  | accessControlAllowCredentials
  | accessControlAllowMethods
  | accessControlAllowHeaders
  | accessControlExposeHeaders
  | accessControlMaxAge
  | vary
  | other (name : Text)
  deriving DecidableEq

/-- The values of every header, in their order.  What is not ASCII is opaque in a value. -/
abbrev HeaderMap := HeaderName → List Text

namespace HeaderMap

variable (headers : HeaderMap)

def empty : HeaderMap := fun _ => []

def get (name : HeaderName) : Option Text := (headers name).head?

def insert (name : HeaderName) (value : Text) : HeaderMap := update headers name [value]

def remove (name : HeaderName) : HeaderMap := update headers name []

end HeaderMap

inductive CorsMiddlewareErrorKind
  | invalidRequest
  | invalidResponse
  deriving DecidableEq

structure CorsMiddlewareError where
  kind : CorsMiddlewareErrorKind
  message : Text

/-- Visible ASCII, a space or a tab. -/
def isVisible (c : Char) : Bool := c = '\t' || (32 ≤ c.toNat && c.toNat < 127)

/-- A value as text, which it is if it is visible. -/
def toStr (value : Text) (kind : CorsMiddlewareErrorKind) (message : String) :
    Except CorsMiddlewareError Text :=
  if value.all isVisible then .ok value else .error ⟨kind, message.toList⟩

def headerValue (value : Text) (message : String) : Except CorsMiddlewareError Text :=
  if value.all fun c => c = '\t' || (32 ≤ c.toNat && c.toNat ≠ 127) then .ok value
  else .error ⟨.invalidResponse, message.toList⟩

/-- The members of a list that is kept in one value. -/
def listed (value : Text) : List Text := ((value.splitOn ',').map trim).filter (· ≠ [])

def commaSpace : Text := [',', ' ']

/-- A member is kept as it was spelled first. -/
def addMember (values : OrderedMap Text Text) (item : Text) : OrderedMap Text Text :=
  values.orInsert (toAsciiLowercase item) item

/-- The members of all the values of `Vary`. -/
def varyValues (headers : HeaderMap) : Except CorsMiddlewareError (OrderedMap Text Text) := do
  let lines ← (headers .vary).mapM fun line => toStr line .invalidResponse "invalid Vary header"
  return (lines.flatMap listed).foldl addMember .empty

def ensureVary (headers : HeaderMap) (value : Text) : Except CorsMiddlewareError HeaderMap := do
  let values ← varyValues headers
  if (values.lookup ['*']).isSome then return headers
  let joined := commaSpace.intercalate ((addMember values value).entries.map Prod.snd)
  return headers.insert .vary (← headerValue joined "failed to serialize Vary header")

def originName : Text := "Origin".toList

def requestMethodName : Text := "Access-Control-Request-Method".toList

def requestHeadersName : Text := "Access-Control-Request-Headers".toList

/-! ## The policy -/

inductive CorsAllowedOrigins
  | none
  | any
  | list (origins : List Text)
  deriving DecidableEq

inductive CorsRejection
  | originNotAllowed
  | methodNotAllowed
  | headersNotAllowed
  deriving DecidableEq

structure RuntimeCorsPolicy where
  enabled : Bool
  allowedOrigins : CorsAllowedOrigins
  allowCredentials : Bool
  maxAgeSecs : ℕ

namespace RuntimeCorsPolicy

variable (policy : RuntimeCorsPolicy)

def enforcesRequests : Bool := policy.enabled && decide (policy.allowedOrigins ≠ .none)

def allowsOrigin (origin : Text) : Bool :=
  match policy.allowedOrigins with
  | .none => false
  | .any => true
  | .list origins => origins.any (· = origin)

def sendsWildcardOrigin : Bool := decide (policy.allowedOrigins = .any) && !policy.allowCredentials

end RuntimeCorsPolicy

structure CorsSettings where
  allowedMethods : List Text
  allowedHeaders : List Text
  exposedHeaders : List Text
  additionalOriginSchemes : List Text

inductive CorsDecision
  | pass
  | reject (reason : CorsRejection)
  | preflight (response : HeaderMap)
  | actual (origin : Text)

/-- The origin, where none was set. -/
def allowOrigin (headers : HeaderMap) (policy : RuntimeCorsPolicy) (origin : Text) :
    Except CorsMiddlewareError HeaderMap :=
  if headers .accessControlAllowOrigin ≠ [] then .ok headers
  else if policy.sendsWildcardOrigin then .ok (headers.insert .accessControlAllowOrigin ['*'])
  else (headerValue origin "failed to serialize Access-Control-Allow-Origin").map
    (headers.insert .accessControlAllowOrigin)

/-- Credentials are taken back, or granted where nothing was said. -/
def allowCredentials (headers : HeaderMap) (policy : RuntimeCorsPolicy) : HeaderMap :=
  if policy.allowCredentials = false then headers.remove .accessControlAllowCredentials
  else if headers .accessControlAllowCredentials = [] then
    headers.insert .accessControlAllowCredentials "true".toList
  else headers

def applyOriginHeaders (headers : HeaderMap) (policy : RuntimeCorsPolicy) (origin : Text) :
    Except CorsMiddlewareError HeaderMap := do
  let headers ← allowOrigin headers policy origin
  ensureVary (allowCredentials headers policy) originName

def applyPreflightHeaders (headers : HeaderMap) (policy : RuntimeCorsPolicy) (config : CorsSettings) :
    Except CorsMiddlewareError HeaderMap := do
  let headers := headers.insert .accessControlAllowMethods
    (← headerValue (commaSpace.intercalate config.allowedMethods)
      "failed to serialize Access-Control-Allow-Methods")
  let headers := headers.insert .accessControlAllowHeaders
    (← headerValue (commaSpace.intercalate config.allowedHeaders)
      "failed to serialize Access-Control-Allow-Headers")
  let headers := headers.insert .accessControlMaxAge
    (← headerValue (toString policy.maxAgeSecs).toList "failed to serialize Access-Control-Max-Age")
  let headers ← ensureVary headers requestMethodName
  ensureVary headers requestHeadersName

/-- The headers that grant something. -/
def grantHeaders : List HeaderName := [.accessControlAllowOrigin, .accessControlAllowCredentials,
  .accessControlAllowMethods, .accessControlAllowHeaders, .accessControlExposeHeaders, .accessControlMaxAge]

def applyRejectionHeaders (headers : HeaderMap) : Except CorsMiddlewareError HeaderMap :=
  [originName, requestMethodName, requestHeadersName].foldlM ensureVary
    (grantHeaders.foldl HeaderMap.remove headers)

section

-- the parser of origins, and the texts that the library takes for the name of a header
variable (parser : UriParser) (isHeaderName : Text → Bool)

/-- The names of a request's list, one by one. -/
def checkRequested (allowedHeaders : List Text) : List Text → Except CorsMiddlewareError Bool
  | [] => .ok true
  | requested :: rest =>
    if isHeaderName requested = false then
      .error ⟨.invalidRequest, "invalid Access-Control-Request-Headers".toList⟩
    else if requested ∉ allowedHeaders then .ok false
    else checkRequested allowedHeaders rest

def requestedHeadersAreAllowed (headers : HeaderMap) (config : CorsSettings) :
    Except CorsMiddlewareError Bool :=
  match headers.get .accessControlRequestHeaders with
  | none => .ok true
  | some requestHeaders => do
    let requestHeaders ←
      toStr requestHeaders .invalidRequest "invalid Access-Control-Request-Headers"
    let allowedHeaders := config.allowedHeaders.map toAsciiLowercase
    checkRequested isHeaderName allowedHeaders ((listed requestHeaders).map toAsciiLowercase)

/-- The answer to a preflight of an allowed origin. -/
def evaluatePreflight (headers : HeaderMap) (policy : RuntimeCorsPolicy) (config : CorsSettings)
    (origin : Text) : Except CorsMiddlewareError CorsDecision :=
  if (headers.get .accessControlRequestMethod).any (fun value =>
      value.all isVisible && decide (value ∈ config.allowedMethods)) then do
    let allowed ← requestedHeadersAreAllowed isHeaderName headers config
    if allowed then do
      let response ← applyOriginHeaders .empty policy origin
      let response ← applyPreflightHeaders response policy config
      .ok (.preflight response)
    else .ok (.reject .headersNotAllowed)
  else .ok (.reject .methodNotAllowed)

def evaluate (method : Text) (headers : HeaderMap) (requestOrigin : Option Text)
    (policy : RuntimeCorsPolicy) (config : CorsSettings) : Except CorsMiddlewareError CorsDecision :=
  match headers.get .origin with
  | none => .ok .pass
  | some origin =>
    if policy.enforcesRequests then do
      let origin ← toStr origin .invalidRequest "invalid Origin header"
      let origin ← (normalizeOriginWithAdditionalSchemes parser origin false
        config.additionalOriginSchemes).mapError fun error => ⟨.invalidRequest, error.message⟩
      if requestOrigin = some origin then .ok .pass
      else if policy.allowsOrigin origin = false then .ok (.reject .originNotAllowed)
      else if method = "OPTIONS".toList ∧ headers .accessControlRequestMethod ≠ [] then
        evaluatePreflight isHeaderName headers policy config origin
      else .ok (.actual origin)
    else .ok .pass

end

/-! ## Members of `Vary` -/

/-- The members, without case. -/
def varyMembers (headers : HeaderMap) : List Text :=
  (headers .vary).flatMap fun line => (listed line).map toAsciiLowercase

/-- An item of a list as it is written into a value. -/
structure Clean (item : Text) : Prop where
  trimmed : trim item = item
  ne_nil : item ≠ []
  comma : ',' ∉ item
  visible : item.all isVisible = true

/-- Members under their names without case. -/
def Kept (values : OrderedMap Text Text) : Prop :=
  ∀ key item, values.lookup key = some item → key = toAsciiLowercase item ∧ Clean item

def joined (values : OrderedMap Text Text) : Text := commaSpace.intercalate (values.entries.map Prod.snd)

variable {headers after : HeaderMap} {m : OrderedMap Text Text} {line item key name : Text}
  {items names : List Text}

lemma clean_of_listed (hv : line.all isVisible = true) (h : item ∈ listed line) : Clean item := by
  obtain ⟨hm, hne⟩ := mem_filter.mp h
  obtain ⟨piece, hp, rfl⟩ := mem_map.mp hm
  have hsub : ∀ c ∈ trim piece, c ∈ piece := fun c hc => (trim_sublist piece).subset hc
  refine ⟨trim_trim piece, by simpa using hne, fun hc => notMem_of_mem_splitOn hp (hsub _ hc), ?_⟩
  refine all_eq_true.mpr fun c hc => all_eq_true.mp hv c ?_
  rw [← @intercalate_splitOn _ line _ _ ',']
  exact (infix_intercalate hp).subset (hsub c hc)

lemma listed_space (line : Text) : listed (' ' :: line) = listed line := by
  have hsplit : (' ' :: line).splitOn ',' = (line.splitOn ',').modifyHead (' ' :: ·) := by
    rw [splitOn_cons_eq_if_modifyHead]
    rfl
  have htrim (piece : Text) : trim (' ' :: piece) = trim piece := trim_blank_append (b := [' ']) rfl piece
  rw [listed, listed, hsplit]
  cases line.splitOn ',' with
  | nil => rfl
  | cons first rest => simp [htrim]

/-- What is joined is read again. -/
lemma listed_join (h : ∀ item ∈ items, Clean item) : listed (commaSpace.intercalate items) = items := by
  induction items with
  | nil => rfl
  | cons item items ih =>
    obtain ⟨hi, hitems⟩ := forall_mem_cons.mp h
    cases items with
    | nil =>
      have hne : item ≠ [] := hi.ne_nil
      simp [listed, intercalate_singleton, splitOn_eq_singleton hi.comma, hi.trimmed, hne]
    | cons next items =>
      have hsplit : (commaSpace.intercalate (item :: next :: items)).splitOn ',' =
          item :: (' ' :: commaSpace.intercalate (next :: items)).splitOn ',' := by
        rw [intercalate_cons_cons, append_assoc]
        exact splitOn_append_cons_self_of_not_mem hi.comma _
      have hrest := ih hitems
      rw [← listed_space, listed] at hrest
      rw [listed, hsplit, map_cons, hi.trimmed, filter_cons_of_pos (by simpa using hi.ne_nil), hrest]

lemma visible_join (h : ∀ item ∈ items, Clean item) : (commaSpace.intercalate items).all isVisible = true := by
  induction items with
  | nil => rfl
  | cons item items ih =>
    obtain ⟨hi, hitems⟩ := forall_mem_cons.mp h
    cases items with
    | nil => rw [intercalate_singleton, hi.visible]
    | cons next items =>
      rw [intercalate_cons_cons, append_assoc, all_append, all_append, hi.visible, ih hitems]
      rfl

/-! ## The map of the members -/

lemma lookup_addMember : (addMember m item).lookup key =
    (m.lookup key).or (if key = toAsciiLowercase item then some item else none) := by
  rw [addMember, OrderedMap.lookup_orInsert]
  split_ifs <;> rfl

lemma lookup_foldl_addMember : (items.foldl addMember m).lookup key =
    (m.lookup key).or (items.find? (toAsciiLowercase · = key)) := by
  induction items generalizing m with
  | nil => rw [foldl_nil, find?_nil, or_none]
  | cons item items ih =>
    rw [foldl_cons, ih, lookup_addMember, Option.or_assoc, find?_cons]
    by_cases hk : key = toAsciiLowercase item
    · simp [hk]
    · simp [hk, Ne.symm hk]

lemma Kept.addMember (h : Kept m) (hi : Clean item) : Kept (addMember m item) := by
  intro key kept hl
  rw [lookup_addMember, or_eq_some_iff] at hl
  rcases hl with hold | ⟨-, hnew⟩
  · exact h key kept hold
  · obtain ⟨rfl, hsame⟩ := ite_none_right_eq_some.mp hnew
    obtain rfl := some.inj hsame
    exact ⟨rfl, hi⟩

lemma Kept.foldl (h : Kept m) (hi : ∀ item ∈ items, Clean item) : Kept (items.foldl Middleware.addMember m) := by
  induction items generalizing m with
  | nil => exact h
  | cons item items ih =>
    obtain ⟨hitem, hitems⟩ := forall_mem_cons.mp hi
    exact ih (h.addMember hitem) hitems

lemma Kept.clean (h : Kept m) : ∀ item ∈ m.entries.map Prod.snd, Clean item := by
  intro item hi
  obtain ⟨⟨key, kept⟩, he, rfl⟩ := mem_map.mp hi
  exact (h _ _ (OrderedMap.mem_entries.mp he)).2

/-- The members of a map make the map. -/
lemma Kept.read (h : Kept m) : (m.entries.map Prod.snd).foldl Middleware.addMember .empty = m := by
  refine OrderedMap.eq_of_lookup fun key => ?_
  have hempty : (OrderedMap.empty : OrderedMap Text Text).lookup key = none := rfl
  rw [lookup_foldl_addMember, find?_map, hempty, Option.none_or]
  refine congrArg (Option.map Prod.snd) (find?_congr fun ⟨k, v⟩ he => decide_eq_decide.mpr ?_)
  rw [(h _ _ (OrderedMap.mem_entries.mp he)).1]

lemma addMember_of_isSome (h : (m.lookup (toAsciiLowercase item)).isSome) : addMember m item = m := if_pos h

/-! ## Adding to `Vary` -/

lemma varyValues_eq_ok : varyValues headers = .ok m ↔
    (∀ line ∈ headers .vary, line.all isVisible = true) ∧
      ((headers .vary).flatMap listed).foldl addMember .empty = m := by
  have hline : ∀ line line', toStr line .invalidResponse "invalid Vary header" = .ok line' ↔
      line.all isVisible = true ∧ line = line' := by
    intro line line'
    unfold toStr
    split_ifs with hv
    · simp [hv]
    · simp [hv]
  have hlines : ∀ lines result : List Text,
      lines.mapM (fun line => toStr line .invalidResponse "invalid Vary header") = .ok result ↔
        (∀ line ∈ lines, line.all isVisible = true) ∧ lines = result := by
    intro lines
    induction lines with
    | nil => simp
    | cons line lines ih =>
      intro result
      simp only [mapM_cons, bind_eq_ok, hline, ih, except_pure, ok.injEq, forall_mem_cons]
      constructor
      · rintro ⟨_, ⟨hv, rfl⟩, _, ⟨hvs, rfl⟩, rfl⟩
        exact ⟨⟨hv, hvs⟩, rfl⟩
      · rintro ⟨⟨hv, hvs⟩, rfl⟩
        exact ⟨line, ⟨hv, rfl⟩, lines, ⟨hvs, rfl⟩, rfl⟩
  simp [varyValues, bind_eq_ok, hlines]

lemma kept_of_ok (h : varyValues headers = .ok m) : Kept m := by
  obtain ⟨hv, rfl⟩ := varyValues_eq_ok.mp h
  refine Kept.foldl (fun _ _ hl => absurd hl (by simp [OrderedMap.lookup, OrderedMap.empty])) fun item hi => ?_
  obtain ⟨line, hl, hi⟩ := mem_flatMap.mp hi
  exact clean_of_listed (hv line hl) hi

lemma mem_varyMembers (h : varyValues headers = .ok m) :
    key ∈ varyMembers headers ↔ (m.lookup key).isSome = true := by
  obtain ⟨-, rfl⟩ := varyValues_eq_ok.mp h
  have hempty : (OrderedMap.empty : OrderedMap Text Text).lookup key = none := rfl
  rw [lookup_foldl_addMember, hempty, none_or, find?_isSome]
  simp [varyMembers, mem_flatMap]
  grind

/-- The members after an addition are those that were written. -/
lemma varyValues_insert (h : Kept m) : varyValues (headers.insert .vary (joined m)) = .ok m := by
  have hline : headers.insert .vary (joined m) .vary = [joined m] := update_self ..
  rw [varyValues_eq_ok, hline]
  refine ⟨?_, ?_⟩
  · exact forall_mem_singleton.mpr (visible_join h.clean)
  · rw [flatMap_singleton, joined, listed_join h.clean, h.read]

lemma ensureVary_eq (h : varyValues headers = .ok m) (hn : Clean name) :
    ensureVary headers name = .ok (if (m.lookup ['*']).isSome then headers
      else headers.insert .vary (joined (addMember m name))) := by
  have hv : (joined (addMember m name)).all isVisible = true :=
    visible_join ((kept_of_ok h).addMember hn).clean
  have hvalue : headerValue (joined (addMember m name)) "failed to serialize Vary header" =
      .ok (joined (addMember m name)) := by
    refine if_pos (all_eq_true.mpr fun c hc => ?_)
    have hc := all_eq_true.mp hv c hc
    simp only [isVisible, Bool.or_eq_true, Bool.and_eq_true, decide_eq_true_eq] at hc ⊢
    exact hc.imp_right fun hr => ⟨hr.1, hr.2.ne⟩
  rw [ensureVary, h, ok_bind]
  split_ifs
  · rfl
  · change (headerValue (joined (addMember m name)) _ >>= fun value => pure (headers.insert .vary value)) = _
    rw [hvalue]
    rfl

/-- The names are members of `Vary` besides what was, unless that was everything. -/
def VaryAdded (inherited after : HeaderMap) (names : List Text) : Prop :=
  (['*'] ∈ varyMembers inherited → after .vary = inherited .vary) ∧
    (['*'] ∉ varyMembers inherited → ∀ key, key ∈ varyMembers after ↔
      key ∈ varyMembers inherited ∨ key ∈ names.map toAsciiLowercase)

lemma foldl_addMember_of_isSome (h : ∀ name ∈ names, (m.lookup (toAsciiLowercase name)).isSome) :
    names.foldl addMember m = m := by
  induction names with
  | nil => rfl
  | cons name names ih =>
    obtain ⟨hname, hnames⟩ := forall_mem_cons.mp h
    rw [foldl_cons, addMember_of_isSome hname, ih hnames]

lemma foldlM_ensureVary_star (h : varyValues headers = .ok m) (hc : ∀ name ∈ names, Clean name)
    (hs : (m.lookup ['*']).isSome) : names.foldlM ensureVary headers = .ok headers := by
  induction names with
  | nil => rfl
  | cons name names ih =>
    obtain ⟨hname, hnames⟩ := forall_mem_cons.mp hc
    rw [foldlM_cons, ensureVary_eq h hname, if_pos hs, ok_bind, ih hnames]

lemma foldlM_ensureVary (h : varyValues headers = .ok m) (hne : names ≠ [])
    (hc : ∀ name ∈ names, Clean name ∧ toAsciiLowercase name ≠ ['*']) (hs : m.lookup ['*'] = none) :
    names.foldlM ensureVary headers = .ok (headers.insert .vary (joined (names.foldl addMember m))) := by
  induction names generalizing headers m with
  | nil => exact absurd rfl hne
  | cons name names ih =>
    obtain ⟨⟨hname, hstar⟩, hnames⟩ := forall_mem_cons.mp hc
    have hkept := (kept_of_ok h).addMember hname
    have hs' : (addMember m name).lookup ['*'] = none := by
      rw [lookup_addMember, hs, if_neg hstar.symm, none_or]
    rw [foldlM_cons, ensureVary_eq h hname, hs, isSome_none, if_neg Bool.false_ne_true, ok_bind, foldl_cons]
    cases names with
    | nil => rfl
    | cons next names =>
      rw [ih (varyValues_insert hkept) (cons_ne_nil _ _) hnames hs', HeaderMap.insert, HeaderMap.insert,
        update_idem]
      rfl

/-- **Adding to `Vary`** changes nothing else, and nothing once more. -/
lemma vary_spec (hne : names ≠ []) (hc : ∀ name ∈ names, Clean name ∧ toAsciiLowercase name ≠ ['*'])
    (h : names.foldlM ensureVary headers = .ok after) :
    (∀ other, other ≠ .vary → after other = headers other) ∧ VaryAdded headers after names ∧
      names.foldlM ensureVary after = .ok after := by
  obtain ⟨m, hm⟩ : ∃ m, varyValues headers = .ok m := by
    obtain ⟨name, names, rfl⟩ := exists_cons_of_ne_nil hne
    rw [foldlM_cons, ensureVary] at h
    cases hv : varyValues headers with
    | ok m => exact ⟨m, rfl⟩
    | error error => simp [hv] at h
  have hmem (key : Text) : key ∈ varyMembers headers ↔ (m.lookup key).isSome = true := mem_varyMembers hm
  by_cases hs : (m.lookup ['*']).isSome
  · rw [foldlM_ensureVary_star hm (fun name hn => (hc name hn).1) hs] at h
    obtain rfl := ok.inj h
    exact ⟨fun _ _ => rfl, ⟨fun _ => rfl, fun hn => absurd ((hmem _).mpr hs) hn⟩,
      foldlM_ensureVary_star hm (fun name hn => (hc name hn).1) hs⟩
  · have hnone := not_isSome_iff_eq_none.mp hs
    rw [foldlM_ensureVary hm hne hc hnone] at h
    obtain rfl := ok.inj h
    have hkept := (kept_of_ok hm).foldl fun name hn => (hc name hn).1
    have hafter := @varyValues_insert headers _ hkept
    have hlook (key : Text) : ((names.foldl addMember m).lookup key).isSome ↔
        (m.lookup key).isSome ∨ key ∈ names.map toAsciiLowercase := by
      rw [lookup_foldl_addMember, isSome_or, Bool.or_eq_true, find?_isSome]
      simp
    refine ⟨fun other ho => update_of_ne ho _ _, ⟨fun hn => absurd ((hmem _).mp hn) hs, fun _ key => ?_⟩, ?_⟩
    · rw [mem_varyMembers hafter, hlook, hmem]
    · have hstar : (names.foldl addMember m).lookup ['*'] = none := by
        rw [← not_isSome_iff_eq_none, hlook]
        rintro (h | h)
        · exact hs h
        · obtain ⟨name, hn, hl⟩ := mem_map.mp h
          exact (hc name hn).2 hl
      have hsame : names.foldl addMember (names.foldl addMember m) = names.foldl addMember m :=
        foldl_addMember_of_isSome fun name hn => (hlook _).mpr (.inr (mem_map_of_mem hn))
      rw [foldlM_ensureVary hafter hne hc hstar, hsame, HeaderMap.insert, HeaderMap.insert, update_idem]

/-! ## What is granted -/

lemma names_clean : ∀ name ∈ [originName, requestMethodName, requestHeadersName],
    Clean name ∧ toAsciiLowercase name ≠ ['*'] := by
  have hdec : ∀ name ∈ [originName, requestMethodName, requestHeadersName],
      (trim name = name ∧ name ≠ [] ∧ ',' ∉ name ∧ name.all isVisible = true) ∧
        toAsciiLowercase name ≠ ['*'] := by decide
  exact fun name hn => ⟨⟨(hdec name hn).1.1, (hdec name hn).1.2.1, (hdec name hn).1.2.2.1,
    (hdec name hn).1.2.2.2⟩, (hdec name hn).2⟩

/-- What was inherited fits the origin: it names it, or every origin and no credentials. -/
def InheritedFits (inherited : HeaderMap) (policy : RuntimeCorsPolicy) (origin : Text) : Prop :=
  ∀ value ∈ inherited .accessControlAllowOrigin, value = origin ∨
    value = ['*'] ∧ ¬ (policy.allowCredentials = true ∧
      (inherited .accessControlAllowCredentials = [] ∨
        "true".toList ∈ inherited .accessControlAllowCredentials))

/-- The names of a request line are allowed. -/
def NamesAllowed (config : CorsSettings) (line : Text) : Prop :=
  ∀ name ∈ listed line, toAsciiLowercase name ∈ config.allowedHeaders.map toAsciiLowercase

variable {policy : RuntimeCorsPolicy} {config : CorsSettings} {origin : Text}

lemma allowOrigin_spec (h : allowOrigin headers policy origin = .ok after) : after .accessControlAllowOrigin =
      (if headers .accessControlAllowOrigin ≠ [] then headers .accessControlAllowOrigin
      else [if policy.sendsWildcardOrigin then ['*'] else origin]) ∧
    ∀ other, other ≠ .accessControlAllowOrigin → after other = headers other := by
  unfold allowOrigin at h
  split_ifs at h with hset hwild
  · obtain rfl := ok.inj h
    exact ⟨(if_pos hset).symm, fun _ _ => rfl⟩
  · obtain rfl := ok.inj h
    rw [if_neg hset, if_pos hwild]
    exact ⟨update_self .., fun other ho => update_of_ne ho ..⟩
  · unfold headerValue at h
    split_ifs at h with hv
    · obtain rfl := ok.inj h
      rw [if_neg hset, if_neg hwild]
      exact ⟨update_self .., fun other ho => update_of_ne ho ..⟩
    · cases h

lemma allowCredentials_spec (headers : HeaderMap) (policy : RuntimeCorsPolicy) :
    allowCredentials headers policy .accessControlAllowCredentials =
        (if policy.allowCredentials = false then []
        else if headers .accessControlAllowCredentials = [] then ["true".toList]
        else headers .accessControlAllowCredentials) ∧
      ∀ other, other ≠ .accessControlAllowCredentials → allowCredentials headers policy other = headers other := by
  unfold allowCredentials
  split_ifs
  · exact ⟨update_self .., fun other ho => update_of_ne ho ..⟩
  · exact ⟨update_self .., fun other ho => update_of_ne ho ..⟩
  · exact ⟨rfl, fun _ _ => rfl⟩

lemma varyMembers_congr (h : after .vary = headers .vary) : varyMembers after = varyMembers headers := by
  rw [varyMembers, varyMembers, h]

/-- **The headers of a grant**, which are the same once more. -/
lemma applyOriginHeaders_spec (h : applyOriginHeaders headers policy origin = .ok after) :
    after .accessControlAllowOrigin =
        (if headers .accessControlAllowOrigin ≠ [] then headers .accessControlAllowOrigin
        else [if policy.sendsWildcardOrigin then ['*'] else origin]) ∧
      after .accessControlAllowCredentials = (if policy.allowCredentials = false then []
        else if headers .accessControlAllowCredentials = [] then ["true".toList]
        else headers .accessControlAllowCredentials) ∧
      VaryAdded headers after [originName] ∧ applyOriginHeaders after policy origin = .ok after := by
  obtain ⟨first, hfirst, hvary⟩ := bind_eq_ok.mp h
  obtain ⟨hallow, hsame⟩ := allowOrigin_spec hfirst
  obtain ⟨hcred, hcsame⟩ := allowCredentials_spec first policy
  have hfold : [originName].foldlM ensureVary (allowCredentials first policy) = .ok after := by
    rw [foldlM_cons, hvary]
    rfl
  obtain ⟨hframe, hadded, hagain⟩ := vary_spec (cons_ne_nil _ _)
    (fun name hn => names_clean name (by simp_all)) hfold
  have horigin : after .accessControlAllowOrigin = first .accessControlAllowOrigin := by
    rw [hframe _ (by decide), hcsame _ (by decide)]
  have hcreds : after .accessControlAllowCredentials = (if policy.allowCredentials = false then []
        else if headers .accessControlAllowCredentials = [] then ["true".toList]
        else headers .accessControlAllowCredentials) := by
    rw [hframe _ (by decide), hcred, hsame _ (by decide)]
  have hmembers : (allowCredentials first policy) .vary = headers .vary := by
    rw [hcsame _ (by decide), hsame _ (by decide)]
  refine ⟨horigin.trans hallow, hcreds, ?_, ?_⟩
  · rwa [VaryAdded, varyMembers_congr hmembers, hmembers, ← VaryAdded] at hadded
  · have hset : after .accessControlAllowOrigin ≠ [] := by
      rw [horigin, hallow]
      split_ifs with hset
      · exact hset
      all_goals exact cons_ne_nil _ _
    have hkeep : allowCredentials after policy = after := by
      unfold allowCredentials
      split_ifs with hno hnone
      · rw [if_pos hno] at hcreds
        exact update_eq_self_iff.mpr hcreds.symm
      · rw [if_neg hno] at hcreds
        split_ifs at hcreds with hwas
        · simp [hcreds] at hnone
        · exact absurd (hcreds.symm.trans hnone) hwas
      · rfl
    rw [foldlM_cons] at hagain
    obtain ⟨next, hnext, hdone⟩ := bind_eq_ok.mp hagain
    obtain rfl := ok.inj hdone
    rw [applyOriginHeaders, allowOrigin, if_pos hset, ok_bind, hkeep, hnext]

variable {parser : UriParser}

lemma origin_ne_star {raw : Text} {schemes : List Text}
    (h : normalizeOriginWithAdditionalSchemes parser raw false schemes = .ok origin) : origin ≠ ['*'] := by
  have hcolon (s a : Text) : s ++ (schemeEnd ++ a) ≠ ['*'] := by
    intro he
    have hm : ':' ∈ s ++ (schemeEnd ++ a) := by simp [schemeEnd_eq]
    simp [he] at hm
  unfold normalizeOriginWithAdditionalSchemes at h
  simp only [Bool.false_eq_true, false_and, if_false] at h
  split_ifs at h
  split at h
  · cases h
  split at h
  · cases h
  split_ifs at h
  all_goals
    split at h
    · cases h
    split_ifs at h
    all_goals
      rw [← ok.inj h]
      exact hcolon _ _

variable {isHeaderName : Text → Bool}

lemma checkRequested_eq_ok {allowed : List Text} :
    checkRequested isHeaderName allowed names = .ok true → ∀ name ∈ names, name ∈ allowed := by
  induction names with
  | nil => exact fun _ _ hn => absurd hn not_mem_nil
  | cons name names ih =>
    intro h
    rw [checkRequested] at h
    split_ifs at h with hname hin
    · exact forall_mem_cons.mpr ⟨hin, ih h⟩
    · cases h

lemma foldl_remove (l : List HeaderName) (headers : HeaderMap) (name : HeaderName) :
    l.foldl HeaderMap.remove headers name = if name ∈ l then [] else headers name := by
  induction l generalizing headers with
  | nil => rfl
  | cons first l ih =>
    rw [foldl_cons, ih, HeaderMap.remove]
    by_cases hl : name ∈ l
    · simp [hl]
    · by_cases hf : name = first
      · subst hf
        simp
      · simp [hl, hf]

lemma applyRejectionHeaders_spec (h : applyRejectionHeaders headers = .ok after) :
    (∀ name ∈ grantHeaders, after name = []) ∧
      VaryAdded headers after [originName, requestMethodName, requestHeadersName] ∧
      applyRejectionHeaders after = .ok after := by
  obtain ⟨hframe, hadded, hagain⟩ := vary_spec (cons_ne_nil _ _) names_clean h
  have hgone : ∀ name ∈ grantHeaders, after name = [] := by
    intro name hn
    have hvary : ∀ name ∈ grantHeaders, name ≠ .vary := by decide
    rw [hframe name (hvary name hn), foldl_remove, if_pos hn]
  have hmembers : grantHeaders.foldl HeaderMap.remove headers .vary = headers .vary := by
    rw [foldl_remove]
    exact if_neg (by decide)
  have hkeep : grantHeaders.foldl HeaderMap.remove after = after := by
    funext name
    rw [foldl_remove]
    split_ifs with hn
    · exact (hgone name hn).symm
    · rfl
  refine ⟨hgone, ?_, ?_⟩
  · rwa [VaryAdded, varyMembers_congr hmembers, hmembers, ← VaryAdded] at hadded
  · rw [applyRejectionHeaders, hkeep, hagain]

lemma applyPreflightHeaders_spec (h : applyPreflightHeaders headers policy config = .ok after) :
    VaryAdded headers after [requestMethodName, requestHeadersName] ∧
      applyPreflightHeaders after policy config = .ok after := by
  simp only [applyPreflightHeaders, bind_eq_ok] at h
  obtain ⟨methods, hmethods, allowed, hallowed, age, hage, middle, hmiddle, hlast⟩ := h
  have hfold : [requestMethodName, requestHeadersName].foldlM ensureVary
      (((headers.insert .accessControlAllowMethods methods).insert .accessControlAllowHeaders allowed).insert
        .accessControlMaxAge age) = .ok after := by
    rw [foldlM_cons, hmiddle, ok_bind, foldlM_cons, hlast]
    rfl
  obtain ⟨hframe, hadded, hagain⟩ := vary_spec (cons_ne_nil _ _)
    (fun name hn => names_clean name (mem_cons_of_mem _ hn)) hfold
  have hset : after.insert .accessControlAllowMethods methods = after ∧
      after.insert .accessControlAllowHeaders allowed = after ∧
      after.insert .accessControlMaxAge age = after := by
    refine ⟨?_, ?_, ?_⟩
    all_goals
      refine update_eq_self_iff.mpr ?_
      rw [hframe _ (by decide)]
      rfl
  refine ⟨hadded, ?_⟩
  simp only [foldlM_cons, foldlM_nil, bind_eq_ok, except_pure, ok.injEq] at hagain
  obtain ⟨next, hnext, last, hdone, rfl⟩ := hagain
  simp only [applyPreflightHeaders, hmethods, hallowed, hage, ok_bind, hset, hnext, hdone]

lemma requested_ok {line : Text} (h : requestedHeadersAreAllowed isHeaderName headers config = .ok true)
    (hl : headers.get .accessControlRequestHeaders = some line) : NamesAllowed config line := by
  simp only [requestedHeadersAreAllowed, hl, toStr] at h
  split_ifs at h with hv
  · intro name hn
    exact checkRequested_eq_ok h _ (mem_map_of_mem hn)
  · cases h

/-- What a preflight is granted for. -/
lemma evaluate_preflight {method : Text} {requestOrigin : Option Text}
    (h : evaluate parser isHeaderName method headers requestOrigin policy config = .ok (.preflight after)) :
    (∃ raw ∈ headers.get .origin, ∃ origin, normalizeOriginWithAdditionalSchemes parser raw false
        config.additionalOriginSchemes = .ok origin ∧ policy.allowsOrigin origin = true) ∧
      (∃ requested ∈ headers.get .accessControlRequestMethod, requested ∈ config.allowedMethods) ∧
      requestedHeadersAreAllowed isHeaderName headers config = .ok true := by
  unfold evaluate at h
  cases ho : headers.get .origin with
  | none => simp [ho] at h
  | some raw =>
    have hvisible {text : Text} (ht : toStr raw .invalidRequest "invalid Origin header" = .ok text) :
        raw = text := by
      unfold toStr at ht
      split_ifs at ht
      exact ok.inj ht
    rw [ho] at h
    by_cases henforce : policy.enforcesRequests = true
    · simp only [henforce, if_true, bind_eq_ok, except_mapError_eq_ok] at h
      obtain ⟨text, htext, origin, hn, h⟩ := h
      obtain rfl := hvisible htext
      split_ifs at h with hsame hdeny hoptions
      · cases h
      · cases h
      · unfold evaluatePreflight at h
        split_ifs at h with hmethod
        · obtain ⟨requested, hr, hm⟩ := (any_eq_true _ _).mp hmethod
          obtain ⟨allowed, hallowed, hgrant⟩ := bind_eq_ok.mp h
          rw [Bool.and_eq_true, decide_eq_true_eq] at hm
          cases allowed with
          | false => cases hgrant
          | true => exact ⟨⟨raw, rfl, origin, hn, eq_true_of_ne_false hdeny⟩, ⟨requested, hr, hm.2⟩, hallowed⟩
        · cases h
      · cases h
    · simp [henforce] at h

/-- **Grants across origins.**  A rejection grants nothing.  What a response grants fits the request exactly if
what it inherited did.  A preflight is granted to allowed origins, methods and names, as far as the names stand
in the first line of the request. -/
theorem cors_grants (parser : UriParser) (isHeaderName : Text → Bool) :
    (∀ inherited after, applyRejectionHeaders inherited = .ok after →
      (∀ name ∈ grantHeaders, after name = []) ∧
        VaryAdded inherited after [originName, requestMethodName, requestHeadersName] ∧
        applyRejectionHeaders after = .ok after) ∧
    (∀ raw schemes origin inherited policy after,
      normalizeOriginWithAdditionalSchemes parser raw false schemes = .ok origin →
      policy.allowsOrigin origin = true → applyOriginHeaders inherited policy origin = .ok after →
        ((¬ (['*'] ∈ after .accessControlAllowOrigin ∧
              "true".toList ∈ after .accessControlAllowCredentials) ∧
            ∀ value ∈ after .accessControlAllowOrigin, value = ['*'] ∨ value = origin) ↔
          InheritedFits inherited policy origin) ∧
        VaryAdded inherited after [originName] ∧ applyOriginHeaders after policy origin = .ok after) ∧
    (∀ inherited policy config after, applyPreflightHeaders inherited policy config = .ok after →
      VaryAdded inherited after [requestMethodName, requestHeadersName] ∧
        applyPreflightHeaders after policy config = .ok after) ∧
    ∀ method headers requestOrigin policy config response,
      evaluate parser isHeaderName method headers requestOrigin policy config = .ok (.preflight response) →
        (∃ raw ∈ headers.get .origin, ∃ origin, normalizeOriginWithAdditionalSchemes parser raw false
          config.additionalOriginSchemes = .ok origin ∧ policy.allowsOrigin origin = true) ∧
        (∃ requested ∈ headers.get .accessControlRequestMethod, requested ∈ config.allowedMethods) ∧
        ((∀ line ∈ headers .accessControlRequestHeaders, NamesAllowed config line) ↔
          ∀ line ∈ (headers .accessControlRequestHeaders).tail, NamesAllowed config line) := by
  refine ⟨fun inherited after h => applyRejectionHeaders_spec h,
    fun raw schemes origin inherited policy after hn _ h => ?_,
    fun inherited policy config after h => applyPreflightHeaders_spec h,
    fun method headers requestOrigin policy config response h => ?_⟩
  · obtain ⟨hallow, hcred, hadded, hagain⟩ := applyOriginHeaders_spec h
    have hstar := origin_ne_star hn
    refine ⟨?_, hadded, hagain⟩
    have htrue : "true".toList ∈ after .accessControlAllowCredentials ↔ policy.allowCredentials = true ∧
        (inherited .accessControlAllowCredentials = [] ∨
          "true".toList ∈ inherited .accessControlAllowCredentials) := by
      rw [hcred]
      split_ifs with hno hnone <;> simp_all
    rw [htrue, hallow, InheritedFits]
    by_cases hset : inherited .accessControlAllowOrigin = []
    · refine iff_of_true ?_ fun value hv => absurd hv (by simp [hset])
      rw [if_neg (not_not.mpr hset)]
      by_cases hwild : policy.sendsWildcardOrigin = true
      · have hno : policy.allowCredentials = false := by
          simpa using (Bool.and_eq_true_iff.mp hwild).2
        simp [hwild, hno]
      · simp [hwild, hstar.symm]
    · rw [if_pos hset]
      constructor
      · rintro ⟨hsafe, hnamed⟩ value hv
        rcases hnamed value hv with rfl | rfl
        · exact .inr ⟨rfl, fun hc => hsafe ⟨hv, hc⟩⟩
        · exact .inl rfl
      · intro hfits
        refine ⟨fun ⟨hv, hc⟩ => ?_, fun value hv => (hfits value hv).symm.imp_left And.left⟩
        rcases hfits _ hv with he | ⟨-, hsafe⟩
        · exact hstar he.symm
        · exact hsafe hc
  · obtain ⟨horigin, hmethod, hnames⟩ := evaluate_preflight h
    refine ⟨horigin, hmethod, fun hall line hl => hall line (mem_of_mem_tail hl), fun htail => ?_⟩
    cases hlines : headers .accessControlRequestHeaders with
    | nil => exact fun line hl => absurd hl not_mem_nil
    | cons first rest =>
      rw [hlines] at htail
      exact forall_mem_cons.mpr ⟨requested_ok hnames (by rw [HeaderMap.get, hlines, head?_cons]), htail⟩

/-- A response that was open to every origin, and is given credentials. -/
theorem cors_grants_counterexample :
    let inherited : HeaderMap := HeaderMap.empty.insert .accessControlAllowOrigin ['*']
    let policy : RuntimeCorsPolicy := ⟨true, .list ["https://a".toList], true, 0⟩
    policy.allowsOrigin "https://a".toList = true ∧
      ∃ after, applyOriginHeaders inherited policy "https://a".toList = .ok after ∧
        ['*'] ∈ after .accessControlAllowOrigin ∧ "true".toList ∈ after .accessControlAllowCredentials := by
  intro inherited policy
  refine ⟨by decide, _, rfl, ?_, ?_⟩ <;> decide

end AsterForge.Middleware
