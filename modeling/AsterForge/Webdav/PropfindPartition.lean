import AsterForge.Webdav.PropertySufficiency
import Mathlib.Data.List.Flatten

/-!
# Names in the answer to a PROPFIND request

The properties of one resource come from its catalog, from what is stored of it, and from the list of a client.
Each of these is gone through on its own, so a name that two of them have may occur twice in an answer.

* `DavRequestedProperty.expandedName`, `propertyIsAvailable` — the name of a property, and whether it has a value.
* `GivesElement`, `givesElement_resolveRequestedProperty` — an element has the name that was asked for.
* `requestedProperties_names`, `allProperties_names`, `propertyNames_names` — the names in the three answers.
* **`propfind_partition_iff`** — the requests whose answers have each name once.
-/

namespace AsterForge.Webdav

open Library Xml Stateful DavRequestedProperty DavExtensionPackage List

/-! ## Names -/

/-- A namespace together with a local name. -/
abbrev ExpandedName : Type := Option Text × Text

def DavRequestedProperty.expandedName (requested : DavRequestedProperty) : ExpandedName :=
  (requested.namespaceUri, requested.name)

def DavXmlElement.expandedName (element : DavXmlElement) : ExpandedName :=
  (element.head.namespaceUri, element.head.name)

/-- As in XML, neither a name nor a prefix has a colon in it. -/
structure DavRequestedProperty.IsLocal (requested : DavRequestedProperty) : Prop where
  name : ':' ∉ requested.name
  nsPrefix : ∀ nsPrefix ∈ requested.nsPrefix, ':' ∉ nsPrefix

def DavProp.expandedName (property : DavProp) : ExpandedName := (deadPropertyName property).expandedName

lemma splitQualifiedName_prefixed {np : Text} (n : Text) (h : ':' ∉ np) :
    splitQualifiedName (np ++ ":".toList ++ n) = (some np, n) := by
  have hsplit : splitOnce ':' (np ++ ":".toList ++ n) = some (np, n) :=
    splitOnce_eq_some.mpr ⟨append_assoc _ _ _, h⟩
  rw [splitQualifiedName, hsplit]

lemma splitQualifiedName_local {n : Text} (h : ':' ∉ n) : splitQualifiedName n = (none, n) := by
  unfold splitQualifiedName
  cases hsplit : splitOnce ':' n with
  | none => rfl
  | some p =>
    obtain ⟨hn, -⟩ := splitOnce_eq_some.mp hsplit
    exact absurd (by rw [hn]; simp) h

variable {requested : DavRequestedProperty}

lemma expandedName_propertyElement (h : requested.IsLocal) (c : Option DavXmlNode) :
    (propertyElement requested c).expandedName = requested.expandedName := by
  obtain ⟨n, nu, np⟩ := requested
  have hprefix : ':' ∉ (np.filter fun np =>
      np ≠ "xml".toList ∧ np ≠ "xmlns".toList).getD (defaultPropertyPrefix nu) := by
    cases hfilter : np.filter fun np => np ≠ "xml".toList ∧ np ≠ "xmlns".toList with
    | some v => exact h.nsPrefix v (Option.eq_some_of_filter_eq_some hfilter)
    | none =>
      unfold defaultPropertyPrefix
      split
      · split <;> decide
      · decide
  cases nu with
  | none =>
    have hsplit := splitQualifiedName_local h.name
    cases c <;>
      simp [propertyElement, DavXmlElement.new, DavXmlElement.push, DavXmlElement.expandedName,
        expandedName, hsplit]
  | some uri =>
    have hsplit := splitQualifiedName_prefixed n hprefix
    unfold propertyElement
    simp only [Option.isSome_some, if_true, DavXmlElement.new, hsplit]
    cases c <;> dsimp only <;> split <;> rfl

/-! ## Values -/

section

variable (host : PropertyHost) (snapshot : DavCapabilitySnapshot) (values : DavLivePropertyValues)

def principalIsValid (host : PropertyHost) : DavCurrentPrincipal → Bool
  | .href href => uriMatchesPolicy host href .httpAbsolute
  | .unauthenticated => true

/-- Whether a property that is resolved as a live one is found. -/
def propertyIsAvailable (property : DavLiveProperty) : Bool :=
  match property with
  | .getLastModified => (values.metadata.lastModified.bind host.formatHttpDate).isSome
  | .lockDiscovery | .supportedLock | .supportedMethodSet | .supportedLivePropertySet | .supportedReportSet
  | .supportedQueryGrammarSet => true
  | .syncToken => values.syncToken.any fun value => uriMatchesPolicy host value .absolute
  | .currentUserPrincipal => values.currentPrincipal.any (principalIsValid host)
  | .addMember => values.addMemberHref.any fun value => uriMatchesPolicy host value .httpOrAbsolutePath
  | property => propertyIsDefined snapshot values property

/-- Whether a property that a client names is found. -/
def propertyIsProvided (requested : DavRequestedProperty) : Bool :=
  match resolvedProperty snapshot requested with
  | some property => propertyIsAvailable host snapshot values property
  | none => (findDeadProperty values.deadProperties requested).isSome

end

/-- What comes of a property that is found, or not: its element has the name that was asked for, and if there is
enough room it is not missed. -/
def GivesElement (requested : DavRequestedProperty) (available : Bool) :
    Except DavLivePropertyError (Option DavXmlElement) → Prop
  | .ok found => found.isSome = available ∧ ∀ element ∈ found, element.expandedName = requested.expandedName
  | .error error => error = .limitExceeded ∨ available = false

variable {host : PropertyHost} {snapshot : DavCapabilitySnapshot} {values : DavLivePropertyValues}

variable {α : Type}

lemma givesElement_map (v : Option α) {r : α → DavXmlElement}
    (h : ∀ a, (r a).expandedName = requested.expandedName) : GivesElement requested v.isSome (.ok (v.map r)) := by
  cases v with
  | none => exact ⟨rfl, by simp⟩
  | some a =>
    refine ⟨rfl, ?_⟩
    rintro e ⟨⟩
    exact h a

lemma givesElement_some {e : DavXmlElement} (h : e.expandedName = requested.expandedName) :
    GivesElement requested true (.ok (some e)) :=
  givesElement_map (some ()) fun _ => h

/-- A child for each item leaves the name of an element as it is. -/
lemma expandedName_foldl {c : DavXmlElement → α → DavXmlNode} (i : List α) (r : DavXmlElement) :
    (i.foldl (fun r item => r.push (c r item)) r).expandedName = r.expandedName := by
  induction i generalizing r with
  | nil => rfl
  | cons item i ih => exact ih _

lemma requiredUri_some {v : Text} {p : DavLiveProperty} {pl : UriValidationPolicy} :
    requiredUri host (some v) p pl =
      if uriMatchesPolicy host v pl then .ok v else .error (.invalidRepresentation p) := by
  cases hvalid : uriMatchesPolicy host v pl <;> simp [requiredUri, refuse, hvalid]

lemma givesElement_requiredUri {v : Option Text} {pr : DavLiveProperty} {p : UriValidationPolicy}
    {r : Text → DavXmlElement} (h : ∀ t, (r t).expandedName = requested.expandedName) :
    GivesElement requested (v.any fun v => uriMatchesPolicy host v p)
      ((requiredUri host v pr p >>= fun t => pure (r t)).map some) := by
  cases v with
  | none => exact .inr rfl
  | some v =>
    rw [requiredUri_some, Option.any_some]
    cases uriMatchesPolicy host v p with
    | false => exact .inr rfl
    | true => exact givesElement_some (h v)

lemma givesElement_currentPrincipalElement (h : requested.IsLocal) (v : Option DavCurrentPrincipal) :
    GivesElement requested (v.any (principalIsValid host))
      ((currentPrincipalElement host v requested).map some) := by
  cases v with
  | none => exact .inr rfl
  | some p =>
    cases p with
    | unauthenticated => exact givesElement_some (expandedName_propertyElement h _)
    | href hr =>
      rw [Option.any_some, principalIsValid, currentPrincipalElement, okOr_some, ok_bind, principalElement,
        requiredUri_some]
      cases uriMatchesPolicy host hr .httpAbsolute with
      | false => exact .inr rfl
      | true => exact givesElement_some (expandedName_propertyElement h _)

/-- **A live property** comes to an element under the name that was asked for, if it is available. -/
lemma givesElement_livePropertyElement (h : requested.IsLocal) (p : DavLiveProperty) :
    GivesElement requested (propertyIsAvailable host snapshot values p)
      (livePropertyElement host snapshot values p requested) := by
  cases p with
  | getLastModified =>
    cases hvalue : values.metadata.lastModified with
    | none => simp [propertyIsAvailable, livePropertyElement, hvalue, GivesElement]
    | some v =>
      cases htext : host.formatHttpDate v with
      | none => simp [propertyIsAvailable, livePropertyElement, hvalue, htext, GivesElement]
      | some t =>
        simp only [propertyIsAvailable, livePropertyElement, hvalue, htext, Option.bind_some, okOr_some]
        exact givesElement_some (expandedName_propertyElement h _)
  | resourceType =>
    simp only [propertyIsAvailable, propertyIsDefined, livePropertyElement, resourceTypeElement]
    cases snapshot.declaration.resource with
    | unmapped => exact ⟨rfl, by simp⟩
    | _ => exact givesElement_some (expandedName_propertyElement h _)
  | supportedLock | lockDiscovery => exact givesElement_some rfl
  | supportedMethodSet | supportedLivePropertySet | supportedReportSet | supportedQueryGrammarSet =>
    exact givesElement_some ((expandedName_foldl _ _).trans (expandedName_propertyElement h none))
  | quotaUsedBytes =>
    simp only [propertyIsAvailable, propertyIsDefined, livePropertyElement]
    cases values.quota with
    | some q => exact givesElement_some (expandedName_propertyElement h _)
    | none =>
      dsimp only
      split
      · exact .inr rfl
      · exact ⟨rfl, by simp⟩
  | syncToken | addMember => exact givesElement_requiredUri fun _ => expandedName_propertyElement h _
  | currentUserPrincipal => exact givesElement_currentPrincipalElement h _
  | creationDate | displayName | getContentLanguage | getContentLength | getContentType | getEtag
  | quotaAvailableBytes => exact givesElement_map _ fun _ => expandedName_propertyElement h _
  | _ => exact givesElement_map (values.extensionValue _) fun _ => rfl

lemma givesElement_of_refused {a : Bool} {c : Prop} [Decidable c]
    {next : Except DavLivePropertyError (Option DavXmlElement)} (h : GivesElement requested a next) :
    GivesElement requested a (refuse c .limitExceeded >>= fun _ => next) := by
  by_cases hcond : c
  · rw [refuse_of hcond]
    exact .inl rfl
  · rw [refuse_of_not hcond]
    exact h

lemma consumes_chargePropertyElement (h : PropertyHost) (e : DavXmlElement) :
    Consumes PropertyBudget.bytes .limitExceeded (chargePropertyElement h e) := by
  refine Consumes.forM ?_ _
  intro e b
  unfold takeBytes
  split
  · exact .inr ⟨(), _, rfl, Nat.sub_le _ _⟩
  · exact .inl ⟨b, rfl⟩

variable (host snapshot values) in
lemma givesElement_resolveLiveProperty (h : requested.IsLocal) (p : DavLiveProperty) (r : ℕ) :
    GivesElement requested (propertyIsAvailable host snapshot values p)
      (resolveLiveProperty host snapshot values p requested r) := by
  have helem : GivesElement requested (propertyIsAvailable host snapshot values p)
      (livePropertyElement host snapshot values p requested) := givesElement_livePropertyElement h p
  have hcheck : checkPropertySourceSize host values p r = .ok () ∨
      checkPropertySourceSize host values p r = .error .limitExceeded := by
    unfold checkPropertySourceSize
    by_cases hlarge : r < propertySourceBytes values p
    · exact .inr (by rw [refuse_of hlarge]; rfl)
    · rw [refuse_of_not hlarge, ok_bind]
      cases values.extensionValue p with
      | none => exact .inl rfl
      | some e =>
        rcases consumes_chargePropertyElement host e ⟨r, 2 ^ 64 - 1⟩ with
          ⟨_, hrun⟩ | ⟨_, _, hrun, -⟩
        · exact .inr (congrArg Prod.fst hrun)
        · exact .inl (congrArg Prod.fst hrun)
  rcases hcheck with hok | hl
  · rwa [resolveLiveProperty, hok, ok_bind]
  · rw [resolveLiveProperty, hl]
    exact .inl rfl

lemma findDeadProperty_isSome {d : List DavProp} : (findDeadProperty d requested).isSome = true ↔
    ∃ p ∈ d, p.expandedName = requested.expandedName := by
  simp only [findDeadProperty, find?_isSome, decide_eq_true_eq, DavProp.expandedName, deadPropertyName,
    expandedName, Prod.mk.injEq]
  exact exists_congr fun p => and_congr_right fun _ => and_comm

lemma expandedName_davDeadPropertyElement {sn : DavRequestedProperty}
    {rn : Option DavRequestedProperty} (h : (rn.getD sn).IsLocal) (sx : Option (List UInt8)) :
    (davDeadPropertyElement host sn rn sx).expandedName = (rn.getD sn).expandedName := by
  refine Eq.trans ?_ (expandedName_propertyElement h none)
  unfold davDeadPropertyElement
  split
  · rfl
  · split
    · split <;> rfl
    · rfl

variable (host snapshot values) in
/-- **A property that is asked for** comes to an element under its name, if it is provided. -/
theorem givesElement_resolveRequestedProperty (h : requested.IsLocal) (r : ℕ) :
    GivesElement requested (propertyIsProvided host snapshot values requested)
      (resolveRequestedProperty host snapshot values requested r) := by
  refine givesElement_of_refused ?_
  unfold propertyIsProvided
  cases resolvedProperty snapshot requested with
  | some p => exact givesElement_resolveLiveProperty host snapshot values h p r
  | none =>
    dsimp only [resolveDeadProperty]
    cases findDeadProperty values.deadProperties requested with
    | none => exact ⟨rfl, by simp⟩
    | some d =>
      exact givesElement_of_refused (givesElement_some
        (@expandedName_davDeadPropertyElement host _ (some requested) h d.xml))

/-! ## The catalog -/

lemma localNames_spec : ((baseLiveProperties ++ all.flatMap liveProperties).map
      DavLiveProperty.localName).Nodup ∧
    ∀ p ∈ baseLiveProperties ++ all.flatMap liveProperties, ':' ∉ p.localName := by
  decide +kernel

variable (p : DavLiveProperty)

lemma mem_properties : p ∈ baseLiveProperties ++ all.flatMap liveProperties := by
  cases p <;> decide

lemma liveProperty_canonicalProperty : liveProperty (canonicalProperty p) = some p := by
  have hmem := mem_properties p
  rw [liveProperty]
  obtain ⟨f, hf⟩ := Option.isSome_iff_exists.mp (find?_isSome.mpr ⟨p, hmem, decide_eq_true rfl⟩ :
      ((baseLiveProperties ++ all.flatMap liveProperties).find? fun f =>
        f.localName = (canonicalProperty p).name).isSome = true)
  rw [hf]
  have hname : f.localName = (canonicalProperty p).name := by simpa using find?_some hf
  exact congrArg some (inj_on_of_nodup_map localNames_spec.1 (mem_of_find?_eq_some hf) hmem hname)

lemma isLocal_canonicalProperty : (canonicalProperty p).IsLocal where
  name := localNames_spec.2 p (mem_properties p)
  nsPrefix := by
    rintro _ ⟨⟩
    decide

lemma canonicalProperty_injective : Function.Injective fun p => (canonicalProperty p).expandedName := by
  intro p o hn
  have hsame : canonicalProperty p = canonicalProperty o :=
    congrArg (fun n : ExpandedName => mk n.2 n.1 (some "D".toList)) hn
  have hfound := liveProperty_canonicalProperty p
  rw [hsame, liveProperty_canonicalProperty] at hfound
  exact (Option.some.inj hfound).symm

lemma nodup_catalog (s : DavCapabilitySnapshot) :
    (s.catalog.map fun p => (canonicalProperty p).expandedName).Nodup := by
  refine List.Nodup.of_map Prod.snd ?_
  rw [map_map]
  refine localNames_spec.1.sublist (List.Sublist.map _ (List.Sublist.append_left ?_ _))
  exact filter_sublist.flatMap _

variable {p : DavLiveProperty}

lemma resolvedProperty_canonicalProperty (hm : p ∈ snapshot.catalog) (ha : propertyInAllprop p = true) :
    resolvedProperty snapshot (canonicalProperty p) = some p := by
  rw [resolvedProperty, liveProperty_canonicalProperty, Option.filter_eq_some_iff, Bool.or_eq_true]
  refine ⟨rfl, ?_⟩
  rcases (Bool.or_eq_true _ _).mp ha with hb | hp
  · exact .inl hb
  · obtain rfl := of_decide_eq_true hp
    rcases DavCapabilitySnapshot.mem_catalog.mp hm with hb | ⟨pc, hpc, hpr⟩
    · exact .inl hb
    · refine .inr (any_eq_true.mpr ⟨pc, DavCapabilitySnapshot.mem_extensions.mpr hpc, ?_⟩)
      simp [hpr, versioningLiveProperty]

/-! ## Runs -/

def names (elements : List DavXmlElement) : List ExpandedName := elements.map DavXmlElement.expandedName

lemma names_append (e : List DavXmlElement) (el : DavXmlElement) :
    names (e ++ [el]) = names e ++ [el.expandedName] :=
  map_append

lemma ensures_pushProperty (o : List DavXmlElement) (e : DavXmlElement) : Ensures (pushProperty host o e) fun o' =>
    names o' = names o ++ [e.expandedName] := by
  have hany : ∀ c : Composing Unit, Ensures c fun _ => True := by
    intro c s a s' hr
    trivial
  exact (hany _).bind fun _ _ => (hany _).bind fun _ _ => ensures_pure (names_append o e)

lemma ensures_withRemaining (l : ℕ → Except DavLivePropertyError α) :
    Ensures (withRemaining l) fun a => ∃ r, l r = .ok a := by
  intro b a b' hr
  exact ⟨b.bytes, congrArg Prod.fst hr⟩

lemma ensures_resolveInto (h : requested.IsLocal) (g : PropertyGroups) :
    Ensures (resolveInto host snapshot values g requested) fun g' =>
      if propertyIsProvided host snapshot values requested then
        names g'.ok = names g.ok ++ [requested.expandedName] ∧ g'.missing = g.missing
      else g'.ok = g.ok ∧ names g'.missing = names g.missing ++ [requested.expandedName] := by
  refine (ensures_withRemaining _).bind ?_
  rintro f ⟨r, hf⟩
  have hrend := givesElement_resolveRequestedProperty host snapshot values h r
  rw [hf] at hrend
  rw [← hrend.1]
  cases f with
  | some e =>
    rw [← hrend.2 e rfl]
    exact (ensures_pushProperty _ e).bind fun ok hok => ensures_pure ⟨hok, rfl⟩
  | none =>
    rw [← expandedName_propertyElement h none]
    exact (ensures_pushProperty _ _).bind fun missing hm => ensures_pure ⟨rfl, hm⟩

/-- What is known while the properties of a list are composed: which names were seen, and that each of them is in
one of the two groups. -/
structure SeenOnce (done : List DavRequestedProperty) (state : SeenProperties) : Prop where
  perm : (names state.groups.ok ++ names state.groups.missing).Perm state.seen
  nodup : state.seen.Nodup
  mem : ∀ name, name ∈ state.seen ↔ name ∈ done.map DavRequestedProperty.expandedName

lemma requestedProperties_names {p : List DavRequestedProperty} (h : ∀ r ∈ p, r.IsLocal) :
    Ensures (requestedProperties host snapshot values p) fun g =>
      ∃ ok missing, g = propstatGroups ok missing ∧ (names ok ++ names missing).Nodup ∧
        ∀ n, n ∈ names ok ++ names missing ↔ n ∈ p.map expandedName := by
  have hrun : Ensures (p.foldlM (appendRequested host snapshot values) {}) (SeenOnce ([] ++ p)) := by
    refine Ensures.foldlM ?_ ⟨.nil, .nil, fun _ => Iff.rfl⟩
    intro d requested s hm hs
    unfold appendRequested
    by_cases hseen : s.seen.contains (requested.namespaceUri, requested.name) = true
    · rw [if_pos hseen]
      refine ensures_pure ⟨hs.perm, hs.nodup, ?_⟩
      intro n
      have hdone := (hs.mem requested.expandedName).mp (contains_iff_mem.mp hseen)
      rw [hs.mem, map_append, mem_append, map_singleton, mem_singleton]
      exact ⟨.inl, fun hn => hn.elim id fun hn => hn ▸ hdone⟩
    · rw [if_neg hseen]
      refine (ensures_resolveInto (h requested hm) s.groups).bind fun g hg => ensures_pure ⟨?_, ?_, ?_⟩
      · refine List.Perm.trans ?_ (hs.perm.cons _)
        split at hg
        · rw [hg.1, hg.2, append_assoc]
          exact perm_middle
        · rw [hg.1, hg.2, ← append_assoc]
          exact perm_append_singleton _ _
      · exact nodup_cons.mpr ⟨fun hm => hseen (contains_iff_mem.mpr hm), hs.nodup⟩
      · intro n
        rw [mem_cons, hs.mem, map_append, mem_append, map_singleton, mem_singleton]
        exact or_comm
  refine hrun.bind fun s hs => ensures_pure ⟨_, _, rfl, ?_, ?_⟩
  · exact hs.perm.nodup_iff.mpr hs.nodup
  · intro n
    exact hs.perm.mem_iff.trans (hs.mem n)

/-- Neither a value nor a stored property has the name. -/
def propertyIsAbsent (host : PropertyHost) (snapshot : DavCapabilitySnapshot) (values : DavLivePropertyValues)
    (requested : DavRequestedProperty) : Bool :=
  !propertyIsProvided host snapshot values requested && (findDeadProperty values.deadProperties requested).isNone

lemma propertyIsProvided_congr {o : DavRequestedProperty} (h : requested.expandedName = o.expandedName) :
    propertyIsProvided host snapshot values requested = propertyIsProvided host snapshot values o := by
  obtain ⟨hns, hn⟩ := Prod.mk.inj h
  have hdead : findDeadProperty values.deadProperties requested = findDeadProperty values.deadProperties o := by
    simp only [findDeadProperty, hns, hn]
  simp only [propertyIsProvided, resolvedProperty_congr hns hn, hdead]

lemma contains_iff {e : List DavXmlElement} :
    containsExpandedName e requested = true ↔ requested.expandedName ∈ names e := by
  simp only [containsExpandedName, any_eq_true, names, mem_map, Bool.and_eq_true, decide_eq_true_eq,
    DavXmlElement.expandedName, expandedName, Prod.mk.injEq]
  exact exists_congr fun el => and_congr_right fun _ => and_comm

/-- What is known of the properties that are found: no name is there twice, and none is absent. -/
structure Found (host : PropertyHost) (snapshot : DavCapabilitySnapshot) (values : DavLivePropertyValues)
    (ok : List DavXmlElement) : Prop where
  nodup : (names ok).Nodup
  present : ∀ r : DavRequestedProperty, r.expandedName ∈ names ok → propertyIsAbsent host snapshot values r = false

lemma absent_of_provided (h : propertyIsProvided host snapshot values requested = true) :
    propertyIsAbsent host snapshot values requested = false := by
  rw [propertyIsAbsent, h, Bool.not_true, Bool.false_and]

lemma Found.append {ok ok' : List DavXmlElement} (hf : Found host snapshot values ok)
    (hfr : requested.expandedName ∉ names ok) (hok : names ok' = names ok ++ [requested.expandedName])
    (hp : ∀ r : DavRequestedProperty, r.expandedName = requested.expandedName →
      propertyIsAbsent host snapshot values r = false) :
    Found host snapshot values ok' where
  nodup := by
    rw [hok]
    exact (perm_append_singleton _ _).nodup_iff.mpr (nodup_cons.mpr ⟨hfr, hf.nodup⟩)
  present := by
    intro r hm
    rw [hok, mem_append, mem_singleton] at hm
    exact hm.elim (hf.present r) (hp r)

/-- What is known while the catalog is gone through. -/
structure CatalogFound (host : PropertyHost) (snapshot : DavCapabilitySnapshot) (values : DavLivePropertyValues)
    (done : List DavLiveProperty) (ok : List DavXmlElement) : Prop where
  sublist : (names ok).Sublist (done.map fun property => (canonicalProperty property).expandedName)
  present : ∀ r : DavRequestedProperty, r.expandedName ∈ names ok → propertyIsAbsent host snapshot values r = false

lemma found_catalog : Ensures (snapshot.catalog.foldlM (appendCatalogProperty host snapshot values) [])
    (Found host snapshot values) := by
  have hrun : Ensures (snapshot.catalog.foldlM (appendCatalogProperty host snapshot values) [])
      (CatalogFound host snapshot values ([] ++ snapshot.catalog)) := by
    refine Ensures.foldlM ?_ ⟨List.Sublist.refl _, by simp [names]⟩
    rintro done property ok hm ⟨hs, hp⟩
    have hskip : Ensures (pure ok : Composing (List DavXmlElement))
        (CatalogFound host snapshot values (done ++ [property])) := by
      refine ensures_pure ⟨?_, hp⟩
      rw [map_append]
      exact hs.trans (sublist_append_left _ _)
    unfold appendCatalogProperty
    split
    case isFalse => exact hskip
    case isTrue hallprop =>
      refine (ensures_withRemaining _).bind ?_
      rintro found ⟨remaining, hf⟩
      have hrend := givesElement_resolveLiveProperty host snapshot values
        (isLocal_canonicalProperty property) property remaining
      rw [hf] at hrend
      cases found with
      | none => exact hskip
      | some element =>
        intro budget ok' budget' hps
        have hok := ensures_pushProperty ok element budget ok' budget' hps
        rw [hrend.2 element rfl] at hok
        constructor
        · rw [hok, map_append]
          exact hs.append (List.Sublist.refl _)
        · intro r hr
          rw [hok] at hr
          rcases mem_append.mp hr with hold | hn
          · exact hp r hold
          · refine absent_of_provided ?_
            rw [propertyIsProvided_congr (mem_singleton.mp hn), propertyIsProvided,
              resolvedProperty_canonicalProperty hm hallprop]
            exact hrend.1.symm
  intro budget ok budget' hok
  have hdone := hrun budget ok budget' hok
  exact ⟨(nodup_catalog snapshot).sublist hdone.sublist, hdone.present⟩

/-- What is known while the stored properties are gone through. -/
structure DeadFound (host : PropertyHost) (snapshot : DavCapabilitySnapshot) (values : DavLivePropertyValues)
    (done : List DavProp) (ok : List DavXmlElement) : Prop extends Found host snapshot values ok where
  stored : ∀ dead ∈ done, dead.expandedName ∈ names ok

lemma found_dead {ok : List DavXmlElement} (hf : Found host snapshot values ok)
    (h : ∀ d ∈ values.deadProperties, (deadPropertyName d).IsLocal) :
    Ensures (values.deadProperties.foldlM (appendDeadProperty host) ok)
      (DeadFound host snapshot values ([] ++ values.deadProperties)) := by
  refine Ensures.foldlM ?_ ⟨hf, by simp⟩
  rintro dn d ok hm ⟨hf, hd⟩
  unfold appendDeadProperty
  split
  case isTrue hcont =>
    refine ensures_pure ⟨hf, ?_⟩
    intro o ho
    rcases mem_append.mp ho with ho | ho
    · exact hd o ho
    · rw [mem_singleton.mp ho]
      exact contains_iff.mp hcont
  case isFalse hcont =>
    refine (ensures_withRemaining _).bind fun _ _ => ?_
    intro b ok' b' hp
    have hok := ensures_pushProperty ok _ b ok' b' hp
    have hn := @expandedName_davDeadPropertyElement host (deadPropertyName d) none (h d hm) d.xml
    rw [hn] at hok
    refine ⟨hf.append (fun hn => hcont (contains_iff.mpr hn)) hok ?_, ?_⟩
    · intro r hr
      have hsome := findDeadProperty_isSome.mpr ⟨d, hm, hr.symm⟩
      rw [propertyIsAbsent, ← Option.not_isSome, hsome, Bool.not_true, Bool.and_false]
    · intro o ho
      rw [hok, mem_append, mem_singleton]
      rcases mem_append.mp ho with ho | ho
      · exact .inl (hd o ho)
      · rw [mem_singleton.mp ho]
        exact .inr rfl

/-- What is known while the properties are gone through that a client wants besides. -/
structure IncludedFound (host : PropertyHost) (snapshot : DavCapabilitySnapshot) (values : DavLivePropertyValues)
    (done : List DavRequestedProperty) (groups : PropertyGroups) : Prop
    extends DeadFound host snapshot values values.deadProperties groups.ok where
  missing : names groups.missing =
    (done.filter (propertyIsAbsent host snapshot values)).map DavRequestedProperty.expandedName

lemma allProperties_names {i : List DavRequestedProperty} (hl : ∀ r ∈ i, r.IsLocal)
    (hd : ∀ d ∈ values.deadProperties, (deadPropertyName d).IsLocal) :
    Ensures (allProperties host snapshot values i) fun g =>
      ∃ ok missing, g = propstatGroups ok missing ∧ Found host snapshot values ok ∧
        names missing = (i.filter (propertyIsAbsent host snapshot values)).map
          expandedName := by
  refine found_catalog.bind fun ok hok => (found_dead hok hd).bind fun ok hok => ?_
  have hrun : Ensures (i.foldlM (appendIncluded host snapshot values) { ok := ok })
      (IncludedFound host snapshot values ([] ++ i)) := by
    refine Ensures.foldlM ?_ ⟨hok, rfl⟩
    rintro dn requested g hm ⟨⟨hf, hs⟩, hms⟩
    unfold appendIncluded
    split
    case isTrue hcont =>
      refine ensures_pure ⟨⟨hf, hs⟩, ?_⟩
      have hpres := hf.present requested (contains_iff.mp hcont)
      rw [filter_append, filter_cons_of_neg (by rw [hpres]; decide), filter_nil, append_nil, hms]
    case isFalse hcont =>
      have hfresh : requested.expandedName ∉ names g.ok := fun hn => hcont (contains_iff.mpr hn)
      intro b g' b' hrs
      have hg := ensures_resolveInto (hl requested hm) g b g' b' hrs
      split at hg
      case isTrue hprovided =>
        have hpres := absent_of_provided hprovided
        refine ⟨⟨hf.append hfresh hg.1 ?_, ?_⟩, ?_⟩
        · intro r hr
          exact absent_of_provided ((propertyIsProvided_congr hr).trans hprovided)
        · intro d hm
          rw [hg.1]
          exact mem_append_left _ (hs d hm)
        · rw [filter_append, filter_cons_of_neg (by rw [hpres]; decide), filter_nil, append_nil, hg.2, hms]
      case isFalse hprovided =>
        have hnone : findDeadProperty values.deadProperties requested = none := by
          rw [← Option.not_isSome_iff_eq_none, findDeadProperty_isSome]
          rintro ⟨d, hm, hn⟩
          exact hfresh (hn ▸ hs d hm)
        have habs : propertyIsAbsent host snapshot values requested = true := by
          rw [propertyIsAbsent, Bool.eq_false_of_not_eq_true hprovided, hnone]
          rfl
        refine ⟨⟨hg.1 ▸ hf, hg.1 ▸ hs⟩, ?_⟩
        rw [filter_append, filter_cons_of_pos habs, map_append, hg.2, hms]
        rfl
  exact hrun.bind fun g hg => ensures_pure ⟨_, _, rfl, hg.toFound, hg.missing⟩

/-- The name of a live property, if it is listed. -/
def definedName (snapshot : DavCapabilitySnapshot) (values : DavLivePropertyValues) (property : DavLiveProperty) :
    List ExpandedName :=
  if propertyIsDefined snapshot values property then [(canonicalProperty property).expandedName] else []

lemma propertyNames_names (hd : ∀ dead ∈ values.deadProperties, (deadPropertyName dead).IsLocal) :
    Ensures (propertyNames host snapshot values) fun groups =>
      ∃ ok, groups = propstatGroups ok [] ∧ names ok =
        snapshot.catalog.flatMap (definedName snapshot values) ++ values.deadProperties.map DavProp.expandedName := by
  refine (Ensures.foldlM_append names (definedName snapshot values) ?live []).bind fun listed hl =>
    (Ensures.foldlM_append names (fun dead => [dead.expandedName]) ?dead listed).bind fun ok hok =>
      ensures_pure ⟨ok, ?_, ?_⟩
  case live =>
    intro listed property hm
    unfold appendDefinedName definedName
    split
    · exact ensures_pushProperty listed _
    · exact ensures_pure (append_nil _).symm
  case dead =>
    intro listed dead hm
    rw [DavProp.expandedName, ← expandedName_propertyElement (hd dead hm) none]
    exact ensures_pushProperty listed _
  · cases ok <;> rfl
  · rw [hok, hl, map_eq_flatMap]
    rfl

lemma mem_definedName {n : ExpandedName} : n ∈ definedName snapshot values p ↔
    propertyIsDefined snapshot values p = true ∧ (canonicalProperty p).expandedName = n := by
  unfold definedName
  by_cases h : propertyIsDefined snapshot values p = true
  · rw [if_pos h, mem_singleton, eq_comm]
    exact (and_iff_right h).symm
  · rw [if_neg h]
    exact ⟨by simp, fun hd => absurd hd.1 h⟩

lemma nodup_definedNames : (snapshot.catalog.flatMap (definedName snapshot values)).Nodup := by
  refine (nodup_catalog snapshot).sublist ?_
  rw [map_eq_flatMap]
  refine List.Sublist.flatMap_right _ fun p _ => ?_
  unfold definedName
  split
  · exact List.Sublist.refl _
  · exact nil_sublist _

/-! ## The answer -/

namespace DavMultiStatusItem

variable (item : DavMultiStatusItem)

/-- The names in the groups that have the status. -/
def namesWith (status : ℕ) : List ExpandedName :=
  (item.propstats.filter fun propstat => propstat.status = status).flatMap fun propstat => names propstat.properties

def allNames : List ExpandedName := item.propstats.flatMap fun propstat => names propstat.properties

end DavMultiStatusItem

section

variable {i : DavMultiStatusItem} {ok m : List DavXmlElement}

lemma allNames_eq (h : i.propstats = propstatGroups ok m) : i.allNames = names ok ++ names m := by
  rw [DavMultiStatusItem.allNames, h]
  cases ok <;> cases m <;> simp [propstatGroups, names]

lemma namesWith_ok (h : i.propstats = propstatGroups ok m) : i.namesWith 200 = names ok := by
  rw [DavMultiStatusItem.namesWith, h]
  cases ok <;> cases m <;> simp [propstatGroups, names]

lemma namesWith_missing (h : i.propstats = propstatGroups ok m) : i.namesWith 404 = names m := by
  rw [DavMultiStatusItem.namesWith, h]
  cases ok <;> cases m <;> simp [propstatGroups, names]

end

/-- What an answer is to look like: a name that is asked for is in one of the two groups, once; and otherwise no
name is there twice. -/
def Partitioned (item : DavMultiStatusItem) : DavPropfindRequest → Prop
  | .prop requested => ∀ r ∈ requested, item.allNames.count r.expandedName = 1 ∧
      (r.expandedName ∈ item.namesWith 200 ∨ r.expandedName ∈ item.namesWith 404)
  | .allProp _ | .propName => item.allNames.Nodup

/-- No two sources of an answer have a name in common that they both add to it. -/
def SourcesDistinct (host : PropertyHost) (snapshot : DavCapabilitySnapshot) (values : DavLivePropertyValues) :
    DavPropfindRequest → Prop
  | .prop _ => True
  | .allProp included =>
    ((included.filter (propertyIsAbsent host snapshot values)).map DavRequestedProperty.expandedName).Nodup
  | .propName => (values.deadProperties.map DavProp.expandedName).Nodup ∧
      ∀ dead ∈ values.deadProperties, ∀ property ∈ snapshot.catalog, propertyIsDefined snapshot values property = true →
        (canonicalProperty property).expandedName ≠ dead.expandedName

/-- The properties that a request names. -/
def DavPropfindRequest.named : DavPropfindRequest → List DavRequestedProperty
  | .allProp properties | .prop properties => properties
  | .propName => []

lemma exists_run {hr : Text} {r : DavPropfindRequest} {l : DavPropertyMaterializationLimits}
    {it : DavMultiStatusItem} (h : buildLivePropfindItem host snapshot values hr r l = .ok it) :
    ∃ b, composedProperties host snapshot values r ⟨l.maximumBytes, l.maximumProperties⟩ =
      (.ok it.propstats, b) := by
  obtain ⟨_, -, hb⟩ := bind_eq_ok.mp h
  obtain ⟨g, hg, hrs⟩ := bind_eq_ok.mp hb
  cases hrs
  exact ⟨_, Prod.ext hg rfl⟩

/-- **An answer has each name once** exactly if the sources from which it is composed are distinct. -/
theorem propfind_partition_iff (host : PropertyHost) (snapshot : DavCapabilitySnapshot)
    (values : DavLivePropertyValues) (href : Text) (request : DavPropfindRequest)
    (limits : DavPropertyMaterializationLimits) (item : DavMultiStatusItem)
    (hlocal : ∀ r ∈ request.named, r.IsLocal)
    (hdead : ∀ dead ∈ values.deadProperties, (deadPropertyName dead).IsLocal)
    (hitem : buildLivePropfindItem host snapshot values href request limits = .ok item) :
    Partitioned item request ↔ SourcesDistinct host snapshot values request := by
  obtain ⟨b, hrn⟩ := exists_run hitem
  cases request with
  | prop pr =>
    obtain ⟨ok, missing, hg, hnd, hm⟩ := requestedProperties_names hlocal _ _ _ hrn
    simp only [Partitioned, SourcesDistinct, iff_true, allNames_eq hg, namesWith_ok hg, namesWith_missing hg]
    intro r hr
    have hr := (hm r.expandedName).mpr (mem_map_of_mem hr)
    exact ⟨count_eq_one_of_mem hnd hr, mem_append.mp hr⟩
  | allProp i =>
    obtain ⟨ok, missing, hg, hf, hms⟩ := allProperties_names hlocal hdead _ _ _ hrn
    dsimp only [DavPropfindRequest.named] at hms
    rw [Partitioned, SourcesDistinct, allNames_eq hg, ← hms, nodup_append']
    refine ⟨fun h => h.2.1, fun h => ⟨hf.nodup, h, ?_⟩⟩
    intro n hok hn
    rw [hms] at hn
    obtain ⟨r, hr, rfl⟩ := mem_map.mp hn
    have habs := (mem_filter.mp hr).2
    rw [hf.present r hok] at habs
    cases habs
  | propName =>
    obtain ⟨ok, hg, hok⟩ := propertyNames_names hdead _ _ _ hrn
    rw [Partitioned, allNames_eq hg, names, names, map_nil, append_nil, ← names, hok, nodup_append']
    refine (and_iff_right nodup_definedNames).trans (and_congr_right fun _ => ?_)
    constructor
    · intro hds dead hm p hc hd hn
      refine hds (mem_flatMap.mpr ⟨p, hc, mem_definedName.mpr ⟨hd, hn⟩⟩) ?_
      exact mem_map_of_mem hm
    · intro hdf n hlv hs
      obtain ⟨p, hc, hl⟩ := mem_flatMap.mp hlv
      obtain ⟨dead, hm, rfl⟩ := mem_map.mp hs
      obtain ⟨hd, hn⟩ := mem_definedName.mp hl
      exact hdf dead hm p hc hd hn

def storedColor : DavProp := ⟨"color".toList, some "x".toList, some "urn:x".toList, none⟩

def colored : DavLivePropertyValues := { named with deadProperties := [storedColor] }

/-- A property of the file, a stored one, and one that the file has not. -/
def askedNames : DavPropfindRequest :=
  .prop [canonicalProperty .displayName, deadPropertyName storedColor, canonicalProperty .quotaUsedBytes]

/-- The answer to the three names has each of them once. -/
theorem propfind_partition_named :
    ∃ item, buildLivePropfindItem plainHost plainFile colored "/a".toList askedNames ⟨5000, 10⟩ = .ok item ∧
      item.propstats.map DavPropStat.status = [200, 404] ∧
      (Partitioned item askedNames ↔ SourcesDistinct plainHost plainFile colored askedNames) := by
  have hstored : (deadPropertyName storedColor).IsLocal := ⟨by decide, by rintro _ ⟨⟩; decide⟩
  obtain ⟨item, hitem⟩ : ∃ item, buildLivePropfindItem plainHost plainFile colored "/a".toList askedNames
      ⟨5000, 10⟩ = .ok item := ⟨_, rfl⟩
  refine ⟨item, hitem, ?_, propfind_partition_iff plainHost plainFile colored "/a".toList askedNames ⟨5000, 10⟩
    item ?_ (forall_mem_singleton.mpr hstored) hitem⟩
  · cases hitem
    rfl
  · simp only [askedNames, DavPropfindRequest.named, forall_mem_cons, hstored, isLocal_canonicalProperty, true_and,
      not_mem_nil, false_imp_iff, implies_true]

def storedName : DavProp := ⟨"displayname".toList, some "D".toList, some "DAV:".toList, none⟩

/-- **A stored display name** besides the one of the file is listed as well, under the same name. -/
theorem propfind_partition_counterexample : ¬ ∀ host snapshot values href request limits item,
    (∀ r ∈ request.named, r.IsLocal) → (∀ dead ∈ values.deadProperties, (deadPropertyName dead).IsLocal) →
      buildLivePropfindItem host snapshot values href request limits = .ok item → Partitioned item request := by
  intro ha
  have hlocal : (deadPropertyName storedName).IsLocal := isLocal_canonicalProperty .displayName
  have hnames := ha plainHost plainFile { named with deadProperties := [storedName] } "/a".toList
    .propName ⟨5000, 10⟩ _ (forall_mem_nil _) (forall_mem_singleton.mpr hlocal) rfl
  rw [Partitioned] at hnames
  revert hnames
  decide +kernel

end AsterForge.Webdav
