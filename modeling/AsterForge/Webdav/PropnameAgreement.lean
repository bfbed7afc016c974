import AsterForge.Webdav.PropfindPartition

/-!
# Names that are listed and values that are returned

A client may ask which properties there are, and then for one of them.  What is listed is decided by tables of
capabilities and by which values are there; what is returned is decided by the rendering of a value, and a stored
property is returned only where no live one has its name.

* `listed_iff`, `returned_iff` — what decides in the two answers.
* **`propname_agrees_iff`** — the live properties that are listed exactly if they are returned.
-/

namespace AsterForge.Webdav

open Library Xml Stateful List

variable {host : PropertyHost} {snapshot : DavCapabilitySnapshot} {values : DavLivePropertyValues}
  {property : DavLiveProperty} {requested : DavRequestedProperty} {href : Text} {request : DavPropfindRequest}
  {limits : DavPropertyMaterializationLimits} {item : DavMultiStatusItem}

/-- A stored property has the name of the live one. -/
def IsStored (values : DavLivePropertyValues) (property : DavLiveProperty) : Prop :=
  ∃ dead ∈ values.deadProperties, dead.expandedName = (canonicalProperty property).expandedName

lemma listed_iff (p : DavLiveProperty) (hdd : ∀ d ∈ values.deadProperties, (deadPropertyName d).IsLocal)
    (hi : buildLivePropfindItem host snapshot values href .propName limits = .ok item) :
    (canonicalProperty p).expandedName ∈ item.namesWith 200 ↔
      p ∈ snapshot.catalog ∧ propertyIsDefined snapshot values p = true ∨ IsStored values p := by
  obtain ⟨b, hr⟩ := exists_run hi
  obtain ⟨ok, hg, hok⟩ := propertyNames_names hdd _ _ _ hr
  rw [namesWith_ok hg, hok, mem_append, mem_flatMap, mem_map]
  refine or_congr_left ?_
  simp only [mem_definedName]
  constructor
  · rintro ⟨o, hm, hd, hn⟩
    obtain rfl : o = p := canonicalProperty_injective hn
    exact ⟨hm, hd⟩
  · rintro ⟨hm, hd⟩
    exact ⟨p, hm, hd, rfl⟩

lemma requestedProperties_singleton (b : PropertyBudget) : requestedProperties host snapshot values [requested] b =
    (resolveInto host snapshot values {} requested >>= fun g =>
      pure (propstatGroups g.ok g.missing) : Composing (List DavPropStat)) b := by
  have hfirst : appendRequested host snapshot values {} requested =
      resolveInto host snapshot values {} requested >>= fun g =>
        pure ⟨[(requested.namespaceUri, requested.name)], g⟩ := if_neg Bool.false_ne_true
  rw [requestedProperties, foldlM_cons, hfirst]
  simp only [bind_apply]
  cases resolveInto host snapshot values {} requested b with
  | mk r b => cases r <;> rfl

lemma error_of_resolveInto (hl : requested.IsLocal) {g : PropertyGroups} {b b' : PropertyBudget}
    {e : DavLivePropertyError} (h : resolveInto host snapshot values g requested b = (.error e, b')) :
    e = .limitExceeded ∨ propertyIsProvided host snapshot values requested = false := by
  have hrend := givesElement_resolveRequestedProperty host snapshot values hl b.bytes
  cases hfound : resolveRequestedProperty host snapshot values requested b.bytes with
  | error fl =>
    have hlook : withRemaining (resolveRequestedProperty host snapshot values requested) b =
      (.error fl, b) := Prod.ext hfound rfl
    rw [resolveInto, bind_of_error hlook] at h
    cases h
    rw [hfound] at hrend
    exact hrend
  | ok f =>
    have hlook : withRemaining (resolveRequestedProperty host snapshot values requested) b =
      (.ok f, b) := Prod.ext hfound rfl
    rw [resolveInto, bind_of_ok hlook] at h
    cases f <;> exact .inl (Consumes.error ((consumes_pushProperty _ _).bind fun _ => consumes_pure _ _ _) h)

lemma ensures_singleton (hl : requested.IsLocal) :
    Ensures (requestedProperties host snapshot values [requested]) fun p =>
      ∃ ok m, p = propstatGroups ok m ∧
        (requested.expandedName ∈ names ok ↔ propertyIsProvided host snapshot values requested = true) := by
  intro b p b' hr
  rw [requestedProperties_singleton] at hr
  revert b p b' hr
  refine (ensures_resolveInto hl {}).bind fun g hg => ensures_pure ⟨_, _, rfl, ?_⟩
  split at hg
  case isTrue hprovided =>
    rw [hg.1]
    exact iff_of_true (mem_append_right _ mem_cons_self) hprovided
  case isFalse hmissed =>
    rw [hg.1]
    exact iff_of_false not_mem_nil hmissed

lemma returned_iff (hl : requested.IsLocal)
    (hr : buildLivePropfindItem host snapshot values href (.prop [requested]) limits ≠ .error .limitExceeded) :
    (∃ item, buildLivePropfindItem host snapshot values href (.prop [requested]) limits = .ok item ∧
      requested.expandedName ∈ item.namesWith 200) ↔ propertyIsProvided host snapshot values requested = true := by
  cases hbuild : buildLivePropfindItem host snapshot values href (.prop [requested]) limits with
  | ok item =>
    obtain ⟨b, hrn⟩ := exists_run hbuild
    obtain ⟨ok, m, hg, hp⟩ := ensures_singleton hl _ _ _ hrn
    rw [← hp, ← namesWith_ok hg]
    simp
  | error e =>
    refine iff_of_false (by simp) ?_
    intro hp
    rw [hbuild] at hr
    rcases bind_eq_error.mp hbuild with hrf | ⟨_, -, hb⟩
    · exact hr (congrArg _ (refuse_eq_error.mp hrf).2.symm)
    · rcases bind_eq_error.mp hb with hf | ⟨_, -, hrs⟩
      · rw [composedProperties, requestedProperties_singleton, bind_apply] at hf
        cases hresolve : resolveInto host snapshot values {} requested
          ⟨limits.maximumBytes, limits.maximumProperties⟩ with
        | mk r b =>
          rw [hresolve] at hf
          cases r with
          | ok g => cases hf
          | error f =>
            cases hf
            rcases error_of_resolveInto hl hresolve with rfl | hm
            · exact hr rfl
            · rw [hp] at hm
              cases hm
      · cases hrs

/-! ## Agreement -/

/-- For a property that is resolved as a live one: whatever is there of it can be sent, and nothing is stored under
its name if it has no value. -/
def LiveAgrees (host : PropertyHost) (snapshot : DavCapabilitySnapshot) (values : DavLivePropertyValues)
    (property : DavLiveProperty) : Prop :=
  match property with
  | .lockDiscovery | .supportedLock => snapshot.declaration.class1 = true ∨ IsStored values property
  | .getLastModified => (∀ time ∈ values.metadata.lastModified, (host.formatHttpDate time).isSome = true) ∧
      (IsStored values property → values.metadata.lastModified.isSome = true)
  | .syncToken => ∃ token ∈ values.syncToken, uriMatchesPolicy host token .absolute = true
  | .currentUserPrincipal => ∃ principal ∈ values.currentPrincipal, principalIsValid host principal = true
  | .addMember => ∃ member ∈ values.addMemberHref, uriMatchesPolicy host member .httpOrAbsolutePath = true
  | property => IsStored values property → propertyIsDefined snapshot values property = true

lemma liveAgrees_iff (hm : property ∈ snapshot.catalog) :
    ((propertyIsDefined snapshot values property = true ∨ IsStored values property) ↔
      propertyIsAvailable host snapshot values property = true) ↔ LiveAgrees host snapshot values property := by
  cases property with
  | lockDiscovery | supportedLock => simp [propertyIsDefined, propertyIsAvailable, LiveAgrees]
  | getLastModified =>
    cases htime : values.metadata.lastModified with
    | none => simp [propertyIsDefined, propertyIsAvailable, LiveAgrees, htime]
    | some t => simp [propertyIsDefined, propertyIsAvailable, LiveAgrees, htime]
  | syncToken =>
    have howned : snapshot.supportsExtension .collectionSync = true :=
      supportsExtension_of_mem_catalog rfl (by decide) hm
    simp [propertyIsDefined, propertyIsAvailable, LiveAgrees, howned, Option.any_eq_true]
  | currentUserPrincipal =>
    have howned : snapshot.supportsExtension .currentPrincipal = true :=
      supportsExtension_of_mem_catalog rfl (by decide) hm
    simp [propertyIsDefined, propertyIsAvailable, LiveAgrees, howned, Option.any_eq_true]
  | addMember =>
    have howned : snapshot.supportsExtension .addMember = true :=
      supportsExtension_of_mem_catalog rfl (by decide) hm
    simp [propertyIsDefined, propertyIsAvailable, LiveAgrees, howned, Option.any_eq_true]
  | supportedMethodSet | supportedLivePropertySet | supportedReportSet =>
    have howned : snapshot.supportsExtension .versionControl = true :=
      supportsExtension_of_mem_catalog rfl (by decide) hm
    simp [propertyIsDefined, propertyIsAvailable, LiveAgrees, howned]
  | supportedQueryGrammarSet =>
    have howned : snapshot.supportsExtension .search = true :=
      supportsExtension_of_mem_catalog rfl (by decide) hm
    simp [propertyIsDefined, propertyIsAvailable, LiveAgrees, howned]
  | _ => exact or_iff_left_iff_imp

/-- What the two answers agree on.  A property that is not resolved as a live one, though the catalog has it,
belongs to another state of versioning. -/
def NamesAgree (host : PropertyHost) (snapshot : DavCapabilitySnapshot) (values : DavLivePropertyValues)
    (property : DavLiveProperty) : Prop :=
  if isBaseProperty property || snapshot.supportsLiveProperty property then LiveAgrees host snapshot values property
  else property ∈ snapshot.catalog → propertyIsDefined snapshot values property = true → IsStored values property

/-- **A live property is listed exactly if it is returned**, unless a value cannot be sent, a stored property has
the name of one without a value, or a value belongs to another state. -/
theorem propname_agrees_iff (host : PropertyHost) (snapshot : DavCapabilitySnapshot)
    (values : DavLivePropertyValues) (property : DavLiveProperty) (requested : DavRequestedProperty) (href : Text)
    (limits limits' : DavPropertyMaterializationLimits) (item : DavMultiStatusItem)
    (hdead : ∀ dead ∈ values.deadProperties, (deadPropertyName dead).IsLocal) (hlocal : requested.IsLocal)
    (hname : requested.expandedName = (canonicalProperty property).expandedName)
    (hitem : buildLivePropfindItem host snapshot values href .propName limits = .ok item)
    (hroom : buildLivePropfindItem host snapshot values href (.prop [requested]) limits' ≠ .error .limitExceeded) :
    (requested.expandedName ∈ item.namesWith 200 ↔
      ∃ item', buildLivePropfindItem host snapshot values href (.prop [requested]) limits' = .ok item' ∧
        requested.expandedName ∈ item'.namesWith 200) ↔ NamesAgree host snapshot values property := by
  rw [returned_iff hlocal hroom, hname, listed_iff property hdead hitem, propertyIsProvided_congr hname, propertyIsProvided,
    NamesAgree, resolvedProperty, liveProperty_canonicalProperty, Option.filter_some]
  by_cases hlive : (isBaseProperty property || snapshot.supportsLiveProperty property) = true
  · have hresol : resolvedProperty snapshot (canonicalProperty property) = some property := by
      rw [resolvedProperty, liveProperty_canonicalProperty, Option.filter_some, if_pos hlive]
    have hmem := mem_catalog_of_resolved hresol
    rw [if_pos hlive, if_pos hlive, ← liveAgrees_iff hmem, and_iff_right hmem]
  · rw [if_neg hlive, if_neg hlive, findDeadProperty_isSome, ← IsStored, or_iff_right_iff_imp, and_imp]

/-- A display name is listed, and returned. -/
theorem propname_agrees_named : ∃ item,
    buildLivePropfindItem plainHost plainFile named "/a".toList .propName ⟨5000, 10⟩ = .ok item ∧
      (((canonicalProperty .displayName).expandedName ∈ item.namesWith 200 ↔
        ∃ item', buildLivePropfindItem plainHost plainFile named "/a".toList
          (.prop [canonicalProperty .displayName]) ⟨600, 10⟩ = .ok item' ∧
            (canonicalProperty .displayName).expandedName ∈ item'.namesWith 200) ↔
        NamesAgree plainHost plainFile named .displayName) := by
  obtain ⟨item, hitem⟩ : ∃ item, buildLivePropfindItem plainHost plainFile named "/a".toList .propName ⟨5000, 10⟩ =
      .ok item := ⟨_, rfl⟩
  obtain ⟨f, hfound⟩ : ∃ f, buildLivePropfindItem plainHost plainFile named "/a".toList
      (.prop [canonicalProperty .displayName]) ⟨600, 10⟩ = .ok f := ⟨_, rfl⟩
  exact ⟨item, hitem, propname_agrees_iff plainHost plainFile named .displayName (canonicalProperty .displayName)
    "/a".toList ⟨5000, 10⟩ ⟨600, 10⟩ item (forall_mem_nil _) (isLocal_canonicalProperty .displayName) rfl hitem
    (by rw [hfound]; simp)⟩

/-- **A display name that is only stored** is listed, and missed when a client asks for it. -/
theorem propname_agrees_counterexample : ¬ ∀ host snapshot values property requested href limits limits' item,
    (∀ dead ∈ values.deadProperties, (deadPropertyName dead).IsLocal) → requested.IsLocal →
      requested.expandedName = (canonicalProperty property).expandedName →
      buildLivePropfindItem host snapshot values href .propName limits = .ok item →
      buildLivePropfindItem host snapshot values href (.prop [requested]) limits' ≠ .error .limitExceeded →
        (requested.expandedName ∈ item.namesWith 200 ↔
          ∃ item', buildLivePropfindItem host snapshot values href (.prop [requested]) limits' = .ok item' ∧
            requested.expandedName ∈ item'.namesWith 200) := by
  intro ha
  have hlocal := isLocal_canonicalProperty .displayName
  have hdead : ∀ dead ∈ ({ deadProperties := [storedName] } : DavLivePropertyValues).deadProperties,
      (deadPropertyName dead).IsLocal := forall_mem_singleton.mpr hlocal
  obtain ⟨item, hi⟩ : ∃ item, buildLivePropfindItem plainHost plainFile { deadProperties := [storedName] }
      "/a".toList .propName ⟨5000, 10⟩ = .ok item := ⟨_, rfl⟩
  obtain ⟨missed, hm⟩ : ∃ missed, buildLivePropfindItem plainHost plainFile { deadProperties := [storedName] }
      "/a".toList (.prop [canonicalProperty .displayName]) ⟨600, 10⟩ = .ok missed := ⟨_, rfl⟩
  have hroom := hm.trans_ne (show _ ≠ Except.error DavLivePropertyError.limitExceeded by simp)
  have hlisted := (listed_iff .displayName hdead hi).mpr (.inr ⟨storedName, mem_cons_self, rfl⟩)
  have hret := (ha plainHost plainFile _ .displayName _ "/a".toList ⟨5000, 10⟩ ⟨600, 10⟩ item hdead hlocal rfl
    hi hroom).mp hlisted
  rw [returned_iff hlocal hroom] at hret
  revert hret
  decide +kernel

end AsterForge.Webdav
