import AsterForge.Webdav.Property

/-!
# Which values an answer depends on

A product fetches the groups of values that a request is said to need.  That is enough if the answer is the same
for any two batches of values that agree on these groups.

* `resolveRequestedProperty_congr`, **`composedProperties_congr`** — what an answer depends on.
-/

namespace AsterForge.Webdav

open Library Xml Stateful DavCapabilitySnapshot List

/-! ## Agreement -/

inductive ValueGroup
  | metadata
  | locks
  | deadProperties
  | quota
  | currentPrincipal
  | syncToken
  | addMember
  | extensionValues

def DavLivePropertyRequirements.flags (r : DavLivePropertyRequirements) : ValueGroup → Bool
  | .metadata => r.metadata
  | .locks => r.locks
  | .deadProperties => r.deadProperties
  | .quota => r.quota
  | .currentPrincipal => r.currentPrincipal
  | .syncToken => r.syncToken
  | .addMember => r.addMember
  | .extensionValues => r.extensionValues

def ValueGroup.Same (v v' : DavLivePropertyValues) : ValueGroup → Prop
  | .metadata => v.metadata = v'.metadata
  | .locks => v.activeLocks = v'.activeLocks
  | .deadProperties => v.deadProperties = v'.deadProperties
  | .quota => v.quota = v'.quota
  | .currentPrincipal => v.currentPrincipal = v'.currentPrincipal
  | .syncToken => v.syncToken = v'.syncToken
  | .addMember => v.addMemberHref = v'.addMemberHref
  | .extensionValues => v.extensionValue = v'.extensionValue

/-- Two batches of values have the same in each group that is required. -/
def Agree (r : DavLivePropertyRequirements) (v v' : DavLivePropertyValues) : Prop :=
  ∀ group, r.flags group = true → group.Same v v'

variable {h : PropertyHost} {sn : DavCapabilitySnapshot} {v v' : DavLivePropertyValues}

lemma flags_addLiveRequirement (property : DavLiveProperty) (r : DavLivePropertyRequirements) (g : ValueGroup) :
    (addLiveRequirement sn property r).flags g =
      (r.flags g || (addLiveRequirement sn property {}).flags g) := by
  unfold addLiveRequirement
  split <;> cases g <;> simp [DavLivePropertyRequirements.flags]

lemma flags_addRequirement (rq : DavRequestedProperty) (r : DavLivePropertyRequirements) (g : ValueGroup) :
    (addRequirement sn rq r).flags g = (r.flags g || (addRequirement sn rq {}).flags g) := by
  unfold addRequirement
  split
  · cases g <;> simp [DavLivePropertyRequirements.flags]
  · exact flags_addLiveRequirement _ r g

variable {requested : List DavRequestedProperty} {pr : DavLiveProperty} {r : DavLivePropertyRequirements}

lemma flags_foldl {g : ValueGroup} :
    (requested.foldl (fun r requested => addRequirement sn requested r) r).flags g = true ↔
      r.flags g = true ∨ ∃ pr ∈ requested, (addRequirement sn pr {}).flags g = true := by
  induction requested generalizing r with
  | nil => simp
  | cons first requested ih =>
    rw [foldl_cons, ih, flags_addRequirement, Bool.or_eq_true, exists_mem_cons_iff, or_assoc]

lemma agree_foldl :
    Agree (requested.foldl (fun r requested => addRequirement sn requested r) r) v v' ↔
      Agree r v v' ∧ ∀ pr ∈ requested, Agree (addRequirement sn pr {}) v v' := by
  constructor
  · intro h
    constructor
    · intro g hf
      exact h g (flags_foldl.mpr (.inl hf))
    · intro pr hm g hf
      exact h g (flags_foldl.mpr (.inr ⟨pr, hm, hf⟩))
  · rintro ⟨hfr, hr⟩ g hf
    rcases flags_foldl.mp hf with hf | ⟨pr, hm, hf⟩
    · exact hfr g hf
    · exact hr pr hm g hf

/-! ## Properties and their groups -/

def propertyGroup : DavLiveProperty → ValueGroup
  | .creationDate | .displayName | .getContentLanguage | .getContentLength | .getContentType | .getEtag
  | .getLastModified | .resourceType => .metadata
  | .lockDiscovery | .supportedLock => .locks
  | .quotaAvailableBytes | .quotaUsedBytes => .quota
  | .currentUserPrincipal => .currentPrincipal
  | .syncToken => .syncToken
  | .addMember => .addMember
  | _ => .extensionValues

lemma eq_of_mem_liveProperties {p o : DavExtensionPackage} (h : pr ∈ p.liveProperties)
    (ho : pr ∈ o.liveProperties) : p = o := by
  have hall : ∀ p : DavExtensionPackage, p ∈ DavExtensionPackage.all := by
    intro p
    cases p <;> decide
  have hdisj : (DavExtensionPackage.all.all fun p => DavExtensionPackage.all.all fun o =>
      p.liveProperties.all fun pr => !o.liveProperties.contains pr || p = o) = true := by
    decide +kernel
  simp only [all_eq_true, Bool.or_eq_true, Bool.not_eq_true', decide_eq_true_eq] at hdisj
  refine (hdisj p (hall p) o (hall o) pr h).resolve_left ?_
  simp [ho]

lemma supportsExtension_of_mem_catalog {o : DavExtensionPackage} (hb : isBaseProperty pr = false)
    (ho : pr ∈ o.liveProperties) (h : pr ∈ sn.catalog) : sn.supportsExtension o = true := by
  rcases mem_catalog.mp h with hs | ⟨p, hpc, hp⟩
  · rw [hb] at hs
    cases hs
  · rwa [← eq_of_mem_liveProperties hp ho]

lemma flags_propertyGroup (h : pr ∈ sn.catalog) (hg : propertyGroup pr ≠ .extensionValues) :
    (addLiveRequirement sn pr {}).flags (propertyGroup pr) = true := by
  cases pr with
  | creationDate | displayName | getContentLanguage | getContentLength | getContentType | getEtag
  | getLastModified | resourceType | lockDiscovery | supportedLock => rfl
  | quotaAvailableBytes | quotaUsedBytes | currentUserPrincipal | syncToken | addMember =>
    exact supportsExtension_of_mem_catalog rfl (by decide) h
  | _ => exact absurd rfl hg

variable (r : DavRequestedProperty)

lemma livePropertyElement_congr (hg : propertyGroup pr ≠ .extensionValues → (propertyGroup pr).Same v v')
    (he : v.extensionValue pr = v'.extensionValue pr) :
    livePropertyElement h sn v pr r = livePropertyElement h sn v' pr r := by
  cases pr <;> simp only [propertyGroup, ValueGroup.Same, ne_eq, reduceCtorEq, not_false_eq_true, not_true_eq_false, forall_const,
    false_imp_iff] at hg <;> simp only [livePropertyElement, he, hg]

lemma propertySourceBytes_congr (hg : propertyGroup pr ≠ .extensionValues → (propertyGroup pr).Same v v') :
    propertySourceBytes v pr = propertySourceBytes v' pr := by
  cases pr <;> simp only [propertyGroup, ValueGroup.Same, ne_eq, reduceCtorEq, not_false_eq_true, not_true_eq_false, forall_const,
    false_imp_iff] at hg <;> simp only [propertySourceBytes, hg]

lemma resolveLiveProperty_congr (hg : propertyGroup pr ≠ .extensionValues → (propertyGroup pr).Same v v')
    (he : v.extensionValue pr = v'.extensionValue pr) :
    resolveLiveProperty h sn v pr r = resolveLiveProperty h sn v' pr r := by
  unfold resolveLiveProperty checkPropertySourceSize
  rw [propertySourceBytes_congr hg, he, livePropertyElement_congr r hg he]

/-! ## Requested properties -/

variable {r : DavRequestedProperty}

lemma mem_catalog_of_resolved (h : resolvedProperty sn r = some pr) : pr ∈ sn.catalog := by
  simp only [resolvedProperty, Option.filter_eq_some_iff, Bool.or_eq_true] at h
  rw [mem_catalog]
  exact h.2.imp_right exists_package

/-- **What is resolved for a requested property** depends on the groups that it requires, and on an extension
value of the property. -/
theorem resolveRequestedProperty_congr (ha : Agree (addRequirement sn r {}) v v')
    (he : ∀ pr, resolvedProperty sn r = some pr → v.extensionValue pr = v'.extensionValue pr) :
    resolveRequestedProperty h sn v r = resolveRequestedProperty h sn v' r := by
  unfold resolveRequestedProperty
  cases hresol : resolvedProperty sn r with
  | none =>
    have hdead : v.deadProperties = v'.deadProperties := by
      refine ha .deadProperties ?_
      simp only [addRequirement, hresol]
      rfl
    simp only [resolveDeadProperty, hdead]
  | some pr =>
    have hg : propertyGroup pr ≠ .extensionValues → (propertyGroup pr).Same v v' := by
      intro hg
      refine ha _ ?_
      simp only [addRequirement, hresol]
      exact flags_propertyGroup (mem_catalog_of_resolved hresol) hg
    simp only [resolveLiveProperty_congr r hg (he pr hresol)]

lemma resolveInto_congr (ha : Agree (addRequirement sn r {}) v v') (he : ∀ pr, resolvedProperty sn r = some pr →
      v.extensionValue pr = v'.extensionValue pr) (g : PropertyGroups) :
    resolveInto h sn v g r = resolveInto h sn v' g r := by
  unfold resolveInto
  rw [resolveRequestedProperty_congr ha he]

/-- The live properties that a request has resolved: those of the catalog that all properties comprise, and
those that it names. -/
def DavPropfindRequest.resolves (snapshot : DavCapabilitySnapshot) : DavPropfindRequest → List DavLiveProperty
  | .allProp included =>
    snapshot.catalog.filter propertyInAllprop ++ included.filterMap (resolvedProperty snapshot)
  | .propName => []
  | .prop requested => requested.filterMap (resolvedProperty snapshot)

/-! ## Whole answers -/

lemma same_of_propertyInAllprop (hmm : pr ∈ sn.catalog)
    (ha : propertyInAllprop pr = true) (hm : v.metadata = v'.metadata) (hl : v.activeLocks = v'.activeLocks)
    (hp : sn.supportsExtension .currentPrincipal = true →
      v.currentPrincipal = v'.currentPrincipal) : (propertyGroup pr).Same v v' := by
  cases pr with
  | creationDate | displayName | getContentLanguage | getContentLength | getContentType | getEtag
  | getLastModified | resourceType => exact hm
  | lockDiscovery | supportedLock => exact hl
  | currentUserPrincipal => exact hp (flags_propertyGroup hmm nofun)
  | _ => cases ha

lemma propertyIsDefined_congr (hmm : pr ∈ sn.catalog) (hm : v.metadata = v'.metadata)
    (hq : sn.supportsExtension .quota = true → v.quota = v'.quota)
    (he : ∀ p, sn.supportsExtension p = true → v.extensionValue = v'.extensionValue) :
    propertyIsDefined sn v pr = propertyIsDefined sn v' pr := by
  rcases mem_catalog.mp hmm with hb | ⟨p, hp, -⟩
  · cases pr with
    | creationDate | displayName | getContentLanguage | getContentLength | getContentType | getEtag
    | getLastModified => simp only [propertyIsDefined, hm]
    | lockDiscovery | resourceType | supportedLock => rfl
    | _ => cases hb
  · have hvalue := he p hp
    cases pr with
    | quotaAvailableBytes | quotaUsedBytes =>
      have hsame : v.quota = v'.quota := hq (flags_propertyGroup hmm nofun)
      simp only [propertyIsDefined, hsame]
    | _ => simp only [propertyIsDefined, hm, hvalue]

lemma allProperties_congr {i : List DavRequestedProperty} (hmt : v.metadata = v'.metadata)
    (hl : v.activeLocks = v'.activeLocks) (hd : v.deadProperties = v'.deadProperties)
    (hp : sn.supportsExtension .currentPrincipal = true → v.currentPrincipal = v'.currentPrincipal)
    (hi : ∀ requested ∈ i, Agree (addRequirement sn requested {}) v v')
    (he : ∀ pr ∈ (DavPropfindRequest.allProp i).resolves sn, v.extensionValue pr = v'.extensionValue pr) :
    allProperties h sn v i = allProperties h sn v' i := by
  have hcatalog : sn.catalog.foldlM (appendCatalogProperty h sn v) [] =
      sn.catalog.foldlM (appendCatalogProperty h sn v') [] := by
    refine foldlM_congr ?_ []
    intro pr hm ok
    unfold appendCatalogProperty
    split
    · rename_i hall
      have hvalue := he pr (mem_append_left _ (mem_filter.mpr ⟨hm, hall⟩))
      rw [resolveLiveProperty_congr (canonicalProperty pr)
        (fun _ => same_of_propertyInAllprop hm hall hmt hl hp) hvalue]
    · rfl
  have hreq : ∀ g, i.foldlM (appendIncluded h sn v) g = i.foldlM (appendIncluded h sn v') g := by
    refine foldlM_congr ?_
    intro requested hm g
    unfold appendIncluded
    split
    · rfl
    · refine resolveInto_congr (hi requested hm) ?_ g
      intro pr hr
      exact he pr (mem_append_right _ (mem_filterMap.mpr ⟨requested, hm, hr⟩))
  simp only [allProperties, hcatalog, hd, hreq]

lemma requestedProperties_congr (hrq : ∀ pr ∈ requested, Agree (addRequirement sn pr {}) v v')
    (he : ∀ pr ∈ requested.filterMap (resolvedProperty sn), v.extensionValue pr = v'.extensionValue pr) :
    requestedProperties h sn v requested = requestedProperties h sn v' requested := by
  have hfold : requested.foldlM (appendRequested h sn v) {} =
      requested.foldlM (appendRequested h sn v') {} := by
    refine foldlM_congr ?_ ({} : SeenProperties)
    intro first hm s
    unfold appendRequested
    split
    · rfl
    · rw [resolveInto_congr (hrq first hm) ?_ s.groups]
      intro pr hr
      exact he pr (mem_filterMap.mpr ⟨first, hm, hr⟩)
  simp only [requestedProperties, hfold]

lemma propertyNames_congr (hm : v.metadata = v'.metadata) (hd : v.deadProperties = v'.deadProperties)
    (hq : sn.supportsExtension .quota = true → v.quota = v'.quota)
    (he : ∀ p, sn.supportsExtension p = true → v.extensionValue = v'.extensionValue) :
    propertyNames h sn v = propertyNames h sn v' := by
  have hcatalog : sn.catalog.foldlM (appendDefinedName h sn v) [] =
      sn.catalog.foldlM (appendDefinedName h sn v') [] := by
    refine foldlM_congr ?_ []
    intro pr hmm n
    unfold appendDefinedName
    rw [propertyIsDefined_congr hmm hm hq he]
  simp only [propertyNames, hcatalog, hd]

/-- **What an answer depends on**: the required groups, the extension values of the live properties that the
request has resolved, and the locks if it asks for all properties. -/
theorem composedProperties_congr {r : DavPropfindRequest} (ha : Agree (livePropertyRequirements sn r) v v')
    (he : ∀ pr ∈ r.resolves sn, v.extensionValue pr = v'.extensionValue pr)
    (hl : ∀ i, r = .allProp i → v.activeLocks = v'.activeLocks) :
    composedProperties h sn v r = composedProperties h sn v' r := by
  cases r with
  | allProp i =>
    obtain ⟨hf, hi⟩ := agree_foldl.mp ha
    exact allProperties_congr (hf .metadata rfl) (hl i rfl) (hf .deadProperties rfl)
      (hf .currentPrincipal) hi he
  | propName =>
    refine propertyNames_congr (ha .metadata rfl) (ha .deadProperties rfl) (ha .quota) ?_
    intro p hp
    refine ha .extensionValues ?_
    have hmem := mem_extensions.mpr hp
    show (!sn.extensions.isEmpty) = true
    cases hempty : sn.extensions with
    | nil =>
      rw [hempty] at hmem
      cases hmem
    | cons first rs => rfl
  | prop requested =>
    obtain ⟨-, hr⟩ := agree_foldl.mp ha
    exact requestedProperties_congr hr he

end AsterForge.Webdav
