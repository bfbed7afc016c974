import AsterForge.Library.Text

/-!
# Live properties

The catalog of live properties: the standard ones, and those that extension packages contribute.  What a target
is capable of is planned once, and decides which of them it has.

* `DavRequestedProperty`, `liveProperty` — a property as a client names it, and which live one it is.
* **`mem_catalog`**, `exists_package` — a live property is of every resource, or it is there through a package.
-/

namespace AsterForge.Webdav

open Library

/-! ## The catalog -/

/-- Standard live properties that can be discovered through the catalog. -/
inductive DavLiveProperty
  | creationDate
  | displayName
  | getContentLanguage
  | getContentLength
  | getContentType
  | getEtag
  | getLastModified
  | lockDiscovery
  | resourceType
  | supportedLock
  | alternateUriSet
  | principalUrl
  | groupMemberSet
  | groupMembership
  | owner
  | group
  | supportedPrivilegeSet
  | currentUserPrivilegeSet
  | acl
  | aclRestrictions
  | inheritedAclSet
  | principalCollectionSet
  | comment
  | creatorDisplayName
  | supportedMethodSet
  | supportedLivePropertySet
  | supportedReportSet
  | checkedIn
  | autoVersion
  | checkedOut
  | predecessorSet
  | successorSet
  | checkoutSet
  | versionName
  | checkoutFork
  | checkinFork
  | versionSet
  | rootVersion
  | versionHistory
  | workspaceCheckoutSet
  | workspace
  | labelNameSet
  | autoUpdate
  | mergeSet
  | autoMergeSet
  | baselineControlledCollection
  | subbaselineSet
  | baselineCollection
  | versionControlledConfiguration
  | baselineControlledCollectionSet
  | activityVersionSet
  | activityCheckoutSet
  | subactivitySet
  | currentWorkspaceSet
  | activitySet
  | unreserved
  | currentActivitySet
  | eclipsedSet
  | versionControlledBindingSet
  | supportedQueryGrammarSet
  | quotaAvailableBytes
  | quotaUsedBytes
  | syncToken
  | currentUserPrincipal
  | orderingType
  | redirectLifetime
  | refTarget
  | resourceId
  | parentSet
  | addMember
  deriving DecidableEq

def DavLiveProperty.localName : DavLiveProperty → Text
  | .creationDate => "creationdate".toList
  | .displayName => "displayname".toList
  | .getContentLanguage => "getcontentlanguage".toList
  | .getContentLength => "getcontentlength".toList
  | .getContentType => "getcontenttype".toList
  | .getEtag => "getetag".toList
  | .getLastModified => "getlastmodified".toList
  | .lockDiscovery => "lockdiscovery".toList
  | .resourceType => "resourcetype".toList
  | .supportedLock => "supportedlock".toList
  | .alternateUriSet => "alternate-URI-set".toList
  | .principalUrl => "principal-URL".toList
  | .groupMemberSet => "group-member-set".toList
  | .groupMembership => "group-membership".toList
  | .owner => "owner".toList
  | .group => "group".toList
  | .supportedPrivilegeSet => "supported-privilege-set".toList
  | .currentUserPrivilegeSet => "current-user-privilege-set".toList
  | .acl => "acl".toList
  | .aclRestrictions => "acl-restrictions".toList
  | .inheritedAclSet => "inherited-acl-set".toList
  | .principalCollectionSet => "principal-collection-set".toList
  | .comment => "comment".toList
  | .creatorDisplayName => "creator-displayname".toList
  | .supportedMethodSet => "supported-method-set".toList
  | .supportedLivePropertySet => "supported-live-property-set".toList
  | .supportedReportSet => "supported-report-set".toList
  | .checkedIn => "checked-in".toList
  | .autoVersion => "auto-version".toList
  | .checkedOut => "checked-out".toList
  | .predecessorSet => "predecessor-set".toList
  | .successorSet => "successor-set".toList
  | .checkoutSet => "checkout-set".toList
  | .versionName => "version-name".toList
  | .checkoutFork => "checkout-fork".toList
  | .checkinFork => "checkin-fork".toList
  | .versionSet => "version-set".toList
  | .rootVersion => "root-version".toList
  | .versionHistory => "version-history".toList
  | .workspaceCheckoutSet => "workspace-checkout-set".toList
  | .workspace => "workspace".toList
  | .labelNameSet => "label-name-set".toList
  | .autoUpdate => "auto-update".toList
  | .mergeSet => "merge-set".toList
  | .autoMergeSet => "auto-merge-set".toList
  | .baselineControlledCollection => "baseline-controlled-collection".toList
  | .subbaselineSet => "subbaseline-set".toList
  | .baselineCollection => "baseline-collection".toList
  | .versionControlledConfiguration => "version-controlled-configuration".toList
  | .baselineControlledCollectionSet => "baseline-controlled-collection-set".toList
  | .activityVersionSet => "activity-version-set".toList
  | .activityCheckoutSet => "activity-checkout-set".toList
  | .subactivitySet => "subactivity-set".toList
  | .currentWorkspaceSet => "current-workspace-set".toList
  | .activitySet => "activity-set".toList
  | .unreserved => "unreserved".toList
  | .currentActivitySet => "current-activity-set".toList
  | .eclipsedSet => "eclipsed-set".toList
  | .versionControlledBindingSet => "version-controlled-binding-set".toList
  | .supportedQueryGrammarSet => "supported-query-grammar-set".toList
  | .quotaAvailableBytes => "quota-available-bytes".toList
  | .quotaUsedBytes => "quota-used-bytes".toList
  | .syncToken => "sync-token".toList
  | .currentUserPrincipal => "current-user-principal".toList
  | .orderingType => "ordering-type".toList
  | .redirectLifetime => "redirect-lifetime".toList
  | .refTarget => "reftarget".toList
  | .resourceId => "resource-id".toList
  | .parentSet => "parent-set".toList
  | .addMember => "add-member".toList

inductive DavReportType
  | versionTree
  | expandProperty
  | locateByHistory
  | mergePreview
  | compareBaseline
  | latestActivityVersion
  | aclPrincipalPropSet
  | principalMatch
  | principalPropertySearch
  | principalSearchPropertySet
  | syncCollection

def DavReportType.localName : DavReportType → Text
  | .versionTree => "version-tree".toList
  | .expandProperty => "expand-property".toList
  | .locateByHistory => "locate-by-history".toList
  | .mergePreview => "merge-preview".toList
  | .compareBaseline => "compare-baseline".toList
  | .latestActivityVersion => "latest-activity-version".toList
  | .aclPrincipalPropSet => "acl-principal-prop-set".toList
  | .principalMatch => "principal-match".toList
  | .principalPropertySearch => "principal-property-search".toList
  | .principalSearchPropertySet => "principal-search-property-set".toList
  | .syncCollection => "sync-collection".toList

inductive DavExtensionPackage
  | accessControl
  | versionControl
  | checkoutInPlace
  | versionHistory
  | workspace
  | update
  | label
  | workingResource
  | merge
  | baseline
  | activity
  | versionControlledCollection
  | search
  | quota
  | collectionSync
  | extendedMkcol
  | currentPrincipal
  | orderedCollections
  | redirectReferences
  | bindings
  | addMember
  | prefer
  deriving DecidableEq

namespace DavExtensionPackage

def all : List DavExtensionPackage :=
  [.accessControl, .versionControl, .checkoutInPlace, .versionHistory, .workspace, .update, .label,
    .workingResource, .merge, .baseline, .activity, .versionControlledCollection, .search, .quota,
    .collectionSync, .extendedMkcol, .currentPrincipal, .orderedCollections, .redirectReferences, .bindings,
    .addMember, .prefer]

def liveProperties : DavExtensionPackage → List DavLiveProperty
  | .accessControl =>
    [.alternateUriSet, .principalUrl, .groupMemberSet, .groupMembership, .owner, .group,
      .supportedPrivilegeSet, .currentUserPrivilegeSet, .acl, .aclRestrictions, .inheritedAclSet,
      .principalCollectionSet]
  | .versionControl =>
    [.comment, .creatorDisplayName, .supportedMethodSet, .supportedLivePropertySet, .supportedReportSet,
      .checkedIn, .autoVersion, .checkedOut, .predecessorSet, .successorSet, .checkoutSet, .versionName]
  | .checkoutInPlace => [.checkoutFork, .checkinFork]
  | .versionHistory => [.versionSet, .rootVersion, .versionHistory]
  | .workspace => [.workspaceCheckoutSet, .workspace]
  | .update => []
  | .label => [.labelNameSet]
  | .workingResource => [.autoUpdate]
  | .merge => [.mergeSet, .autoMergeSet]
  | .baseline =>
    [.baselineControlledCollection, .subbaselineSet, .baselineCollection, .versionControlledConfiguration,
      .baselineControlledCollectionSet]
  | .activity =>
    [.activityVersionSet, .activityCheckoutSet, .subactivitySet, .currentWorkspaceSet, .activitySet,
      .unreserved, .currentActivitySet]
  | .versionControlledCollection => [.eclipsedSet, .versionControlledBindingSet]
  | .search => [.supportedQueryGrammarSet]
  | .quota => [.quotaAvailableBytes, .quotaUsedBytes]
  | .collectionSync => [.syncToken]
  | .extendedMkcol => []
  | .currentPrincipal => [.currentUserPrincipal]
  | .orderedCollections => [.orderingType]
  | .redirectReferences => [.redirectLifetime, .refTarget]
  | .bindings => [.resourceId, .parentSet]
  | .addMember => [.addMember]
  | .prefer => []

def reports : DavExtensionPackage → List DavReportType
  | .accessControl =>
    [.aclPrincipalPropSet, .principalMatch, .principalPropertySearch, .principalSearchPropertySet]
  | .versionControl => [.versionTree, .expandProperty]
  | .checkoutInPlace => []
  | .versionHistory => [.locateByHistory]
  | .workspace => []
  | .update => []
  | .label => []
  | .workingResource => []
  | .merge => [.mergePreview]
  | .baseline => [.compareBaseline]
  | .activity => [.latestActivityVersion]
  | .versionControlledCollection => []
  | .search => []
  | .quota => []
  | .collectionSync => [.syncCollection]
  | .extendedMkcol => []
  | .currentPrincipal => []
  | .orderedCollections => []
  | .redirectReferences => []
  | .bindings => []
  | .addMember => []
  | .prefer => []

end DavExtensionPackage

def baseLiveProperties : List DavLiveProperty :=
  [.creationDate, .displayName, .getContentLanguage, .getContentLength, .getContentType, .getEtag,
    .getLastModified, .lockDiscovery, .resourceType, .supportedLock]

def isBaseProperty (property : DavLiveProperty) : Bool := baseLiveProperties.contains property

/-! ## Capabilities -/

/-- What a request target is. -/
inductive DavResourceState
  | unmapped
  | file
  | collection
  | mountRoot
  | principal
  | redirectReference
  | addMemberEndpoint
  deriving DecidableEq

inductive DavVersioningState
  | unsupported
  | versionable
  | checkedIn
  | checkedOut
  | version
  deriving DecidableEq

inductive DavLockingCapability
  | disabled
  | class2
  deriving DecidableEq

structure DavSearchGrammar where
  xmlNamespace : Text
  xmlLocalName : Text

/-- What a product says of a target. -/
structure DavCapabilityDeclaration where
  resource : DavResourceState
  versioning : DavVersioningState
  locking : DavLockingCapability
  extensions : DavExtensionPackage → Bool
  grammars : List DavSearchGrammar
  class1 : Bool

/-- The capabilities of a target.  They are planned from a declaration, which is refused if it has an extension
without the first compliance class. -/
structure DavCapabilitySnapshot where
  declaration : DavCapabilityDeclaration
  /-- The names of the supported methods, in canonical order. -/
  supportedMethods : List Text
  class1_of_extension : ∀ package, declaration.extensions package = true → declaration.class1 = true

def versioningLiveProperty (state : DavVersioningState) : DavLiveProperty → Bool
  | .checkedIn => state = .checkedIn
  | .checkedOut => state = .checkedOut
  | .autoVersion => state = .checkedIn || state = .checkedOut
  | .predecessorSet => state = .checkedOut || state = .version
  | .successorSet | .checkoutSet | .versionName => state = .version
  | _ => true

namespace DavCapabilitySnapshot

variable (snapshot : DavCapabilitySnapshot)

def extensions : List DavExtensionPackage := DavExtensionPackage.all.filter snapshot.declaration.extensions

def supportsExtension (package : DavExtensionPackage) : Bool := snapshot.declaration.extensions package

def supportsLiveProperty (property : DavLiveProperty) : Bool :=
  snapshot.extensions.any fun package =>
    package.liveProperties.contains property &&
      (package ≠ .versionControl || versioningLiveProperty snapshot.declaration.versioning property)

def catalog : List DavLiveProperty :=
  baseLiveProperties ++ snapshot.extensions.flatMap DavExtensionPackage.liveProperties

end DavCapabilitySnapshot

/-! ## Requested properties -/

structure DavRequestedProperty where
  name : Text
  namespaceUri : Option Text
  nsPrefix : Option Text

inductive DavPropfindRequest
  | allProp (included : List DavRequestedProperty)
  | propName
  | prop (properties : List DavRequestedProperty)

def canonicalProperty (property : DavLiveProperty) : DavRequestedProperty where
  name := property.localName
  namespaceUri := some "DAV:".toList
  nsPrefix := some "D".toList

def liveProperty (requested : DavRequestedProperty) : Option DavLiveProperty :=
  if requested.namespaceUri ≠ some "DAV:".toList then none
  else
    (baseLiveProperties ++ DavExtensionPackage.all.flatMap DavExtensionPackage.liveProperties).find? fun property =>
      property.localName = requested.name

def resolvedProperty (snapshot : DavCapabilitySnapshot) (requested : DavRequestedProperty) :
    Option DavLiveProperty :=
  (liveProperty requested).filter fun property =>
    isBaseProperty property || snapshot.supportsLiveProperty property

/-! ## Packages and their properties -/

namespace DavCapabilitySnapshot

variable {s : DavCapabilitySnapshot} {pr : DavLiveProperty} {p : DavExtensionPackage}

lemma mem_extensions : p ∈ s.extensions ↔ s.supportsExtension p = true := by
  have hall : p ∈ DavExtensionPackage.all := by cases p <;> decide
  rw [extensions, List.mem_filter]
  exact and_iff_right hall

/-- **The catalog** of a target has the standard properties and those of its packages. -/
theorem mem_catalog : pr ∈ s.catalog ↔ isBaseProperty pr = true ∨
    ∃ p, s.supportsExtension p = true ∧ pr ∈ p.liveProperties := by
  simp [catalog, mem_extensions, isBaseProperty]

lemma exists_package (h : s.supportsLiveProperty pr = true) :
    ∃ p, s.supportsExtension p = true ∧ pr ∈ p.liveProperties := by
  simp only [supportsLiveProperty, List.any_eq_true, Bool.and_eq_true, List.contains_iff_mem, mem_extensions] at h
  obtain ⟨p, hpc, hp, -⟩ := h
  exact ⟨p, hpc, hp⟩

lemma class1_of_supportsExtension (h : s.supportsExtension p = true) : s.declaration.class1 = true :=
  s.class1_of_extension p h

end DavCapabilitySnapshot

end AsterForge.Webdav
