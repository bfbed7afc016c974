import AsterForge.Library.Budget
import AsterForge.Webdav.PropertyElements

/-!
# Composition of properties

The answer to a PROPFIND request for one resource is composed from values that a product fetches in one batch.
Which groups of values a request needs is computed before, so that no others are fetched; what is composed is
kept within limits.
-/

namespace AsterForge.Webdav

open Library Xml

/-! ## Values -/

/-- Metadata values fetched once for all standard content and validator properties. -/
structure DavLivePropertyMetadata where
  creationDate : Option ℤ := none
  displayName : Option Text := none
  contentLanguage : Option Text := none
  contentLength : Option ℕ := none
  contentType : Option Text := none
  etag : Option Text := none
  lastModified : Option ℤ := none

structure DavQuotaSnapshot where
  usedBytes : ℕ
  availableBytes : Option ℕ

inductive DavCurrentPrincipal
  | href (href : Text)
  | unauthenticated

/-- Product-owned batch snapshot consumed by the property composer. -/
structure DavLivePropertyValues where
  metadata : DavLivePropertyMetadata := {}
  activeLocks : List DavLockXml := []
  deadProperties : List DavProp := []
  quota : Option DavQuotaSnapshot := none
  currentPrincipal : Option DavCurrentPrincipal := none
  syncToken : Option Text := none
  addMemberHref : Option Text := none
  extensionValue : DavLiveProperty → Option DavXmlElement := fun _ => none

/-- Per-resource property composition bounds. -/
structure DavPropertyMaterializationLimits where
  maximumBytes : ℕ
  maximumProperties : ℕ

/-- Failure while rendering product values as live properties. -/
inductive DavLivePropertyError
  | limitExceeded
  | invalidRepresentation (property : DavLiveProperty)
  | missingRequiredValue (property : DavLiveProperty)

/-! ## Requirements -/

/-- Value groups that a product adapter should fetch in one batch. -/
structure DavLivePropertyRequirements where
  metadata : Bool := false
  locks : Bool := false
  deadProperties : Bool := false
  quota : Bool := false
  currentPrincipal : Bool := false
  syncToken : Bool := false
  addMember : Bool := false
  extensionValues : Bool := false

def addLiveRequirement (snapshot : DavCapabilitySnapshot) (property : DavLiveProperty)
    (requirements : DavLivePropertyRequirements) : DavLivePropertyRequirements :=
  match property with
  | .creationDate | .displayName | .getContentLanguage | .getContentLength | .getContentType | .getEtag
  | .getLastModified | .resourceType => { requirements with metadata := true }
  | .lockDiscovery | .supportedLock => { requirements with locks := true }
  | .quotaAvailableBytes | .quotaUsedBytes =>
    { requirements with quota := requirements.quota || snapshot.supportsExtension .quota }
  | .currentUserPrincipal =>
    { requirements with
      currentPrincipal := requirements.currentPrincipal || snapshot.supportsExtension .currentPrincipal }
  | .syncToken =>
    { requirements with syncToken := requirements.syncToken || snapshot.supportsExtension .collectionSync }
  | .addMember =>
    { requirements with addMember := requirements.addMember || snapshot.supportsExtension .addMember }
  | property =>
    { requirements with
      extensionValues := requirements.extensionValues || snapshot.supportsLiveProperty property }

/-- A name that is resolved as no live property asks for the stored ones. -/
def addRequirement (snapshot : DavCapabilitySnapshot) (requested : DavRequestedProperty)
    (requirements : DavLivePropertyRequirements) : DavLivePropertyRequirements :=
  match resolvedProperty snapshot requested with
  | none => { requirements with deadProperties := true }
  | some property => addLiveRequirement snapshot property requirements

/-- Computes the value groups required by one PROPFIND selection. -/
def livePropertyRequirements (snapshot : DavCapabilitySnapshot) :
    DavPropfindRequest → DavLivePropertyRequirements
  | .allProp included =>
    included.foldl (fun requirements requested => addRequirement snapshot requested requirements) {
      metadata := true
      locks := snapshot.declaration.class1
      deadProperties := true
      currentPrincipal := snapshot.supportsExtension .currentPrincipal }
  | .propName => {
      metadata := true
      locks := snapshot.declaration.class1
      deadProperties := true
      quota := snapshot.supportsExtension .quota
      currentPrincipal := snapshot.supportsExtension .currentPrincipal
      syncToken := snapshot.supportsExtension .collectionSync
      addMember := snapshot.supportsExtension .addMember
      extensionValues := !snapshot.extensions.isEmpty }
  | .prop properties =>
    properties.foldl (fun requirements requested => addRequirement snapshot requested requirements) {}

/-! ## Limits -/

/-- How many bytes and how many properties may still be composed. -/
@[ext]
structure PropertyBudget where
  bytes : ℕ
  properties : ℕ

abbrev Composing (α : Type) : Type := Stateful PropertyBudget DavLivePropertyError α

/-- A computation that depends on the bytes that remain, and takes none. -/
def withRemaining {α : Type} (look : ℕ → Except DavLivePropertyError α) : Composing α :=
  fun budget => (look budget.bytes, budget)

def takeBytes (bytes : ℕ) : Composing Unit := fun budget =>
  if bytes ≤ budget.bytes then (.ok (), { budget with bytes := budget.bytes - bytes })
  else (.error .limitExceeded, budget)

def takeProperty : Composing Unit := fun budget =>
  if 1 ≤ budget.properties then (.ok (), { budget with properties := budget.properties - 1 })
  else (.error .limitExceeded, budget)

def optionBytes (text : Option Text) : ℕ := (text.map utf8Length).getD 0

/-- What a child is charged with, besides the elements. -/
def propertyNodeBytes (host : PropertyHost) (node : DavXmlNode) : ℕ :=
  host.sizeOfNode + match node with
    | .element _ _ => 0
    | .text value | .cdata value | .comment value => utf8Length value
    | .processingInstruction target content => utf8Length target + optionBytes content

def propertyElementBytes (host : PropertyHost) (element : DavXmlElement) : ℕ :=
  host.sizeOfElement + utf8Length element.head.name + optionBytes element.head.nsPrefix +
    optionBytes element.head.namespaceUri +
    ((element.head.namespaces.entries ++ element.head.attributes.entries).map fun entry =>
      utf8Length entry.1 + utf8Length entry.2 + host.sizeOfPair).sum +
    (element.children.map (propertyNodeBytes host)).sum

mutual

/-- An element and those below it, in the order in which they leave the stack on which they wait. -/
def pendingNode : DavXmlNode → List DavXmlElement
  | .element head children => ⟨head, children⟩ :: pendingChildren children
  | .text _ | .cdata _ | .comment _ | .processingInstruction _ _ => []

def pendingChildren : List DavXmlNode → List DavXmlElement
  | [] => []
  | node :: nodes => pendingChildren nodes ++ pendingNode node

end

def chargePropertyElement (host : PropertyHost) (root : DavXmlElement) : Composing Unit :=
  (pendingNode root.node).forM fun element => takeBytes (propertyElementBytes host element)

/-- An element takes one property of the budget, and the bytes of it and of all below it. -/
def pushProperty (host : PropertyHost) (output : List DavXmlElement) (element : DavXmlElement) :
    Composing (List DavXmlElement) := do
  takeProperty
  chargePropertyElement host element
  return output ++ [element]

/-! ## Values as text -/

inductive UriSchemePolicy
  | any
  | httpOrHttps

structure UriValidationPolicy where
  schemes : UriSchemePolicy
  allowPathAbsolute : Bool

namespace UriValidationPolicy

def absolute : UriValidationPolicy := ⟨.any, false⟩

def httpAbsolute : UriValidationPolicy := ⟨.httpOrHttps, false⟩

def httpOrAbsolutePath : UriValidationPolicy := ⟨.httpOrHttps, true⟩

end UriValidationPolicy

def uriMatchesPolicy (host : PropertyHost) (value : Text) (policy : UriValidationPolicy) : Bool :=
  if trim value ≠ value then false
  else if policy.allowPathAbsolute ∧ "/".toList.isPrefixOf value ∧ ¬ "//".toList.isPrefixOf value then
    (host.parseUri value).any fun uri => uri.scheme.isNone && !uri.hasAuthority
  else
    match policy.schemes with
    | .any => host.isAbsoluteUrl value
    | .httpOrHttps =>
      (host.parseUri value).any fun uri =>
        (uri.scheme.any fun scheme =>
          eqIgnoreAsciiCase scheme "http".toList || eqIgnoreAsciiCase scheme "https".toList) && uri.hasAuthority

def requiredUri (host : PropertyHost) (value : Option Text) (property : DavLiveProperty)
    (policy : UriValidationPolicy) : Except DavLivePropertyError Text := do
  let value ← okOr (.missingRequiredValue property) value
  refuse (uriMatchesPolicy host value policy = false) (.invalidRepresentation property)
  return value

def requiredUriText (host : PropertyHost) (value : Option Text) (property : DavLiveProperty)
    (requested : DavRequestedProperty) : Except DavLivePropertyError DavXmlElement := do
  let value ← requiredUri host value property .absolute
  return davPropertyTextElement requested value

def requiredHrefElement (host : PropertyHost) (value : Option Text) (property : DavLiveProperty)
    (requested : DavRequestedProperty) : Except DavLivePropertyError DavXmlElement := do
  let value ← requiredUri host value property .httpOrAbsolutePath
  return davPropertyChildElement requested (davTextElement "href".toList value)

def principalElement (host : PropertyHost) : DavCurrentPrincipal → Except DavLivePropertyError DavXmlElement
  | .href href =>
    (requiredUri host (some href) .currentUserPrincipal .httpAbsolute).map (davTextElement "href".toList)
  | .unauthenticated => .ok (davElement "unauthenticated".toList)

def currentPrincipalElement (host : PropertyHost) (value : Option DavCurrentPrincipal)
    (requested : DavRequestedProperty) : Except DavLivePropertyError DavXmlElement := do
  let value ← okOr (.missingRequiredValue .currentUserPrincipal) value
  let child ← principalElement host value
  return davPropertyChildElement requested child

/-! ## Values of the capabilities -/

section

variable (snapshot : DavCapabilitySnapshot) (requested : DavRequestedProperty)

def supportedMethodSet : DavXmlElement :=
  snapshot.supportedMethods.foldl (fun root method =>
    root.push ((davElement "supported-method".toList).withAttribute "name".toList method).node)
    (davPropertyNameElement requested)

def supportedLivePropertySet : DavXmlElement :=
  snapshot.catalog.foldl (fun root property =>
    let prop := (davElement "prop".toList).push (davElement property.localName).node
    root.push ((davElement "supported-live-property".toList).push prop.node).node)
    (davPropertyNameElement requested)

def supportedReportSet : DavXmlElement :=
  (snapshot.extensions.flatMap DavExtensionPackage.reports).foldl (fun root report =>
    let element := (davElement "report".toList).push (davElement report.localName).node
    root.push ((davElement "supported-report".toList).push element.node).node)
    (davPropertyNameElement requested)

def supportedQueryGrammarSet : DavXmlElement :=
  snapshot.declaration.grammars.foldl (fun root grammar =>
    let grammarType := DavXmlElement.new grammar.xmlLocalName
    let grammarType := if grammar.xmlNamespace ≠ [] then
        { grammarType with head := { grammarType.head with namespaceUri := some grammar.xmlNamespace } }
      else grammarType
    let element := (davElement "grammar".toList).push grammarType.node
    root.push ((davElement "supported-query-grammar".toList).push element.node).node)
    (davPropertyNameElement requested)

def resourceTypeElement : Option DavXmlElement :=
  let root := davPropertyNameElement requested
  match snapshot.declaration.resource with
  | .unmapped => none
  | .file | .addMemberEndpoint => some root
  | .collection | .mountRoot => some (root.push (davElement "collection".toList).node)
  | .principal => some (root.push (davElement "principal".toList).node)
  | .redirectReference => some (root.push (davElement "redirectref".toList).node)

end

/-! ## One property -/

section

variable (host : PropertyHost) (snapshot : DavCapabilitySnapshot) (values : DavLivePropertyValues)

variable (property : DavLiveProperty)

def propertyInAllprop : Bool :=
  isBaseProperty property || property = .currentUserPrincipal

/-- Whether `propname` lists the property. -/
def propertyIsDefined : Bool :=
  match property with
  | .creationDate => values.metadata.creationDate.isSome
  | .displayName => values.metadata.displayName.isSome
  | .getContentLanguage => values.metadata.contentLanguage.isSome
  | .getContentLength => values.metadata.contentLength.isSome
  | .getContentType => values.metadata.contentType.isSome
  | .getEtag => values.metadata.etag.isSome
  | .getLastModified => values.metadata.lastModified.isSome
  | .lockDiscovery | .supportedLock => snapshot.declaration.class1
  | .resourceType => snapshot.declaration.resource ≠ .unmapped
  | .quotaAvailableBytes => (values.quota.bind DavQuotaSnapshot.availableBytes).isSome
  | .quotaUsedBytes => values.quota.isSome
  | .syncToken => snapshot.supportsExtension .collectionSync
  | .currentUserPrincipal => snapshot.supportsExtension .currentPrincipal
  | .addMember => snapshot.supportsExtension .addMember
  | .supportedMethodSet | .supportedLivePropertySet | .supportedReportSet =>
    snapshot.supportsExtension .versionControl
  | .supportedQueryGrammarSet => snapshot.supportsExtension .search
  | property => (values.extensionValue property).isSome

def propertySourceBytes : ℕ :=
  match property with
  | .displayName => optionBytes values.metadata.displayName
  | .getContentLanguage => optionBytes values.metadata.contentLanguage
  | .getContentType => optionBytes values.metadata.contentType
  | .getEtag => optionBytes values.metadata.etag
  | .syncToken => optionBytes values.syncToken
  | .addMember => optionBytes values.addMemberHref
  | _ => 0

/-- An extension value is tried against the bytes that remain, whatever the property is. -/
def checkPropertySourceSize (remainingBytes : ℕ) : Except DavLivePropertyError Unit := do
  refuse (remainingBytes < propertySourceBytes values property) .limitExceeded
  match values.extensionValue property with
  | some element => (chargePropertyElement host element ⟨remainingBytes, 2 ^ 64 - 1⟩).1
  | none => return

def livePropertyElement (requested : DavRequestedProperty) :
    Except DavLivePropertyError (Option DavXmlElement) :=
  match property with
  | .creationDate => .ok (values.metadata.creationDate.map fun value =>
    davPropertyTextElement requested (host.formatCreationDate value))
  | .displayName => .ok (values.metadata.displayName.map (davPropertyTextElement requested))
  | .getContentLanguage => .ok (values.metadata.contentLanguage.map (davPropertyTextElement requested))
  | .getContentLength => .ok (values.metadata.contentLength.map fun value =>
    davPropertyTextElement requested (toString value).toList)
  | .getContentType => .ok (values.metadata.contentType.map (davPropertyTextElement requested))
  | .getEtag => .ok (values.metadata.etag.map (davPropertyTextElement requested))
  | .getLastModified =>
    match values.metadata.lastModified with
    | some value => do
      let text ← okOr (.invalidRepresentation property) (host.formatHttpDate value)
      return some (davPropertyTextElement requested text)
    | none => .ok none
  | .resourceType => .ok (resourceTypeElement snapshot requested)
  | .supportedLock =>
    .ok (some (relexicalize (if snapshot.declaration.locking = .class2 then davSupportedLockElement
        else davElement "supportedlock".toList) requested))
  | .lockDiscovery => .ok (some (relexicalize (davLockDiscoveryElement host values.activeLocks) requested))
  | .supportedMethodSet => .ok (some (supportedMethodSet snapshot requested))
  | .supportedLivePropertySet => .ok (some (supportedLivePropertySet snapshot requested))
  | .supportedReportSet => .ok (some (supportedReportSet snapshot requested))
  | .supportedQueryGrammarSet => .ok (some (supportedQueryGrammarSet snapshot requested))
  | .quotaUsedBytes =>
    match values.quota with
    | some quota => .ok (some (davPropertyTextElement requested (toString quota.usedBytes).toList))
    | none =>
      if snapshot.declaration.resource = .collection ∨ snapshot.declaration.resource = .mountRoot then
        .error (.missingRequiredValue property)
      else .ok none
  | .quotaAvailableBytes =>
    .ok ((values.quota.bind DavQuotaSnapshot.availableBytes).map fun value =>
      davPropertyTextElement requested (toString value).toList)
  | .syncToken => (requiredUriText host values.syncToken property requested).map some
  | .currentUserPrincipal => (currentPrincipalElement host values.currentPrincipal requested).map some
  | .addMember => (requiredHrefElement host values.addMemberHref property requested).map some
  | property => .ok ((values.extensionValue property).map fun element => relexicalize element requested)

def resolveLiveProperty (requested : DavRequestedProperty) (remainingBytes : ℕ) :
    Except DavLivePropertyError (Option DavXmlElement) := do
  checkPropertySourceSize host values property remainingBytes
  livePropertyElement host snapshot values property requested

def findDeadProperty (dead : List DavProp) (requested : DavRequestedProperty) : Option DavProp :=
  dead.find? fun property => property.name = requested.name ∧ property.namespaceUri = requested.namespaceUri

def deadPropertyBytes (property : DavProp) : ℕ := (property.xml.map List.length).getD 0

def selectorBytes (requested : DavRequestedProperty) : ℕ :=
  utf8Length requested.name + optionBytes requested.nsPrefix + optionBytes requested.namespaceUri * 2

def resolveDeadProperty (requested : DavRequestedProperty) (remainingBytes : ℕ) :
    Except DavLivePropertyError (Option DavXmlElement) :=
  match findDeadProperty values.deadProperties requested with
  | none => .ok none
  | some dead => do
    refuse (remainingBytes < deadPropertyBytes dead) .limitExceeded
    return some (davDeadPropertyElement host (deadPropertyName dead) (some requested) dead.xml)

/-- A property that is not resolved as a live one is looked for among the stored ones. -/
def resolveRequestedProperty (requested : DavRequestedProperty) (remainingBytes : ℕ) :
    Except DavLivePropertyError (Option DavXmlElement) := do
  refuse (remainingBytes < selectorBytes requested) .limitExceeded
  match resolvedProperty snapshot requested with
  | some property => resolveLiveProperty host snapshot values property requested remainingBytes
  | none => resolveDeadProperty host values requested remainingBytes

end

/-! ## The answer -/

def containsExpandedName (elements : List DavXmlElement) (requested : DavRequestedProperty) : Bool :=
  elements.any fun element =>
    element.head.name = requested.name && element.head.namespaceUri = requested.namespaceUri

def propstatGroups (ok missing : List DavXmlElement) : List DavPropStat :=
  (if ok.isEmpty then [] else [⟨200, ok⟩]) ++ if missing.isEmpty then [] else [⟨404, missing⟩]

/-- The properties that are found and those that are missing, while they are composed. -/
structure PropertyGroups where
  ok : List DavXmlElement := []
  missing : List DavXmlElement := []

section

variable (host : PropertyHost) (snapshot : DavCapabilitySnapshot) (values : DavLivePropertyValues)

def resolveInto (groups : PropertyGroups) (requested : DavRequestedProperty) : Composing PropertyGroups := do
  match ← withRemaining (resolveRequestedProperty host snapshot values requested) with
  | some element => return { groups with ok := ← pushProperty host groups.ok element }
  | none => return { groups with missing := ← pushProperty host groups.missing (davPropertyNameElement requested) }

def appendCatalogProperty (ok : List DavXmlElement) (property : DavLiveProperty) :
    Composing (List DavXmlElement) :=
  if propertyInAllprop property then do
    match ← withRemaining (resolveLiveProperty host snapshot values property (canonicalProperty property)) with
    | some element => pushProperty host ok element
    | none => return ok
  else return ok

def appendDeadProperty (output : List DavXmlElement) (property : DavProp) : Composing (List DavXmlElement) :=
  if containsExpandedName output (deadPropertyName property) then return output
  else do
    withRemaining fun remaining => refuse (remaining < deadPropertyBytes property) .limitExceeded
    pushProperty host output (davDeadPropertyElement host (deadPropertyName property) none property.xml)

/-- What `allprop` has already is not resolved again. -/
def appendIncluded (groups : PropertyGroups) (requested : DavRequestedProperty) : Composing PropertyGroups :=
  if containsExpandedName groups.ok requested then return groups
  else resolveInto host snapshot values groups requested

def allProperties (included : List DavRequestedProperty) : Composing (List DavPropStat) := do
  let ok ← snapshot.catalog.foldlM (appendCatalogProperty host snapshot values) []
  let ok ← values.deadProperties.foldlM (appendDeadProperty host) ok
  let groups ← included.foldlM (appendIncluded host snapshot values) { ok := ok }
  return propstatGroups groups.ok groups.missing

def appendDefinedName (names : List DavXmlElement) (property : DavLiveProperty) :
    Composing (List DavXmlElement) :=
  if propertyIsDefined snapshot values property then
    pushProperty host names (davPropertyNameElement (canonicalProperty property))
  else return names

def propertyNames : Composing (List DavPropStat) := do
  let names ← snapshot.catalog.foldlM (appendDefinedName host snapshot values) []
  let names ← values.deadProperties.foldlM
    (fun names dead => pushProperty host names (davPropertyNameElement (deadPropertyName dead))) names
  return if names.isEmpty then [] else [⟨200, names⟩]

/-- The names that were asked for before, and what was found. -/
structure SeenProperties where
  seen : List (Option Text × Text) := []
  groups : PropertyGroups := {}

def appendRequested (state : SeenProperties) (requested : DavRequestedProperty) : Composing SeenProperties :=
  if state.seen.contains (requested.namespaceUri, requested.name) then return state
  else do
    let groups ← resolveInto host snapshot values state.groups requested
    return ⟨(requested.namespaceUri, requested.name) :: state.seen, groups⟩

def requestedProperties (requested : List DavRequestedProperty) : Composing (List DavPropStat) := do
  let state ← requested.foldlM (appendRequested host snapshot values) {}
  return propstatGroups state.groups.ok state.groups.missing

/-- The answer, by the kind of the request. -/
def composedProperties : DavPropfindRequest → Composing (List DavPropStat)
  | .allProp included => allProperties host snapshot values included
  | .propName => propertyNames host snapshot values
  | .prop requested => requestedProperties host snapshot values requested

/-- Composes properties within item-count and retained-value byte limits before serialization. -/
def buildLivePropfindItem (href : Text) (request : DavPropfindRequest)
    (limits : DavPropertyMaterializationLimits) : Except DavLivePropertyError DavMultiStatusItem := do
  refuse (limits.maximumBytes = 0 ∨ limits.maximumProperties = 0) .limitExceeded
  let groups ← (composedProperties host snapshot values request
    ⟨limits.maximumBytes, limits.maximumProperties⟩).1
  return ⟨href, none, groups, none⟩

end

end AsterForge.Webdav
