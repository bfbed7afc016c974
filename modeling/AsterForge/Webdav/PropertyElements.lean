import AsterForge.Library.Time
import AsterForge.Webdav.LiveProperty
import AsterForge.Webdav.Multistatus

/-!
# Elements of properties

A property is sent as an element under the name by which it was asked for.  The elements of locks and of
stored properties, and of values that a product supplies as elements, are composed here.

* `davDeadPropertyElement`, `davLockDiscoveryElement` — the elements of stored properties and of locks.
-/

namespace AsterForge.Webdav

open Library Xml

structure HttpUri where
  scheme : Option Text
  hasAuthority : Bool

/-- What libraries do: the tokenizer of XML, dates in their formats, the parsers of URIs and URLs, the encoding
of an href, and the sizes of elements, nodes and pairs of strings. -/
structure PropertyHost where
  tokenize : List UInt8 → TokenStream
  formatCreationDate : ℤ → Text
  formatHttpDate : ℤ → Option Text
  parseUri : Text → Option HttpUri
  isAbsoluteUrl : Text → Bool
  encodeHref : Text → Text
  sizeOfElement : ℕ
  sizeOfNode : ℕ
  sizeOfPair : ℕ

/-! ## Elements by their names -/

/-- Creates an element from a lexical name such as `D:href`. -/
def DavXmlElement.new (name : Text) : DavXmlElement where
  head := {
    name := (splitQualifiedName name).2
    nsPrefix := (splitQualifiedName name).1
    namespaceUri := none
    namespaces := .empty
    attributes := .empty }
  children := []

def DavXmlElement.push (element : DavXmlElement) (child : DavXmlNode) : DavXmlElement :=
  { element with children := element.children ++ [child] }

def DavXmlElement.withAttribute (element : DavXmlElement) (key value : Text) : DavXmlElement :=
  { element with head := { element.head with attributes := element.head.attributes.insert key value } }

def davElement (localName : Text) : DavXmlElement :=
  let element := DavXmlElement.new ("D:".toList ++ localName)
  { element with head := { element.head with namespaceUri := some davNamespace } }

def davTextElement (localName text : Text) : DavXmlElement := (davElement localName).push (.text text)

def defaultPropertyPrefix : Option Text → Text
  | some uri => if uri = davNamespace then "D".toList else "A".toList
  | none => []

variable (name : DavRequestedProperty)

def propertyElement (child : Option DavXmlNode) : DavXmlElement :=
  let nsPrefix := (name.nsPrefix.filter fun nsPrefix =>
    nsPrefix ≠ "xml".toList ∧ nsPrefix ≠ "xmlns".toList).getD (defaultPropertyPrefix name.namespaceUri)
  let tag := if name.namespaceUri.isSome then nsPrefix ++ ":".toList ++ name.name else name.name
  let element := DavXmlElement.new tag
  let element := { element with head := { element.head with namespaceUri := name.namespaceUri } }
  let element := match name.namespaceUri with
    | some uri =>
      if uri ≠ davNamespace ∨ nsPrefix ≠ "D".toList then element.withAttribute ("xmlns:".toList ++ nsPrefix) uri
      else element
    | none => element
  match child with
  | some child => element.push child
  | none => element

def davPropertyNameElement : DavXmlElement := propertyElement name none

def davPropertyTextElement (text : Text) : DavXmlElement :=
  propertyElement name (some (.text text))

def davPropertyChildElement (child : DavXmlElement) : DavXmlElement :=
  propertyElement name (some child.node)

/-! ## Stored properties -/

/-- How many bytes follow the first one of a character, and what the second one may be; nothing if no character
begins so. -/
def utf8Sequence (first : ℕ) : Option (ℕ × ℕ × ℕ) :=
  if first < 0x80 then some (0, 0x80, 0xBF)
  else if 0xC2 ≤ first ∧ first ≤ 0xDF then some (1, 0x80, 0xBF)
  else if first = 0xE0 then some (2, 0xA0, 0xBF)
  else if first = 0xED then some (2, 0x80, 0x9F)
  else if 0xE1 ≤ first ∧ first ≤ 0xEF then some (2, 0x80, 0xBF)
  else if first = 0xF0 then some (3, 0x90, 0xBF)
  else if first = 0xF4 then some (3, 0x80, 0x8F)
  else if 0xF1 ≤ first ∧ first ≤ 0xF3 then some (3, 0x80, 0xBF)
  else none

/-- The value of the bytes that continue a character, if all of them are there, and how many there are. -/
def utf8Continue : ℕ → ℕ → ℕ → ℕ → List ℕ → Option ℕ × ℕ
  | 0, value, _, _, _ => (some value, 0)
  | _ + 1, _, _, _, [] => (none, 0)
  | missing + 1, value, low, high, byte :: bytes =>
    if low ≤ byte ∧ byte ≤ high then
      let (result, count) := utf8Continue missing (value * 0x40 + byte % 0x40) 0x80 0xBF bytes
      (result, count + 1)
    else (none, 0)

def utf8Lead (first missing : ℕ) : ℕ := if missing = 0 then first else first % 2 ^ (6 - missing)

/-- The text of bytes, with a replacement character for each longest part that no character begins with.  There
are no more characters than bytes. -/
def utf8Lossy : ℕ → List ℕ → Text
  | 0, _ => []
  | _ + 1, [] => []
  | fuel + 1, first :: bytes =>
    match utf8Sequence first with
    | none => Char.ofNat 0xFFFD :: utf8Lossy fuel bytes
    | some (missing, low, high) =>
      let (value, count) := utf8Continue missing (utf8Lead first missing) low high bytes
      Char.ofNat (value.getD 0xFFFD) :: utf8Lossy fuel (bytes.drop count)

def fromUtf8Lossy (bytes : List UInt8) : Text := utf8Lossy bytes.length (bytes.map UInt8.toNat)

/-- Stored dead property. -/
structure DavProp where
  name : Text
  nsPrefix : Option Text
  namespaceUri : Option Text
  xml : Option (List UInt8)

def deadPropertyName (property : DavProp) : DavRequestedProperty where
  name := property.name
  namespaceUri := property.namespaceUri
  nsPrefix := property.nsPrefix

/-- An attribute of a stored element is taken over, unless it declares a namespace. -/
def takeAttribute (attributes : OrderedMap Text Text) (entry : Text × Text) : OrderedMap Text Text :=
  if "xmlns".toList.isPrefixOf entry.1 then attributes
  else
    let key := if entry.1 = "lang".toList then "xml:lang".toList else entry.1
    if (attributes.lookup key).isSome then attributes else attributes.insert key entry.2

def davDeadPropertyElement (host : PropertyHost) (storedName : DavRequestedProperty)
    (requestedName : Option DavRequestedProperty) (storedXml : Option (List UInt8)) : DavXmlElement :=
  let output := propertyElement (requestedName.getD storedName) none
  match storedXml.filter fun xml => !xml.isEmpty with
  | none => output
  | some storedXml =>
    let text := output.push (.text (fromUtf8Lossy storedXml))
    match DavXmlElement.parse host.tokenize storedXml with
    | .ok stored =>
      if stored.head.name = storedName.name ∧ stored.head.namespaceUri = storedName.namespaceUri then
        { head := { output.head with
            attributes := stored.head.attributes.entries.foldl takeAttribute output.head.attributes }
          children := stored.children }
      else text
    | .error _ => text

/-! ## Locks -/

structure DavLockXml where
  token : Text
  owner : Option DavXmlElement
  timeout : Option ℕ
  shared : Bool
  deep : Bool
  rootHref : Text

def activeLockElement (host : PropertyHost) (lock : DavLockXml) : DavXmlElement :=
  let scope := davElement (if lock.shared then "shared".toList else "exclusive".toList)
  let timeout := match lock.timeout with
    | some timeout => "Second-".toList ++ (toString (timeout / second)).toList
    | none => "Infinite".toList
  let active := davElement "activelock".toList
  let active := active.push ((davElement "lockscope".toList).push scope.node).node
  let active := active.push ((davElement "locktype".toList).push (davElement "write".toList).node).node
  let active := active.push
    (davTextElement "depth".toList (if lock.deep then "Infinity".toList else "0".toList)).node
  let active := match lock.owner with
    | some owner => active.push owner.node
    | none => active
  let active := active.push (davTextElement "timeout".toList timeout).node
  let active := active.push ((davElement "locktoken".toList).push
    (davTextElement "href".toList (host.encodeHref lock.token)).node).node
  active.push ((davElement "lockroot".toList).push (davTextElement "href".toList lock.rootHref).node).node

def davLockDiscoveryElement (host : PropertyHost) (locks : List DavLockXml) : DavXmlElement :=
  locks.foldl (fun discovery lock => discovery.push (activeLockElement host lock).node)
    (davElement "lockdiscovery".toList)

def lockEntryElement (scope : Text) : DavXmlElement :=
  let entry := davElement "lockentry".toList
  let entry := entry.push ((davElement "lockscope".toList).push (davElement scope).node).node
  entry.push ((davElement "locktype".toList).push (davElement "write".toList).node).node

def davSupportedLockElement : DavXmlElement :=
  ((davElement "supportedlock".toList).push (lockEntryElement "exclusive".toList).node).push
    (lockEntryElement "shared".toList).node

/-! ## Elements under other names -/

def attributeUsesPrefix (nsPrefix : Text) (entry : Text × Text) : Bool :=
  (splitOnce ':' entry.1).any fun parts => parts.1 = nsPrefix

def headUsesPrefix (nsPrefix : Text) (head : DavXmlHead) : Bool :=
  head.nsPrefix = some nsPrefix || head.attributes.entries.any (attributeUsesPrefix nsPrefix)

mutual

/-- `subtree_uses_prefix`, for a node. -/
def nodeUsesPrefix (nsPrefix : Text) : DavXmlNode → Bool
  | .element head children => headUsesPrefix nsPrefix head || childrenUsePrefix nsPrefix children
  | .text _ | .cdata _ | .comment _ | .processingInstruction _ _ => false

/-- `subtree_uses_prefix`, for the children of an element. -/
def childrenUsePrefix (nsPrefix : Text) : List DavXmlNode → Bool
  | [] => false
  | node :: nodes => nodeUsesPrefix nsPrefix node || childrenUsePrefix nsPrefix nodes

end

def relexicalize (element : DavXmlElement) (requested : DavRequestedProperty) : DavXmlElement :=
  let head := { element.head with
    name := requested.name, nsPrefix := requested.nsPrefix, namespaceUri := requested.namespaceUri }
  let renamed : DavXmlElement := ⟨{ head with namespaces := .empty }, element.children⟩
  let namespaces := head.namespaces.entries.foldl (fun namespaces entry =>
      if entry.1 ≠ "xml".toList ∧ nodeUsesPrefix entry.1 renamed.node then namespaces.insert entry.1 entry.2
      else namespaces) .empty
  let namespaces := match head.namespaceUri with
    | some uri => namespaces.insert (head.nsPrefix.getD []) uri
    | none => namespaces
  ⟨{ head with namespaces := namespaces }, element.children⟩

end AsterForge.Webdav
