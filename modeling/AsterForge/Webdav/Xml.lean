import AsterForge.Library.OrderedMap
import AsterForge.Xml.Document

/-!
# Owned XML elements

A DAV element outlives the document it was parsed from, so its names are resolved and it declares the
namespaces it uses by itself.
-/

namespace AsterForge.Webdav

open Library Xml

/-- XML failure of the WebDAV grammar boundary. -/
inductive DavXmlError
  | externalEntity
  | tooDeep
  | tooLarge
  | malformed
  | invalidGrammar
  deriving DecidableEq

def DavXmlError.ofSafety : XmlSafetyError → DavXmlError
  | .externalEntity => .externalEntity
  | .tooDeep => .tooDeep
  | .inputTooLarge | .textTooLarge => .tooLarge
  | .invalidPolicy | .outputTooLarge | .tooManyElements | .tooManyNamespaces | .tooManyAttributes
  | .tooManyEvents | .invalidEncoding | .malformed => .malformed

def mapForgeXmlError : XmlError → DavXmlError
  | .safety error => .ofSafety error
  | .invalidXml | .invalidData | .io => .malformed

/-! ## Elements -/

/-- What an element is besides its children. -/
structure DavXmlHead where
  name : Text
  nsPrefix : Option Text
  /-- The resolved namespace. -/
  namespaceUri : Option Text
  /-- Declarations by prefix; the default namespace has an empty one. -/
  namespaces : OrderedMap Text Text
  /-- Attributes by their lexical names. -/
  attributes : OrderedMap Text Text

/-- Content owned by the WebDAV boundary. -/
inductive DavXmlNode
  | element (head : DavXmlHead) (children : List DavXmlNode)
  | text (value : Text)
  | cdata (value : Text)
  | comment (value : Text)
  | processingInstruction (target : Text) (content : Option Text)

structure DavXmlElement where
  head : DavXmlHead
  children : List DavXmlNode

def DavXmlElement.node (element : DavXmlElement) : DavXmlNode := .element element.head element.children

/-! ## Parsing -/

/-- Formatting white space is ignored and retained text is trimmed. -/
def webdavParseOptions : ParseOptions := ⟨.untrusted, true⟩

variable (scope : NamespaceScope)

def elementNamespace (qualifiedName : Text) : Option Text :=
  resolveNamespace scope ((splitQualifiedName qualifiedName).1.getD [])

def attributeNamespace (qualifiedName : Text) : Option Text :=
  (splitQualifiedName qualifiedName).1.bind (resolveNamespace scope)

def elementNamespaces (data : ElementData) : OrderedMap Text Text :=
  match (splitQualifiedName data.qualifiedName).1,
    elementNamespace data.namespaceScope data.qualifiedName with
  | some nsPrefix, some uri =>
    if nsPrefix = "xml".toList then .empty else OrderedMap.empty.insert nsPrefix uri
  | none, some uri => OrderedMap.empty.insert [] uri
  | none, none => OrderedMap.empty.insert [] []
  | some _, none => .empty

def insertAttribute (maps : OrderedMap Text Text × OrderedMap Text Text)
    (entry : Text × Text) : OrderedMap Text Text × OrderedMap Text Text :=
  let namespaces :=
    match (splitQualifiedName entry.1).1, attributeNamespace scope entry.1 with
    | some nsPrefix, some uri =>
      if nsPrefix = "xml".toList ∨ (maps.1.lookup nsPrefix).isSome then maps.1
      else maps.1.insert nsPrefix uri
    | _, _ => maps.1
  (namespaces, maps.2.insert entry.1 entry.2)

def headFromForge (data : ElementData) : DavXmlHead :=
  let maps := data.attributes.foldl (insertAttribute data.namespaceScope) (elementNamespaces data, .empty)
  { name := (splitQualifiedName data.qualifiedName).2
    nsPrefix := (splitQualifiedName data.qualifiedName).1
    namespaceUri := elementNamespace data.namespaceScope data.qualifiedName
    namespaces := maps.1
    attributes := maps.2 }

mutual

/-- `element_from_forge`, for a node. -/
def nodeFromForge : XmlNode → DavXmlNode
  | .element data children => .element (headFromForge data) (childrenFromForge children)
  | .text value => .text value
  | .cdata value => .cdata value
  | .comment value => .comment value
  | .processingInstruction target content => .processingInstruction target content

/-- `element_from_forge`, for the children of an element. -/
def childrenFromForge : List XmlNode → List DavXmlNode
  | [] => []
  | node :: nodes => nodeFromForge node :: childrenFromForge nodes

end

/-- `element_from_forge`. -/
def elementFromForge (element : XmlElement) : DavXmlElement :=
  ⟨headFromForge element.data, childrenFromForge element.children⟩

mutual

def descendants : XmlNode → List XmlElement
  | .element data children => ⟨data, children⟩ :: childDescendants children
  | _ => []

def childDescendants : List XmlNode → List XmlElement
  | [] => []
  | node :: nodes => descendants node ++ childDescendants nodes

end

def attributeBytes (entry : Text × Text) : ℕ :=
  utf8Length entry.1 + utf8Length entry.2 + utf8Length ((splitQualifiedName entry.1).1.getD []) +
    utf8Length ((attributeNamespace scope entry.1).getD [])

def childBytes : XmlNode → ℕ
  | .element _ _ => 0
  | .text value | .cdata value | .comment value => utf8Length value
  | .processingInstruction target content => utf8Length target + utf8Length (content.getD [])

def elementBytes (element : XmlElement) : ℕ :=
  utf8Length (splitQualifiedName element.data.qualifiedName).2 +
    utf8Length ((splitQualifiedName element.data.qualifiedName).1.getD []) +
    utf8Length ((elementNamespace element.data.namespaceScope element.data.qualifiedName).getD []) * 2 +
    (element.data.attributes.map (attributeBytes element.data.namespaceScope)).sum +
    (element.children.map childBytes).sum

/-- An owned copy of an element, if its parts are not too large. -/
def materializeElement (root : XmlElement) (remainingBytes : ℕ) : Except DavXmlError DavXmlElement := do
  let _ ← (descendants root.node).foldlM (fun remaining element =>
    if elementBytes element ≤ remaining then Except.ok (remaining - elementBytes element)
    else .error DavXmlError.tooLarge) remainingBytes
  return elementFromForge root

def DavXmlElement.parse (tokenize : List UInt8 → TokenStream) (bytes : List UInt8) :
    Except DavXmlError DavXmlElement := do
  let root ← (parseWithOptions tokenize bytes webdavParseOptions).mapError mapForgeXmlError
  materializeElement root XmlSafetyPolicy.untrusted.maxInputBytes

lemma parse_eq_ok {t : List UInt8 → TokenStream} {bt : List UInt8} {e : DavXmlElement}
    (h : DavXmlElement.parse t bt = .ok e) :
    ∃ b r, DocumentBuilder.parse webdavParseOptions (t bt) = .ok b ∧
      b.root = some r ∧ e = elementFromForge r := by
  simp only [DavXmlElement.parse, bind_eq_ok, materializeElement] at h
  obtain ⟨r, hr, _, -, h⟩ := h
  cases h
  cases hparse : parseWithOptions t bt webdavParseOptions with
  | error er =>
    rw [hparse] at hr
    cases hr
  | ok r' =>
    rw [hparse] at hr
    cases hr
    simp only [parseWithOptions, bind_eq_ok, okOr_eq_ok] at hparse
    obtain ⟨_, -, _, -, b, hb, hr⟩ := hparse
    exact ⟨b, r, hb, hr, rfl⟩

end AsterForge.Webdav
