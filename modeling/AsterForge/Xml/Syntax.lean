import AsterForge.Library.Checks
import AsterForge.Library.Text

/-!
# XML names, limits and events

What the readers and the writer share: the limits of untrusted input, the failures, and the rules for
names, namespace names and namespace bindings.  The readers do not look at bytes; they are given the events
that a tokenizer finds in them: an answer that may fail is an option, and a string knows whether it is a
piece of the source.
-/

namespace AsterForge.Xml

open Library

/-! ## Failures -/

/-- Failures produced while applying a policy. -/
inductive XmlSafetyError
  | invalidPolicy
  | inputTooLarge
  | outputTooLarge
  /-- The input declares a DTD or a custom entity while declarations are prohibited. -/
  | externalEntity
  | tooDeep
  | tooManyElements
  | tooManyAttributes
  | tooManyNamespaces
  | textTooLarge
  | tooManyEvents
  | invalidEncoding
  | malformed
  deriving DecidableEq

/-- Errors produced while parsing, retaining or writing a document. -/
inductive XmlError
  | safety (error : XmlSafetyError)
  /-- The document is structurally invalid. -/
  | invalidXml
  | invalidData
  | io
  deriving DecidableEq

/-- What the tokenizer fails with, as far as it is told apart. -/
inductive QuickXmlError
  | tooManyBindings
  | encoding
  /-- Markup that starts with an exclamation mark and is none; whether it stands at `<!ENTITY`. -/
  | invalidBangMarkup (atEntity : Bool)
  | other
  deriving DecidableEq

def mapQuickXmlError : QuickXmlError → XmlError
  | .tooManyBindings => .safety .tooManyNamespaces
  | .encoding => .safety .invalidEncoding
  | .invalidBangMarkup _ | .other => .invalidXml

def mapQuickXmlErrorAt (error : QuickXmlError) (rejectDoctype : Bool) : XmlError :=
  if rejectDoctype ∧ error = .invalidBangMarkup true then .safety .externalEntity
  else mapQuickXmlError error

/-! ## Limits -/

/-- Finite resource and declaration limits applied to untrusted XML. -/
structure XmlSafetyPolicy where
  maxInputBytes : ℕ
  maxDepth : ℕ
  maxElements : ℕ
  maxAttributesPerElement : ℕ
  maxTextBytes : ℕ
  maxEvents : ℕ
  /-- Namespace declarations simultaneously in scope. -/
  maxNamespaceBindings : ℕ
  rejectDoctype : Bool

/-- A conservative policy for network and storage protocol input. -/
def XmlSafetyPolicy.untrusted : XmlSafetyPolicy where
  maxInputBytes := 10 * 1024 * 1024
  maxDepth := 128
  maxElements := 100000
  maxAttributesPerElement := 1024
  maxTextBytes := 10 * 1024 * 1024
  maxEvents := 1000000
  maxNamespaceBindings := 128
  rejectDoctype := true

def XmlSafetyPolicy.validate (policy : XmlSafetyPolicy) : Except XmlError Unit :=
  refuse (policy.maxInputBytes = 0 ∨ policy.maxDepth = 0 ∨ policy.maxElements = 0 ∨
    policy.maxAttributesPerElement = 0 ∨ policy.maxTextBytes = 0 ∨ policy.maxEvents = 0 ∨
    policy.maxNamespaceBindings = 0) (.safety .invalidPolicy)

structure ParseOptions where
  safety : XmlSafetyPolicy
  /-- Drops whitespace-only text nodes and trims retained text nodes. -/
  trimWhitespace : Bool

/-! ## Names -/

def xmlNamespaceUri : Text := "http://www.w3.org/XML/1998/namespace".toList

def xmlnsNamespaceUri : Text := "http://www.w3.org/2000/xmlns/".toList

/-- The prefix, if there is one, and the rest. -/
def splitQualifiedName (name : Text) : Option Text × Text :=
  match splitOnce ':' name with
  | some (nsPrefix, localName) => (some nsPrefix, localName)
  | none => (none, name)

def isNameStart (c : Char) : Bool :=
  ('A' ≤ c && c ≤ 'Z') || c = '_' || ('a' ≤ c && c ≤ 'z') || (0xC0 ≤ c.toNat && c.toNat ≤ 0xD6) ||
    (0xD8 ≤ c.toNat && c.toNat ≤ 0xF6) || (0xF8 ≤ c.toNat && c.toNat ≤ 0x2FF) ||
    (0x370 ≤ c.toNat && c.toNat ≤ 0x37D) || (0x37F ≤ c.toNat && c.toNat ≤ 0x1FFF) ||
    (0x200C ≤ c.toNat && c.toNat ≤ 0x200D) || (0x2070 ≤ c.toNat && c.toNat ≤ 0x218F) ||
    (0x2C00 ≤ c.toNat && c.toNat ≤ 0x2FEF) || (0x3001 ≤ c.toNat && c.toNat ≤ 0xD7FF) ||
    (0xF900 ≤ c.toNat && c.toNat ≤ 0xFDCF) || (0xFDF0 ≤ c.toNat && c.toNat ≤ 0xFFFD) ||
    (0x10000 ≤ c.toNat && c.toNat ≤ 0xEFFFF)

def isNameChar (c : Char) : Bool :=
  isNameStart c || ('0' ≤ c && c ≤ '9') || c = '-' || c = '.' || c.toNat = 0xB7 ||
    (0x300 ≤ c.toNat && c.toNat ≤ 0x36F) || (0x203F ≤ c.toNat && c.toNat ≤ 0x2040)

def isValidXmlLocalName : Text → Bool
  | [] => false
  | first :: rest => isNameStart first && rest.all isNameChar

def validateQualifiedName (name : Text) : Except XmlError (Option Text × Text) := do
  let (nsPrefix, localName) := splitQualifiedName name
  refuse (isValidXmlLocalName localName = false ∨ (∃ p ∈ nsPrefix, isValidXmlLocalName p = false) ∨
    1 < name.count ':') (.safety .malformed)
  return (nsPrefix, localName)

/-! ## Namespaces -/

def isControl (c : Char) : Bool := c.toNat ≤ 0x1F || (0x7F ≤ c.toNat && c.toNat ≤ 0x9F)

def isValidXmlNamespaceName (uri : Text) : Bool :=
  !(uri.any fun c => isControl c || isWhitespace c || "<>\"\x7b\x7d|\\^`".toList.contains c) &&
    percentEscaped uri

def validateNamespaceBinding (nsPrefix uri : Text) : Except XmlError Unit :=
  refuse (nsPrefix = "xmlns".toList ∨ uri = xmlnsNamespaceUri ∨
    (nsPrefix = "xml".toList ∧ uri ≠ xmlNamespaceUri) ∨
    (nsPrefix ≠ "xml".toList ∧ uri = xmlNamespaceUri) ∨ (nsPrefix ≠ [] ∧ uri = []) ∨
    isValidXmlNamespaceName uri = false) (.safety .malformed)

/-- The prefix that an attribute of this name declares; the default namespace has an empty one. -/
def namespaceDeclarationPrefix (name : Text) : Option Text :=
  if name = "xmlns".toList then some []
  else if "xmlns:".toList.isPrefixOf name then some (name.drop 6)
  else none

def utf8Length (text : Text) : ℕ := (text.map Char.utf8Size).sum

/-! ## What the tokenizer reads -/

/-- A decoded string; it is a piece of the source, unless decoding changed it. -/
structure CowText where
  value : Text
  owned : Bool

structure XmlAttribute where
  key : Text
  normalized : Option CowText

/-- A start tag; an attribute that cannot be read is missing. -/
structure BytesStart where
  name : Text
  attributes : List (Option XmlAttribute)

/-- A reference, with the character it stands for if it is a reference to one, and nothing at all if it
is a bad one. -/
structure BytesRef where
  name : Text
  charRef : Option (Option Char)

inductive Event
  | start (tag : BytesStart)
  | empty (tag : BytesStart)
  | stop (name : Text)
  /-- Text, if what it escapes can be decoded. -/
  | text (unescaped : Option CowText)
  | cdata (value : Text)
  | comment (value : Text)
  | pi (target content : Text)
  | generalRef (reference : BytesRef)
  | decl
  | docType

structure ReadEvent where
  event : Event
  position : ℕ

inductive ReadEnd
  | eof
  | failed (error : QuickXmlError)
  deriving DecidableEq

/-- The events of a source. -/
structure TokenStream where
  events : List ReadEvent
  finish : ReadEnd

def decodeReference (reference : BytesRef) : Except XmlError CowText :=
  match reference.charRef with
  | none => .error .invalidXml
  | some (some character) => .ok ⟨[character], true⟩
  | some none =>
    if reference.name = "amp".toList then .ok ⟨['&'], false⟩
    else if reference.name = "lt".toList then .ok ⟨['<'], false⟩
    else if reference.name = "gt".toList then .ok ⟨['>'], false⟩
    else if reference.name = "apos".toList then .ok ⟨['\''], false⟩
    else if reference.name = "quot".toList then .ok ⟨['"'], false⟩
    else .error (.safety .externalEntity)

def instructionContent (content : Text) : Option Text :=
  let content := content.dropWhile fun c =>
    c = ' ' || c = '\t' || c = '\n' || c = '\r' || c = '\x0C'
  if content = [] then none else some content

end AsterForge.Xml
