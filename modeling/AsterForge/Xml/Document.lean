import AsterForge.Xml.Syntax

/-!
# The document tree

A document is read into a tree, event by event.  The source keeps the nodes of the tree in an arena and
links them; here the elements that are still open are a stack, and a node is put below the innermost of
them.  The sizes of the arenas are kept, since they are bounded.
-/

namespace AsterForge.Xml

open Library

/-! ## Trees -/

structure NamespaceBinding where
  nsPrefix : Text
  uri : Option Text
  deriving DecidableEq

/-- The declarations in scope, those of the innermost element first. -/
abbrev NamespaceScope := List (List NamespaceBinding)

def resolveNamespace (scope : NamespaceScope) (nsPrefix : Text) : Option Text :=
  if nsPrefix = "xml".toList then some xmlNamespaceUri
  else (scope.findSome? fun bindings =>
    bindings.reverse.find? fun binding => binding.nsPrefix = nsPrefix).bind NamespaceBinding.uri

structure ElementData where
  qualifiedName : Text
  /-- The attributes that declare no namespace. -/
  attributes : List (Text × Text)
  namespaceScope : NamespaceScope
  sourceStart : ℕ
  sourceEnd : ℕ

inductive XmlNode
  | element (data : ElementData) (children : List XmlNode)
  | text (value : Text)
  | cdata (value : Text)
  | comment (value : Text)
  | processingInstruction (target : Text) (content : Option Text)

structure XmlElement where
  data : ElementData
  children : List XmlNode

def XmlElement.node (element : XmlElement) : XmlNode := .element element.data element.children

/-! ## Building -/

def u32Max : ℕ := 2 ^ 32 - 1

/-- An element whose end was not read yet, with the children it has so far. -/
structure OpenElement where
  data : ElementData
  children : List XmlNode

/-- The elements that are open, the innermost first, the root once it is complete, and the sizes of the
arenas. -/
structure DocumentBuilder where
  nodes : ℕ
  attributes : ℕ
  namespaceScopes : ℕ
  namespaceBindings : ℕ
  ownedValues : ℕ
  opened : List OpenElement
  root : Option XmlElement
  /-- The root was read, at least its start. -/
  rootSeen : Bool
  rootComplete : Bool
  elementCount : ℕ
  textBytes : ℕ
  eventCount : ℕ

def DocumentBuilder.new : DocumentBuilder := ⟨0, 0, 0, 0, 0, [], none, false, false, 0, 0, 0⟩

def arenaLen (length : ℕ) : Except XmlError Unit := refuse (u32Max < length) .invalidXml

def sourceValue (value : Text) : Except XmlError Unit :=
  refuse (u32Max < utf8Length value) (.safety .inputTooLarge)

/-- A string, and how many strings were built with it. -/
def cowValue (ownedValues : ℕ) (value : CowText) : Except XmlError ℕ :=
  if value.owned then do
    arenaLen ownedValues
    sourceValue value.value
    return ownedValues + 1
  else do
    sourceValue value.value
    return ownedValues

/-- The name of a namespace; an empty one is not kept. -/
def uriValue (ownedValues : ℕ) (uri : CowText) : Except XmlError ℕ :=
  if uri.value = [] then .ok ownedValues else cowValue ownedValues uri

/-- What was read of the attributes of a start tag. -/
structure DeclaredNamespaces where
  count : ℕ
  bindings : List NamespaceBinding
  ownedValues : ℕ

def declareNamespace (policy : XmlSafetyPolicy) (declared : DeclaredNamespaces)
    (entry : Option XmlAttribute) : Except XmlError DeclaredNamespaces := do
  refuse (policy.maxAttributesPerElement < declared.count + 1) (.safety .tooManyAttributes)
  let entry ← okOr .invalidXml entry
  let _ ← validateQualifiedName entry.key
  match namespaceDeclarationPrefix entry.key with
  | none => return { declared with count := declared.count + 1 }
  | some nsPrefix =>
    let uri ← okOr .invalidXml entry.normalized
    validateNamespaceBinding nsPrefix uri.value
    sourceValue nsPrefix
    let ownedValues ← uriValue declared.ownedValues uri
    return ⟨declared.count + 1,
      declared.bindings ++ [⟨nsPrefix, if uri.value = [] then none else some uri.value⟩], ownedValues⟩

structure ReadAttributes where
  attributes : List (Text × Text)
  ownedValues : ℕ

def readAttribute (scope : NamespaceScope) (read : ReadAttributes) (entry : Option XmlAttribute) :
    Except XmlError ReadAttributes := do
  let entry ← okOr .invalidXml entry
  match namespaceDeclarationPrefix entry.key with
  | some _ => return read
  | none =>
    refuse (∃ nsPrefix ∈ (splitQualifiedName entry.key).1, nsPrefix ≠ "xml".toList ∧
      resolveNamespace scope nsPrefix = none) (.safety .malformed)
    let value ← okOr .invalidXml entry.normalized
    sourceValue entry.key
    let ownedValues ← cowValue read.ownedValues value
    return ⟨read.attributes ++ [(entry.key, value.value)], ownedValues⟩

namespace DocumentBuilder

variable (builder : DocumentBuilder) (options : ParseOptions)

def checkElement : Except XmlError DocumentBuilder := do
  refuse (options.safety.maxDepth < builder.opened.length + 1) (.safety .tooDeep)
  refuse (options.safety.maxElements < builder.elementCount + 1) (.safety .tooManyElements)
  return { builder with elementCount := builder.elementCount + 1 }

def countEvent : Except XmlError DocumentBuilder := do
  refuse (options.safety.maxEvents < builder.eventCount + 1) (.safety .tooManyEvents)
  return { builder with eventCount := builder.eventCount + 1 }

def pushNode : Except XmlError DocumentBuilder := do
  refuse (u32Max < builder.nodes + 1) (.safety .tooManyElements)
  return { builder with nodes := builder.nodes + 1 }

/-- A node below the innermost open element. -/
def attach (node : XmlNode) : DocumentBuilder :=
  match builder.opened with
  | [] => builder
  | parent :: rest =>
    { builder with opened := { parent with children := parent.children ++ [node] } :: rest }

def pushContent (node : XmlNode) : Except XmlError DocumentBuilder :=
  if builder.opened = [] then return builder
  else do
    let builder ← builder.pushNode
    return builder.attach node

def parentScope : NamespaceScope := builder.opened.head?.elim [] fun parent => parent.data.namespaceScope

def buildElement (tag : BytesStart) (sourceStart sourceEnd : ℕ) :
    Except XmlError (ElementData × DocumentBuilder) := do
  refuse (builder.opened = [] ∧ builder.rootComplete) (.safety .malformed)
  let (nsPrefix, _) ← validateQualifiedName tag.name
  arenaLen builder.namespaceBindings
  let declared ← tag.attributes.foldlM (declareNamespace options.safety) ⟨0, [], builder.ownedValues⟩
  arenaLen (builder.namespaceBindings + declared.bindings.length)
  refuse (declared.bindings ≠ [] ∧ u32Max < builder.namespaceScopes + 1) .invalidXml
  let scope := if declared.bindings = [] then builder.parentScope
    else declared.bindings :: builder.parentScope
  refuse (options.safety.maxNamespaceBindings < (scope.map List.length).sum) (.safety .tooManyNamespaces)
  refuse (∃ p ∈ nsPrefix, resolveNamespace scope p = none) (.safety .malformed)
  arenaLen builder.attributes
  let read ← tag.attributes.foldlM (readAttribute scope) ⟨[], declared.ownedValues⟩
  arenaLen (builder.attributes + read.attributes.length)
  sourceValue tag.name
  let pushed ← builder.pushNode
  return (⟨tag.name, read.attributes, scope, sourceStart, sourceEnd⟩,
    { pushed with
      attributes := builder.attributes + read.attributes.length
      namespaceScopes := builder.namespaceScopes + (if declared.bindings = [] then 0 else 1)
      namespaceBindings := builder.namespaceBindings + declared.bindings.length
      ownedValues := read.ownedValues
      rootSeen := true })

def complete (element : XmlElement) : DocumentBuilder :=
  match builder.opened with
  | [] => { builder with root := builder.root.or (some element), rootComplete := true }
  | _ :: _ => builder.attach element.node

def startElement (tag : BytesStart) (sourceStart sourceEnd : ℕ) : Except XmlError DocumentBuilder := do
  let builder ← builder.checkElement options
  let (data, builder) ← builder.buildElement options tag sourceStart sourceEnd
  return { builder with opened := ⟨data, []⟩ :: builder.opened }

def emptyElement (tag : BytesStart) (sourceStart sourceEnd : ℕ) : Except XmlError DocumentBuilder := do
  let builder ← builder.checkElement options
  let (data, builder) ← builder.buildElement options tag sourceStart sourceEnd
  return builder.complete ⟨data, []⟩

def endElement (sourceEnd : ℕ) : Except XmlError DocumentBuilder :=
  match builder.opened with
  | [] => .error (.safety .malformed)
  | element :: rest =>
    .ok ({ builder with opened := rest }.complete
      ⟨{ element.data with sourceEnd := sourceEnd }, element.children⟩)

def textNode (value : CowText) (cdata : Bool) : Except XmlError DocumentBuilder := do
  refuse (options.safety.maxTextBytes < builder.textBytes + utf8Length value.value) (.safety .textTooLarge)
  let builder := { builder with textBytes := builder.textBytes + utf8Length value.value }
  let value := if options.trimWhitespace then { value with value := trim value.value } else value
  if value.value = [] then return builder
  if builder.opened = [] then
    refuse (value.value.all isWhitespace = false) (.safety .malformed)
    return builder
  let ownedValues ← cowValue builder.ownedValues value
  { builder with ownedValues := ownedValues }.pushContent
    (if cdata then .cdata value.value else .text value.value)

def apply (sourceStart : ℕ) (read : ReadEvent) : Except XmlError DocumentBuilder :=
  match read.event with
  | .start tag => builder.startElement options tag sourceStart read.position
  | .empty tag => builder.emptyElement options tag sourceStart read.position
  | .stop _ => builder.endElement read.position
  | .text unescaped => do
    let value ← okOr .invalidXml unescaped
    builder.textNode options value false
  | .cdata value => builder.textNode options ⟨value, false⟩ true
  | .comment value => do
    sourceValue value
    builder.pushContent (.comment value)
  | .pi target content => do
    sourceValue target
    sourceValue ((instructionContent content).getD [])
    builder.pushContent (.processingInstruction target (instructionContent content))
  | .generalRef reference => do
    let value ← decodeReference reference
    builder.textNode options { value with owned := true } false
  | .decl => do
    refuse (builder.rootSeen ∨ builder.opened ≠ [] ∨ builder.rootComplete) (.safety .malformed)
    return builder
  | .docType => do
    refuse options.safety.rejectDoctype (.safety .externalEntity)
    refuse (builder.rootSeen ∨ builder.opened ≠ [] ∨ builder.rootComplete) (.safety .malformed)
    return builder

def readEvents : ℕ → List ReadEvent → DocumentBuilder → Except XmlError DocumentBuilder
  | _, [], builder => .ok builder
  | position, read :: reads, builder => do
    let builder ← builder.countEvent options
    let builder ← builder.apply options position read
    readEvents read.position reads builder

/-- `parse`: the events up to their end. -/
def parse (source : TokenStream) : Except XmlError DocumentBuilder := do
  let builder ← readEvents options 0 source.events new
  match source.finish with
  | .failed error => .error (mapQuickXmlErrorAt error options.safety.rejectDoctype)
  | .eof => do
    refuse (builder.opened ≠ [] ∨ builder.rootComplete = false) (.safety .malformed)
    return builder

end DocumentBuilder

/-- `XmlDocument::parse_with_options`: the root of a document. -/
def parseWithOptions (tokenize : List UInt8 → TokenStream) (source : List UInt8)
    (options : ParseOptions) : Except XmlError XmlElement := do
  options.safety.validate
  refuse (options.safety.maxInputBytes < source.length) (.safety .inputTooLarge)
  let builder ← DocumentBuilder.parse options (tokenize source)
  okOr (.safety .malformed) builder.root

end AsterForge.Xml
