import AsterForge.Xml.Monitors
import AsterForge.Xml.Writer

/-!
# What a document says

A document is more than its bytes and less than what a program keeps of it.  Here it is a sequence of
items, in which text is single characters, so that it does not matter where one piece of text ends and
the next begins; and what the items describe is a tree whose names are resolved.
-/

namespace AsterForge.Xml

open Library

/-! ## Items -/

/-- Markup, or one character of text. -/
inductive Item
  | start (name : Text) (attributes : List (Text × Text))
  | empty (name : Text) (attributes : List (Text × Text))
  | stop (name : Text)
  | char (c : Char)
  | cdata (value : Text)
  | comment (value : Text)
  /-- The target, and all that stands behind it. -/
  | pi (target content : Text)
  | decl
  | docType
  deriving DecidableEq

def textItems (value : Text) : List Item := value.map .char

def XmlAttribute.entry (found : XmlAttribute) : Option (Text × Text) :=
  found.normalized.map fun value => (found.key, value.value)

def readEntries : List (Option XmlAttribute) → Option (List (Text × Text))
  | [] => some []
  | found :: attributes => do
    let entry ← found.bind XmlAttribute.entry
    let entries ← readEntries attributes
    return entry :: entries

def Event.items : Event → Option (List Item)
  | .start tag => (readEntries tag.attributes).map fun entries => [.start tag.name entries]
  | .empty tag => (readEntries tag.attributes).map fun entries => [.empty tag.name entries]
  | .stop name => some [.stop name]
  | .text unescaped => unescaped.map fun value => textItems value.value
  | .generalRef reference => (Event.generalRef reference).decoded.map fun value => textItems value.value
  | .cdata value => some [.cdata value]
  | .comment value => some [.comment value]
  | .pi target content => some [.pi target content]
  | .decl => some [.decl]
  | .docType => some [.docType]

def readItems : List ReadEvent → Option (List Item)
  | [] => some []
  | read :: reads => do
    let first ← read.event.items
    let rest ← readItems reads
    return first ++ rest

/-! ## Names -/

def declaredBindings (attributes : List (Text × Text)) : List NamespaceBinding :=
  attributes.filterMap fun entry => (namespaceDeclarationPrefix entry.1).map fun nsPrefix =>
    ⟨nsPrefix, if entry.2 = [] then none else some entry.2⟩

def ownAttributes (attributes : List (Text × Text)) : List (Text × Text) :=
  attributes.filter fun entry => (namespaceDeclarationPrefix entry.1).isNone

def attributeNamespace (bindings : List NamespaceBinding) (name : Text) : Option Text :=
  (splitQualifiedName name).1.bind (namespaceIn bindings)

def elementNamespace (bindings : List NamespaceBinding) (name : Text) : Option Text :=
  namespaceIn bindings ((splitQualifiedName name).1.getD [])

structure NamedAttribute where
  name : Text
  nsName : Option Text
  value : Text

structure NamedHead where
  name : Text
  nsName : Option Text
  attributes : List NamedAttribute

def namedHead (bindings : List NamespaceBinding) (name : Text) (attributes : List (Text × Text)) :
    NamedHead :=
  ⟨name, elementNamespace bindings name,
    attributes.map fun entry => ⟨entry.1, attributeNamespace bindings entry.1, entry.2⟩⟩

/-- What must differ between attributes that declare nothing. -/
def expandedName (bindings : List NamespaceBinding) (name : Text) : Option Text × Text :=
  (attributeNamespace bindings name, (splitQualifiedName name).2)

/-! ## Trees -/

inductive NamedNode
  | element (head : NamedHead) (children : List NamedNode)
  | text (value : Text)
  | cdata (value : Text)
  | comment (value : Text)
  | processingInstruction (target : Text) (content : Option Text)

/-- One more character, in the text that stands last if there is one. -/
def addChar : List NamedNode → Char → List NamedNode
  | [], c => [.text [c]]
  | [.text value], c => [.text (value ++ [c])]
  | node :: nodes, c => node :: addChar nodes c

/-- One more node; a text joins the text that stands before it, and an empty one is none. -/
def addNode (nodes : List NamedNode) : NamedNode → List NamedNode
  | .text value => value.foldl addChar nodes
  | node => nodes ++ [node]

def joinTexts (nodes : List NamedNode) : List NamedNode := nodes.foldl addNode []

def ElementData.head (data : ElementData) : NamedHead :=
  namedHead (flatScope data.namespaceScope) data.qualifiedName data.attributes

mutual

def XmlNode.named : XmlNode → NamedNode
  | .element data children => .element data.head (joinTexts (namedNodes children))
  | .text value => .text value
  | .cdata value => .cdata value
  | .comment value => .comment value
  | .processingInstruction target content => .processingInstruction target content

def namedNodes : List XmlNode → List NamedNode
  | [] => []
  | node :: nodes => node.named :: namedNodes nodes

end

/-! ## Outlines -/

structure OpenHead where
  head : NamedHead
  bindings : List NamespaceBinding
  children : List NamedNode

/-- What some items describe: the elements that are open, the innermost first, and the root once it is
complete. -/
structure Outline where
  opened : List OpenHead
  root : Option NamedNode

namespace Outline

def new : Outline := ⟨[], none⟩

variable (outline : Outline)

def bindings : List NamespaceBinding := outline.opened.head?.elim [] OpenHead.bindings

/-- One more node in the innermost open element. -/
def attach (node : NamedNode) : Outline :=
  match outline.opened with
  | [] => outline
  | parent :: rest =>
    { outline with opened := { parent with children := addNode parent.children node } :: rest }

def complete (node : NamedNode) : Outline :=
  match outline.opened with
  | [] => { outline with root := outline.root.or (some node) }
  | _ :: _ => outline.attach node

def enter (name : Text) (attributes : List (Text × Text)) : OpenHead :=
  ⟨namedHead (outline.bindings ++ declaredBindings attributes) name (ownAttributes attributes),
    outline.bindings ++ declaredBindings attributes, []⟩

/-- The innermost open element is complete. -/
def close : Outline :=
  match outline.opened with
  | [] => outline
  | element :: rest => { outline with opened := rest }.complete (.element element.head element.children)

/-- One more item; a CDATA section with nothing in it describes nothing, nor does the white space behind
the target of an instruction. -/
def next : Item → Outline
  | .start name attributes => { outline with opened := outline.enter name attributes :: outline.opened }
  | .empty name attributes => outline.complete (.element (outline.enter name attributes).head [])
  | .stop _ => outline.close
  | .char c => outline.attach (.text [c])
  | .cdata value => if value = [] then outline else outline.attach (.cdata value)
  | .comment value => outline.attach (.comment value)
  | .pi target content => outline.attach (.processingInstruction target (instructionContent content))
  | .decl | .docType => outline

end Outline

/-! ## Well-formed documents -/

def isXmlSpace (c : Char) : Bool := c = ' ' || c = '\t' || c = '\n' || c = '\r'

/-- A start tag whose names are valid, declared and different, in the scope of some bindings. -/
structure WellFormedTag (bindings : List NamespaceBinding) (name : Text)
    (attributes : List (Text × Text)) : Prop where
  validName : ∃ parts, validateQualifiedName name = .ok parts
  resolved : ∀ nsPrefix ∈ (splitQualifiedName name).1,
    namespaceIn (bindings ++ declaredBindings attributes) nsPrefix ≠ none
  attributeNames : ∀ entry ∈ attributes, ∃ parts, validateQualifiedName entry.1 = .ok parts
  attributeValues : ∀ entry ∈ attributes, entry.2.all isXmlChar = true
  declarations : ∀ entry ∈ attributes, ∀ nsPrefix ∈ namespaceDeclarationPrefix entry.1,
    validateNamespaceBinding nsPrefix entry.2 = .ok ()
  attributesResolved : ∀ entry ∈ ownAttributes attributes, ∀ nsPrefix ∈ (splitQualifiedName entry.1).1,
    namespaceIn (bindings ++ declaredBindings attributes) nsPrefix ≠ none
  prefixes : ((declaredBindings attributes).map NamespaceBinding.nsPrefix).Nodup
  expandedNames : ((ownAttributes attributes).map fun entry =>
    expandedName (bindings ++ declaredBindings attributes) entry.1).Nodup

def Outline.Admits (outline : Outline) : Item → Prop
  | .start name attributes | .empty name attributes =>
    (outline.opened = [] → outline.root = none) ∧ WellFormedTag outline.bindings name attributes
  | .stop name => ∃ element ∈ outline.opened.head?, element.head.name = name
  | .char c => isXmlChar c = true ∧ (outline.opened = [] → isXmlSpace c = true)
  | .cdata value => outline.opened ≠ [] ∧ value.all isXmlChar = true ∧
    containsText value "]]>".toList = false
  | .comment value => value.all isXmlChar = true ∧ containsText value "--".toList = false ∧
    value.getLast? ≠ some '-'
  | .pi target content => isValidXmlLocalName target = true ∧
    eqIgnoreAsciiCase target "xml".toList = false ∧ content.all isXmlChar = true ∧
    containsText content "?>".toList = false ∧ ∀ c ∈ content.head?, isXmlSpace c = true
  | .decl => outline.opened = [] ∧ outline.root = none
  | .docType => False

def wellFormed : Monitor Outline Item where
  allows := Outline.Admits
  next := Outline.next

/-- A well-formed document without a document type: its items come in order, the declaration before all
others, and its root is complete. -/
structure WellFormed (items : List Item) : Prop where
  accepted : wellFormed.Accepts Outline.new items
  declaration : .decl ∉ items.tail
  closed : (wellFormed.after Outline.new items).opened = []
  root : (wellFormed.after Outline.new items).root ≠ none

end AsterForge.Xml
