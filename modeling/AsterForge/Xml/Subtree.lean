import AsterForge.Xml.Writer

/-!
# Subtrees and calls

A document that was read before can be embedded in another one as it is: the bytes of its root are
written, after the checks that the writer makes of elements of its own.
-/

namespace AsterForge.Xml

open Library

variable {tokenize : List UInt8 → TokenStream}

/-! ## Documents that were read -/

/-- A document with the bytes that it was read from. -/
structure ValidatedXml (tokenize : List UInt8 → TokenStream) where
  source : List UInt8
  policy : XmlSafetyPolicy
  root : XmlElement
  parsed : parseWithOptions tokenize source ⟨policy, false⟩ = .ok root

/-- `raw_xml` of the root: its bytes in the source. -/
def ValidatedXml.rawXml (subtree : ValidatedXml tokenize) : List UInt8 :=
  let data := subtree.root.data
  if data.sourceStart ≤ data.sourceEnd ∧ data.sourceEnd ≤ subtree.source.length then
    (subtree.source.drop data.sourceStart).take (data.sourceEnd - data.sourceStart)
  else []

/-- An element of a document, with the scope of its parent and the number of elements from the root to
it. -/
structure Descendant where
  data : ElementData
  parentScope : NamespaceScope
  depth : ℕ

mutual

/-- `descendants`: the elements of a node, each before those in it. -/
def XmlNode.descendants (parentScope : NamespaceScope) (depth : ℕ) : XmlNode → List Descendant
  | .element data children =>
    ⟨data, parentScope, depth⟩ :: childDescendants data.namespaceScope (depth + 1) children
  | _ => []

def childDescendants (parentScope : NamespaceScope) (depth : ℕ) : List XmlNode → List Descendant
  | [] => []
  | node :: nodes => node.descendants parentScope depth ++ childDescendants parentScope depth nodes

end

namespace Descendant

variable (element : Descendant)

/-- The attributes of an element, with those that declare namespaces. -/
def lexicalAttributeCount : ℕ :=
  element.data.attributes.length + if element.data.namespaceScope = element.parentScope then 0
    else element.data.namespaceScope.head?.elim 0 List.length

def namespaceBindingCount : ℕ := (element.data.namespaceScope.map List.length).sum

/-- An element that would be in the default namespace around it. -/
def inheritsDefault : Bool :=
  (splitQualifiedName element.data.qualifiedName).1 = none ∧
    resolveNamespace element.data.namespaceScope [] = none

end Descendant

def checkDescendant (state : WriterState) (element : Descendant) : Except XmlError Unit := do
  refuse ((resolveBinding state.bindings []).isSome ∧ element.inheritsDefault) .invalidData
  refuse (state.options.maxAttributesPerElement < element.lexicalAttributeCount) (.safety .tooManyAttributes)
  refuse (state.options.maxNamespaceBindings < state.bindings.length + element.namespaceBindingCount)
    (.safety .tooManyNamespaces)
  refuse (state.options.maxDepth < state.depth + element.depth) (.safety .tooDeep)

/-- `validated_subtree`. -/
def planSubtree (subtree : ValidatedXml tokenize) : WriterPlan := fun state => do
  refuse (state.openNames = []) .invalidData
  (subtree.root.node.descendants [] 1).forM (checkDescendant state)
  return (.raw subtree.rawXml, state)

/-! ## Calls -/

inductive WriterCall (tokenize : List UInt8 → TokenStream)
  | startElement (name : Text) (attributes : List (Text × Text))
  | emptyElement (name : Text) (attributes : List (Text × Text))
  | endElement
  | text (value : Text)
  | cdata (value : Text)
  | comment (value : Text)
  | processingInstruction (target : Text) (content : Option Text)
  | validatedSubtree (subtree : ValidatedXml tokenize)

def WriterCall.plan : WriterCall tokenize → WriterPlan
  | .startElement name attributes => planElement name attributes false
  | .emptyElement name attributes => planElement name attributes true
  | .endElement => planEnd
  | .text value => planText value
  | .cdata value => planCdata value
  | .comment value => planComment value
  | .processingInstruction target content => planInstruction target content
  | .validatedSubtree subtree => planSubtree subtree

variable {W : Type} [Write W]

namespace XmlStreamWriter

variable (render : Rendering)

def validatedSubtree (subtree : ValidatedXml tokenize) : Writing W Unit :=
  perform render (planSubtree subtree)

def call : WriterCall tokenize → Writing W Unit
  | .startElement name attributes => startElement render name attributes
  | .emptyElement name attributes => emptyElement render name attributes
  | .endElement => endElement render
  | .text value => text render value
  | .cdata value => cdata render value
  | .comment value => comment render value
  | .processingInstruction target content => processingInstruction render target content
  | .validatedSubtree subtree => validatedSubtree render subtree

lemma call_eq (c : WriterCall tokenize) :
    (XmlStreamWriter.call render c : Writing W Unit) = perform render c.plan := by
  cases c with
  | startElement n a => rfl
  | emptyElement n a => rfl
  | endElement => rfl
  | text v => rfl
  | cdata v => rfl
  | comment v => rfl
  | processingInstruction t cn => rfl
  | validatedSubtree s => rfl

def after (calls : List (WriterCall tokenize)) (writer : XmlStreamWriter W) : XmlStreamWriter W :=
  calls.foldl (fun writer call => (XmlStreamWriter.call render call writer).2) writer

def succeeded : List (WriterCall tokenize) → XmlStreamWriter W → List (WriterState × WriterCall tokenize)
  | [], _ => []
  | call :: calls, writer =>
    match XmlStreamWriter.call render call writer with
    | (.ok _, next) => (writer.state, call) :: succeeded calls next
    | (.error _, next) => succeeded calls next

end XmlStreamWriter

end AsterForge.Xml
