import AsterForge.Library.Stateful
import AsterForge.Xml.Document

/-!
# The stream writer

A document is written event by event.  The writer checks names, namespaces and the nesting of elements,
and bounds what it writes; how an event looks is up to the library below it.

* `WriterState` — what the writer knows of the document; each call of it is a plan for what to write and
  for the state after that.
* `XmlStreamWriter.perform` — a plan carried out: nothing is written and nothing changes where the plan
  is refused.
-/

namespace AsterForge.Xml

open Library

/-! ## Sinks -/

/-- A sink of bytes: whether it takes bytes, and what it becomes. -/
class Write (W : Type) where
  writeAll : List UInt8 → W → Bool × W
  flush : W → Bool × W

/-- Bytes in memory. -/
instance : Write (List UInt8) where
  writeAll bytes written := (true, written ++ bytes)
  flush written := (true, written)

/-- A sink with a bound. -/
structure LimitedWriter (W : Type) where
  inner : W
  maxBytes : ℕ
  written : ℕ
  exceeded : Bool

variable {W : Type} [Write W]

/-- A count of bytes beyond what a `usize` holds is beyond the bound too. -/
def LimitedWriter.writeAll (bytes : List UInt8) (writer : LimitedWriter W) : Bool × LimitedWriter W :=
  if bytes = [] then (true, writer)
  else if writer.maxBytes < writer.written + bytes.length then (false, { writer with exceeded := true })
  else
    match Write.writeAll bytes writer.inner with
    | (true, inner) => (true, { writer with inner := inner, written := writer.written + bytes.length })
    | (false, inner) => (false, { writer with inner := inner })

/-- Pieces of an event, up to the first that cannot be written. -/
def LimitedWriter.writePieces : List (List UInt8) → LimitedWriter W → Bool × LimitedWriter W
  | [], writer => (true, writer)
  | piece :: pieces, writer =>
    match writer.writeAll piece with
    | (true, writer) => writer.writePieces pieces
    | (false, writer) => (false, writer)

/-! ## What is written -/

inductive WriteEvent
  | start (name : Text) (attributes : List (Text × Text))
  | empty (name : Text) (attributes : List (Text × Text))
  | stop (name : Text)
  | text (value : Text)
  | cdata (value : Text)
  | comment (value : Text)
  | pi (instruction : Text)
  | decl

/-- An event, or bytes as they are. -/
inductive WriterOutput
  | event (event : WriteEvent)
  | raw (bytes : List UInt8)

abbrev Rendering := WriteEvent → List (List UInt8)

def WriterOutput.pieces (render : Rendering) : WriterOutput → List (List UInt8)
  | .event written => render written
  | .raw bytes => [bytes]

/-! ## The state of a document -/

/-- Finite output limits and document options. -/
structure XmlWriteOptions where
  maxOutputBytes : ℕ
  maxDepth : ℕ
  maxAttributesPerElement : ℕ
  maxNamespaceBindings : ℕ
  writeDocumentDeclaration : Bool

def XmlWriteOptions.new : XmlWriteOptions where
  maxOutputBytes := 64 * 1024 * 1024
  maxDepth := 128
  maxAttributesPerElement := 1024
  maxNamespaceBindings := 128
  writeDocumentDeclaration := false

variable (options : XmlWriteOptions)

def XmlWriteOptions.validate : Except XmlError Unit :=
  refuse (options.maxOutputBytes = 0 ∨ options.maxDepth = 0 ∨ options.maxAttributesPerElement = 0 ∨
    options.maxNamespaceBindings = 0) (.safety .invalidPolicy)

/-- An element that is open, with the number of declarations in scope around it. -/
structure OpenName where
  name : Text
  bindingStart : ℕ

/-- What was written so far, as far as the next call depends on it. -/
structure WriterState where
  options : XmlWriteOptions
  rootSeen : Bool
  rootComplete : Bool
  /-- The elements that are open, the innermost first. -/
  openNames : List OpenName
  /-- The declarations in scope, those of the innermost element last. -/
  bindings : List NamespaceBinding

def WriterState.new : WriterState := ⟨options, false, false, [], []⟩

def WriterState.depth (state : WriterState) : ℕ := state.openNames.length

/-! ## Checks -/

/-- `resolve_namespace`: the last declaration of a prefix. -/
def resolveBinding (bindings : List NamespaceBinding) (nsPrefix : Text) : Option Text :=
  if nsPrefix = "xml".toList then some xmlNamespaceUri
  else (bindings.reverse.find? fun binding => binding.nsPrefix = nsPrefix).bind NamespaceBinding.uri

def validateName (name : Text) (qualified : Bool) : Except XmlError Unit :=
  refuse (name = [] ∨ (qualified = false ∧ ':' ∈ name) ∨ 1 < name.count ':' ∨
    ∃ part ∈ name.splitOn ':', isValidXmlLocalName part = false) .invalidData

def isXmlChar (c : Char) : Bool :=
  c.toNat = 0x9 || c.toNat = 0xA || c.toNat = 0xD || (0x20 ≤ c.toNat && c.toNat ≤ 0xD7FF) ||
    (0xE000 ≤ c.toNat && c.toNat ≤ 0xFFFD) || (0x10000 ≤ c.toNat && c.toNat ≤ 0x10FFFF)

def validateXmlText (value : Text) : Except XmlError Unit :=
  refuse (value.all isXmlChar = false) .invalidData

def containsText (text part : Text) : Bool := text.tails.any part.isPrefixOf

/-- The declarations so far, with the one that an attribute makes if it makes one.  The rules for it are
those of the reader. -/
def recordNamespaceBinding (bindings : List NamespaceBinding)
    (entry : Text × Text) : Except XmlError (List NamespaceBinding) :=
  match namespaceDeclarationPrefix entry.1 with
  | none => return bindings
  | some nsPrefix => do
    (validateNamespaceBinding nsPrefix entry.2).mapError fun _ => .invalidData
    refuse (options.maxNamespaceBindings ≤ bindings.length) (.safety .tooManyNamespaces)
    return bindings ++ [⟨nsPrefix, if entry.2 = [] then none else some entry.2⟩]

def pushAttribute (pushed : ℕ × List NamespaceBinding) (entry : Text × Text) :
    Except XmlError (ℕ × List NamespaceBinding) := do
  refuse (options.maxAttributesPerElement < pushed.1 + 1) (.safety .tooManyAttributes)
  validateName entry.1 true
  validateXmlText entry.2
  let bindings ← recordNamespaceBinding options pushed.2 entry
  return (pushed.1 + 1, bindings)

def validateAttributeNamespace (bindings : List NamespaceBinding) (qualifiedName : Text) :
    Except XmlError Unit :=
  refuse (namespaceDeclarationPrefix qualifiedName = none ∧
    ∃ nsPrefix ∈ (splitQualifiedName qualifiedName).1, nsPrefix ≠ "xml".toList ∧
      resolveBinding bindings nsPrefix = none) .invalidData

/-- What must differ between the attributes of an element. -/
def attributeIdentity (bindings : List NamespaceBinding) (name : Text) : Option Text × Text :=
  match namespaceDeclarationPrefix name with
  | some nsPrefix => (some xmlnsNamespaceUri, nsPrefix)
  | none =>
    ((splitQualifiedName name).1.bind fun nsPrefix =>
      if nsPrefix = [] then none else resolveBinding bindings nsPrefix, (splitQualifiedName name).2)

/-- The attributes, in the pass that resolves their names. -/
def checkAttributes (bindings : List NamespaceBinding) :
    List (Option Text × Text) → List Text → Except XmlError Unit
  | _, [] => .ok ()
  | expandedNames, name :: names => do
    validateAttributeNamespace bindings name
    refuse (attributeIdentity bindings name ∈ expandedNames) .invalidData
    checkAttributes bindings (attributeIdentity bindings name :: expandedNames) names

def validateElementNamespace (bindings : List NamespaceBinding) (qualifiedName : Text) :
    Except XmlError Unit :=
  refuse (∃ nsPrefix ∈ (splitQualifiedName qualifiedName).1,
    resolveBinding bindings nsPrefix = none) .invalidData

/-! ## Calls -/

abbrev WriterPlan := WriterState → Except XmlError (WriterOutput × WriterState)

/-- `write_element`; the declarations of an empty element are dropped again. -/
def planElement (name : Text) (attributes : List (Text × Text)) (empty : Bool) : WriterPlan :=
  fun state => do
    refuse (state.openNames = [] ∧ state.rootComplete = true) .invalidData
    refuse (state.options.maxDepth < state.depth + 1) (.safety .tooDeep)
    validateName name true
    let (_, bindings) ← attributes.foldlM (pushAttribute state.options) (0, state.bindings)
    checkAttributes bindings [] (attributes.map Prod.fst)
    validateElementNamespace bindings name
    if empty then
      return (.event (.empty name attributes), { state with
        rootSeen := true
        rootComplete := state.rootComplete || state.openNames.isEmpty })
    else
      return (.event (.start name attributes), { state with
        rootSeen := true
        openNames := ⟨name, state.bindings.length⟩ :: state.openNames
        bindings := bindings })

/-- `end_element`. -/
def planEnd : WriterPlan := fun state =>
  match state.openNames with
  | [] => .error .invalidData
  | element :: rest => .ok (.event (.stop element.name), { state with
      openNames := rest
      bindings := state.bindings.take element.bindingStart
      rootComplete := state.rootComplete || rest.isEmpty })

def planText (value : Text) : WriterPlan := fun state => do
  validateXmlText value
  refuse (state.openNames = [] ∧ value.all isWhitespace = false) .invalidData
  return (.event (.text value), state)

def planCdata (value : Text) : WriterPlan := fun state => do
  validateXmlText value
  refuse (state.openNames = []) .invalidData
  refuse (containsText value "]]>".toList = true) .invalidData
  return (.event (.cdata value), state)

def planComment (value : Text) : WriterPlan := fun state => do
  validateXmlText value
  refuse (containsText value "--".toList = true ∨ value.getLast? = some '-') .invalidData
  return (.event (.comment value), state)

def instructionText (target : Text) (content : Option Text) : Text :=
  target ++ if content.getD [] = [] then [] else ' ' :: content.getD []

def planInstruction (target : Text) (content : Option Text) : WriterPlan := fun state => do
  validateName target false
  refuse (eqIgnoreAsciiCase target "xml".toList = true) .invalidData
  validateXmlText (content.getD [])
  refuse (containsText (content.getD []) "?>".toList = true) .invalidData
  return (.event (.pi (instructionText target content)), state)

/-! ## The writer -/

/-- A writer: the sink with its bound, and the state of the document. -/
structure XmlStreamWriter (W : Type) where
  writer : LimitedWriter W
  state : WriterState

abbrev Writing (W : Type) := Stateful (XmlStreamWriter W) XmlError

/-- What a failed write is reported as. -/
def LimitedWriter.error (writer : LimitedWriter W) : XmlError :=
  if writer.exceeded then .safety .outputTooLarge else .io

namespace XmlStreamWriter

variable (render : Rendering)

def perform (plan : WriterPlan) : Writing W Unit := fun writer =>
  match plan writer.state with
  | .error error => (.error error, writer)
  | .ok (output, state) =>
    match writer.writer.writePieces (output.pieces render) with
    | (true, inner) => (.ok (), ⟨inner, state⟩)
    | (false, inner) => (.error inner.error, ⟨inner, writer.state⟩)

variable (name : Text)

def startElement (attributes : List (Text × Text)) : Writing W Unit :=
  perform render (planElement name attributes false)

def emptyElement (attributes : List (Text × Text)) : Writing W Unit :=
  perform render (planElement name attributes true)

def start : Writing W Unit := startElement render name []

def empty : Writing W Unit := emptyElement render name []

def endElement : Writing W Unit := perform render planEnd

def text (value : Text) : Writing W Unit := perform render (planText value)

def cdata (value : Text) : Writing W Unit := perform render (planCdata value)

def comment (value : Text) : Writing W Unit := perform render (planComment value)

def processingInstruction (target : Text) (content : Option Text) : Writing W Unit :=
  perform render (planInstruction target content)

/-- `with_options`: a writer for an empty document, with its declaration if it has one. -/
def withOptions (inner : W) (options : XmlWriteOptions) : Except XmlError (XmlStreamWriter W) := do
  options.validate
  let writer : XmlStreamWriter W := ⟨⟨inner, options.maxOutputBytes, 0, false⟩, .new options⟩
  if options.writeDocumentDeclaration then
    match perform render (fun state => .ok (.event .decl, state)) writer with
    | (.ok _, writer) => return writer
    | (.error error, _) => .error error
  else return writer

/-- `finish`: the sink of a complete document. -/
def finish (writer : XmlStreamWriter W) : Except XmlError W := do
  refuse (writer.state.openNames ≠ []) .invalidData
  refuse (writer.state.rootSeen = false ∨ writer.state.rootComplete = false) .invalidData
  match Write.flush writer.writer.inner with
  | (true, inner) => return inner
  | (false, _) => .error writer.writer.error

end XmlStreamWriter

/-! ## Sinks that never fail -/

/-- Two sinks that take what they are given, in a relation that this keeps. -/
structure SinksTogether {V : Type} [Write V] (related : W → V → Prop) : Prop where
  writeAll : ∀ bytes left right, related left right →
    (Write.writeAll bytes left).1 = true ∧ (Write.writeAll bytes right).1 = true ∧
      related (Write.writeAll bytes left).2 (Write.writeAll bytes right).2
  flush : ∀ left right, related left right →
    (Write.flush left).1 = true ∧ (Write.flush right).1 = true ∧
      related (Write.flush left).2 (Write.flush right).2

variable {V : Type} [Write V] {r : W → V → Prop}

structure LimitedTogether (related : W → V → Prop) (left : LimitedWriter W) (right : LimitedWriter V) :
    Prop where
  inner : related left.inner right.inner
  maxBytes : left.maxBytes = right.maxBytes
  written : left.written = right.written
  exceeded : left.exceeded = right.exceeded

structure WritersTogether (related : W → V → Prop) (left : XmlStreamWriter W)
    (right : XmlStreamWriter V) : Prop where
  writer : LimitedTogether related left.writer right.writer
  state : left.state = right.state

variable {l : LimitedWriter W} {rg : LimitedWriter V}

open LimitedWriter

lemma writeAll_together (hs : SinksTogether r) (b : List UInt8) (h : LimitedTogether r l rg) :
    (l.writeAll b).1 = (rg.writeAll b).1 ∧ LimitedTogether r (l.writeAll b).2 (rg.writeAll b).2 := by
  rw [writeAll, writeAll, ← h.maxBytes, ← h.written]
  split
  · exact ⟨rfl, h⟩
  · split
    · exact ⟨rfl, h.inner, rfl, rfl, rfl⟩
    · obtain ⟨hl, hrg, hr⟩ := hs.writeAll b l.inner rg.inner h.inner
      revert hl hrg hr
      rcases Write.writeAll b l.inner with ⟨_, s⟩
      rcases Write.writeAll b rg.inner with ⟨_, s'⟩
      rintro rfl rfl hr
      exact ⟨rfl, hr, rfl, rfl, h.exceeded⟩

lemma writePieces_together (hs : SinksTogether r) (p : List (List UInt8)) (h : LimitedTogether r l rg) :
    (l.writePieces p).1 = (rg.writePieces p).1 ∧
      LimitedTogether r (l.writePieces p).2 (rg.writePieces p).2 := by
  induction p generalizing l rg with
  | nil => exact ⟨rfl, h⟩
  | cons pc p ih =>
    obtain ⟨hr, hn⟩ := writeAll_together hs pc h
    rw [writePieces, writePieces]
    revert hr hn
    rcases l.writeAll pc with ⟨w, next⟩
    rcases rg.writeAll pc with ⟨w', n'⟩
    rintro rfl hn
    cases w with
    | true => exact ih hn
    | false => exact ⟨rfl, hn⟩

/-- **A plan over two sinks** gives the same result and the same state. -/
theorem perform_lockstep (hs : SinksTogether r) (rn : Rendering) (plan : WriterPlan) :
    Stateful.Lockstep (WritersTogether r) (XmlStreamWriter.perform rn plan)
      (XmlStreamWriter.perform rn plan) := by
  intro l rg h
  rw [XmlStreamWriter.perform, XmlStreamWriter.perform, ← h.state]
  cases plan l.state with
  | error error => exact ⟨rfl, h⟩
  | ok planned =>
    obtain ⟨output, state⟩ := planned
    obtain ⟨hr, hn⟩ := writePieces_together hs (output.pieces rn) h.writer
    dsimp only
    revert hr hn
    rcases l.writer.writePieces (output.pieces rn) with ⟨written, next⟩
    rcases rg.writer.writePieces (output.pieces rn) with ⟨written', next'⟩
    rintro rfl hn
    cases written with
    | true => exact ⟨rfl, hn, rfl⟩
    | false =>
      refine ⟨?_, hn, rfl⟩
      dsimp only
      rw [error, error, hn.exceeded]

/-! ## A rendering

Markup with its delimiters as pieces of their own, and text with references for the characters that are
markup.
-/

def encodeText (text : Text) : List UInt8 := text.flatMap String.utf8EncodeChar

def escapeChar (c : Char) : Text :=
  if c = '<' then "&lt;".toList
  else if c = '>' then "&gt;".toList
  else if c = '&' then "&amp;".toList
  else if c = '\'' then "&apos;".toList
  else if c = '"' then "&quot;".toList
  else [c]

def escapeText (text : Text) : Text := text.flatMap escapeChar

/-- What stands between the angle brackets of a start tag. -/
def tagText (name : Text) (attributes : List (Text × Text)) : Text :=
  name ++ attributes.flatMap fun entry =>
    ' ' :: entry.1 ++ "=\"".toList ++ escapeText entry.2 ++ ['"']

/-- An event between its delimiters. -/
def wrapped (opening content closing : Text) : List (List UInt8) :=
  [encodeText opening, encodeText content, encodeText closing]

def markupRendering : Rendering
  | .start name attributes => wrapped ['<'] (tagText name attributes) ['>']
  | .empty name attributes => wrapped ['<'] (tagText name attributes) ['/', '>']
  | .stop name => wrapped ['<', '/'] name ['>']
  | .text value => [encodeText (escapeText value)]
  | .cdata value => wrapped "<![CDATA[".toList value "]]>".toList
  | .comment value => wrapped "<!--".toList value "-->".toList
  | .pi instruction => wrapped ['<', '?'] instruction ['?', '>']
  | .decl => wrapped ['<', '?'] "xml version=\"1.0\" encoding=\"UTF-8\"".toList ['?', '>']

end AsterForge.Xml
