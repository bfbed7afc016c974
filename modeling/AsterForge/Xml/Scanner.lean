import AsterForge.Xml.Document

/-!
# Checking a document without a tree

A document can be checked on its events alone.  The scanner keeps the names of the open elements and the
namespace bindings in scope, the latest last.
-/

namespace AsterForge.Xml

open Library

/-! ## State -/

/-- An open element, and the number of bindings outside of it. -/
structure Frame where
  qualifiedName : Text
  bindingStart : ℕ

/-- The open elements, the innermost first, and the bindings in scope, the latest last. -/
structure ScanState where
  frames : List Frame
  bindings : List NamespaceBinding
  rootName : Option Text
  rootComplete : Bool
  elements : ℕ
  textBytes : ℕ
  events : ℕ

def ScanState.new : ScanState := ⟨[], [], none, false, 0, 0, 0⟩

def namespaceIn (bindings : List NamespaceBinding) (nsPrefix : Text) : Option Text :=
  if nsPrefix = "xml".toList then some xmlNamespaceUri
  else (bindings.reverse.find? fun binding => binding.nsPrefix = nsPrefix).bind NamespaceBinding.uri

/-! ## Elements -/

/-- The attributes counted so far, and the bindings in scope. -/
structure ScannedAttributes where
  count : ℕ
  bindings : List NamespaceBinding

def scanDeclaration (policy : XmlSafetyPolicy) (scanned : ScannedAttributes)
    (entry : Option XmlAttribute) : Except XmlError ScannedAttributes := do
  refuse (policy.maxAttributesPerElement < scanned.count + 1) (.safety .tooManyAttributes)
  let entry ← okOr .invalidXml entry
  let _ ← validateQualifiedName entry.key
  match namespaceDeclarationPrefix entry.key with
  | none => return { scanned with count := scanned.count + 1 }
  | some nsPrefix =>
    let uri ← okOr .invalidXml entry.normalized
    validateNamespaceBinding nsPrefix uri.value
    refuse (policy.maxNamespaceBindings ≤ scanned.bindings.length) (.safety .tooManyNamespaces)
    return ⟨scanned.count + 1,
      scanned.bindings ++ [⟨nsPrefix, if uri.value = [] then none else some uri.value⟩]⟩

def scanAttribute (bindings : List NamespaceBinding) (entry : Option XmlAttribute) :
    Except XmlError Unit := do
  let entry ← okOr .invalidXml entry
  match namespaceDeclarationPrefix entry.key with
  | some _ => return ()
  | none =>
    refuse (∃ nsPrefix ∈ (splitQualifiedName entry.key).1, nsPrefix ≠ "xml".toList ∧
      namespaceIn bindings nsPrefix = none) (.safety .malformed)

namespace ScanState

variable (state : ScanState) (policy : XmlSafetyPolicy)

def countEvent : Except XmlError ScanState := do
  refuse (policy.maxEvents < state.events + 1) (.safety .tooManyEvents)
  return { state with events := state.events + 1 }

def countElement : Except XmlError ScanState := do
  refuse (policy.maxDepth < state.frames.length + 1) (.safety .tooDeep)
  refuse (policy.maxElements < state.elements + 1) (.safety .tooManyElements)
  return { state with elements := state.elements + 1 }

def countText (value : Text) : Except XmlError ScanState := do
  refuse (policy.maxTextBytes < state.textBytes + utf8Length value) (.safety .textTooLarge)
  refuse (state.frames = [] ∧ value.all isWhitespace = false) (.safety .malformed)
  return { state with textBytes := state.textBytes + utf8Length value }

def scanElement (tag : BytesStart) : Except XmlError (Frame × ScanState) := do
  refuse (state.frames = [] ∧ state.rootComplete) (.safety .malformed)
  let (nsPrefix, localName) ← validateQualifiedName tag.name
  let scanned ← tag.attributes.foldlM (scanDeclaration policy) ⟨0, state.bindings⟩
  refuse (∃ p ∈ nsPrefix, namespaceIn scanned.bindings p = none) (.safety .malformed)
  tag.attributes.forM (scanAttribute scanned.bindings)
  return (⟨tag.name, state.bindings.length⟩,
    { state with bindings := scanned.bindings, rootName := state.rootName.or (some localName) })

/-- An element that is complete leaves its bindings behind. -/
def leave (frame : Frame) : ScanState :=
  { state with
    bindings := state.bindings.take frame.bindingStart
    rootComplete := state.rootComplete || state.frames.isEmpty }

def startElement (tag : BytesStart) : Except XmlError ScanState := do
  let state ← state.countElement policy
  let (frame, state) ← state.scanElement policy tag
  return { state with frames := frame :: state.frames }

def emptyElement (tag : BytesStart) : Except XmlError ScanState := do
  let state ← state.countElement policy
  let (frame, state) ← state.scanElement policy tag
  return state.leave frame

def endElement (name : Text) : Except XmlError ScanState :=
  match state.frames with
  | [] => .error (.safety .malformed)
  | frame :: frames => do
    refuse (frame.qualifiedName ≠ name) (.safety .malformed)
    return { state with frames := frames }.leave frame

def scanEvent (event : Event) : Except XmlError ScanState :=
  match event with
  | .start tag => state.startElement policy tag
  | .empty tag => state.emptyElement policy tag
  | .stop name => state.endElement name
  | .text unescaped => do
    let value ← okOr .invalidXml unescaped
    state.countText policy value.value
  | .cdata value => state.countText policy value
  | .generalRef reference => do
    let value ← decodeReference reference
    state.countText policy value.value
  | .decl => do
    refuse (state.rootName ≠ none ∨ state.frames ≠ [] ∨ state.rootComplete) (.safety .malformed)
    return state
  | .docType => do
    refuse policy.rejectDoctype (.safety .externalEntity)
    refuse (state.rootName ≠ none ∨ state.frames ≠ [] ∨ state.rootComplete) (.safety .malformed)
    return state
  | .comment _ | .pi _ _ => return state

def scanRead (read : ReadEvent) : Except XmlError ScanState := do
  let state ← state.countEvent policy
  state.scanEvent policy read.event

end ScanState

/-! ## Documents -/

/-- `scan_xml`: the local name of the root of a document that passes every check. -/
def scanXml (tokenize : List UInt8 → TokenStream) (bytes : List UInt8) (policy : XmlSafetyPolicy) :
    Except XmlError (Option Text) := do
  policy.validate
  refuse (policy.maxInputBytes < bytes.length) (.safety .inputTooLarge)
  let state ← (tokenize bytes).events.foldlM (fun state read => state.scanRead policy read) ScanState.new
  match (tokenize bytes).finish with
  | .failed error => .error (mapQuickXmlErrorAt error policy.rejectDoctype)
  | .eof => do
    refuse (state.frames ≠ [] ∨ state.rootComplete = false) (.safety .malformed)
    return state.rootName

/-- What a gate reports: a limit that was crossed, and everything else as malformed. -/
def safetyError : XmlError → XmlSafetyError
  | .safety error => error
  | .invalidXml | .invalidData | .io => .malformed

/-- `validate_xml_input`: one complete document, without a tree. -/
def validateXmlInput (tokenize : List UInt8 → TokenStream) (bytes : List UInt8)
    (policy : XmlSafetyPolicy) : Except XmlSafetyError Unit :=
  ((scanXml tokenize bytes policy).map fun _ => ()).mapError safetyError

end AsterForge.Xml
