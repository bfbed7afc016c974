import AsterForge.Xml.Document

/-!
# The streaming reader

The streaming reader hands out one event at a time and keeps no document.  The prefixes in scope are kept
by the resolver of the tokenizer, which is a parameter here: it is told of every start tag before the
reader sees it, and leaves the scope of an element when the reader is done with its last event.
-/

namespace AsterForge.Xml

open Library

/-! ## The resolver -/

/-- What a resolver knows of a prefix. -/
inductive ResolveResult
  | unbound
  | bound (uri : Text)
  | unknown (nsPrefix : Text)

/-- A resolver of prefixes, made for a number of bindings that may be in scope. -/
structure NamespaceResolver (ρ : Type) where
  new : ℕ → ρ
  /-- A start tag opens a scope. -/
  push : ρ → BytesStart → Except QuickXmlError ρ
  pop : ρ → ρ
  resolveElement : ρ → Text → ResolveResult
  resolveAttribute : ρ → Text → ResolveResult

/-- The namespace that was found, unless the prefix is not known. -/
def resolveNamespaceResult : ResolveResult → Except XmlError (Option Text)
  | .unbound => .ok none
  | .bound uri => .ok (some uri)
  | .unknown _ => .error .invalidXml

/-! ## State -/

inductive XmlStreamEvent
  /-- A start tag, its namespace, and the attribute values that had to be decoded, by index. -/
  | start (tag : BytesStart) (uri : Option Text) (cachedValues : List (ℕ × Text))
  | empty (tag : BytesStart) (uri : Option Text) (cachedValues : List (ℕ × Text))
  | stop (name : Text) (uri : Option Text)
  | text (value : Text)
  | cdata (value : Text)
  | comment (value : Text)
  | processingInstruction (target content : Text)
  | declaration
  | docType
  | eof

structure StreamState where
  policy : XmlSafetyPolicy
  depth : ℕ
  elements : ℕ
  textBytes : ℕ
  events : ℕ
  rootSeen : Bool
  rootComplete : Bool
  finished : Bool

structure XmlStreamReader (ρ : Type) where
  resolver : ρ
  state : StreamState

/-- The attributes read so far, and the values that had to be decoded. -/
structure StreamedAttributes where
  index : ℕ
  cachedValues : List (ℕ × Text)

variable {ρ : Type} (resolver : NamespaceResolver ρ)

/-! ## Reading -/

namespace StreamState

variable (state : StreamState)

def readAttribute (scope : ρ) (streamed : StreamedAttributes) (entry : Option XmlAttribute) :
    Except XmlError StreamedAttributes := do
  let entry ← okOr .invalidXml entry
  refuse (state.policy.maxAttributesPerElement ≤ streamed.index) (.safety .tooManyAttributes)
  let _ ← resolveNamespaceResult (resolver.resolveAttribute scope entry.key)
  let value ← okOr .invalidXml entry.normalized
  return ⟨streamed.index + 1, if value.owned then streamed.cachedValues ++ [(streamed.index, value.value)]
    else streamed.cachedValues⟩

def countEvent : Except XmlError StreamState := do
  refuse (state.policy.maxEvents ≤ state.events) (.safety .tooManyEvents)
  return { state with events := state.events + 1 }

def beginElement (scope : ρ) (tag : BytesStart) (empty : Bool) :
    Except XmlError (Option Text × List (ℕ × Text) × StreamState) := do
  refuse (state.depth = 0 ∧ state.rootComplete) (.safety .malformed)
  refuse (state.policy.maxDepth ≤ state.depth) (.safety .tooDeep)
  refuse (state.policy.maxElements ≤ state.elements) (.safety .tooManyElements)
  let uri ← resolveNamespaceResult (resolver.resolveElement scope tag.name)
  let streamed ← tag.attributes.foldlM (state.readAttribute resolver scope) ⟨0, []⟩
  return (uri, streamed.cachedValues,
    { state with
      elements := state.elements + 1
      rootSeen := true
      depth := if empty then state.depth else state.depth + 1
      rootComplete := state.rootComplete || (empty && state.depth = 0) })

def countText (value : Text) : Except XmlError StreamState := do
  refuse (state.policy.maxTextBytes - state.textBytes < utf8Length value) (.safety .textTooLarge)
  refuse (state.depth = 0 ∧ value.all isWhitespace = false) (.safety .malformed)
  return { state with textBytes := state.textBytes + utf8Length value }

end StreamState

namespace XmlStreamReader

variable (reader : XmlStreamReader ρ)

def new (policy : XmlSafetyPolicy) : Except XmlError (XmlStreamReader ρ) := do
  policy.validate
  return ⟨resolver.new policy.maxNamespaceBindings, ⟨policy, 0, 0, 0, 0, false, false, false⟩⟩

def enterScope : Event → Except QuickXmlError ρ
  | .start tag | .empty tag => resolver.push reader.resolver tag
  | _ => .ok reader.resolver

def handle (event : Event) : Except XmlError (XmlStreamEvent × XmlStreamReader ρ) :=
  match event with
  | .start tag => do
    let (uri, cachedValues, state) ← reader.state.beginElement resolver reader.resolver tag false
    return (.start tag uri cachedValues, { reader with state := state })
  | .empty tag => do
    let (uri, cachedValues, state) ← reader.state.beginElement resolver reader.resolver tag true
    return (.empty tag uri cachedValues, ⟨resolver.pop reader.resolver, state⟩)
  | .stop name => do
    refuse (reader.state.depth = 0) (.safety .malformed)
    let uri ← resolveNamespaceResult (resolver.resolveElement reader.resolver name)
    return (.stop name uri, ⟨resolver.pop reader.resolver,
      { reader.state with
        depth := reader.state.depth - 1
        rootComplete := reader.state.rootComplete || reader.state.depth - 1 = 0 }⟩)
  | .text unescaped => do
    let value ← okOr .invalidXml unescaped
    let state ← reader.state.countText value.value
    return (.text value.value, { reader with state := state })
  | .cdata value => do
    let state ← reader.state.countText value
    return (.cdata value, { reader with state := state })
  | .comment value => return (.comment value, reader)
  | .pi target content => return (.processingInstruction target content, reader)
  | .generalRef reference => do
    let value ← decodeReference reference
    let state ← reader.state.countText value.value
    return (.text value.value, { reader with state := state })
  | .decl => do
    refuse (reader.state.rootSeen ∨ reader.state.depth ≠ 0 ∨ reader.state.rootComplete) (.safety .malformed)
    return (.declaration, reader)
  | .docType => do
    refuse reader.state.policy.rejectDoctype (.safety .externalEntity)
    refuse (reader.state.rootSeen ∨ reader.state.depth ≠ 0 ∨ reader.state.rootComplete) (.safety .malformed)
    return (.docType, reader)

/-- `read_event`, where the tokenizer finds one. -/
def readEvent (read : ReadEvent) : Except XmlError (XmlStreamEvent × XmlStreamReader ρ) := do
  let scope ← (reader.enterScope resolver read.event).mapError mapQuickXmlError
  refuse (reader.state.policy.maxInputBytes < read.position) (.safety .inputTooLarge)
  let state ← reader.state.countEvent
  handle resolver ⟨scope, state⟩ read.event

/-- `read_event`, where the tokenizer stops, at a position. -/
def readEnd (finish : ReadEnd) (position : ℕ) : Except XmlError (XmlStreamEvent × XmlStreamReader ρ) :=
  match finish with
  | .failed error => .error (mapQuickXmlError error)
  | .eof => do
    refuse (reader.state.policy.maxInputBytes < position) (.safety .inputTooLarge)
    refuse (reader.state.depth ≠ 0 ∨ reader.state.rootComplete = false) (.safety .malformed)
    return (.eof, { reader with state := { reader.state with finished := true } })

end XmlStreamReader

/-- Reads event after event, up to the end of the document.  No more than one byte over the limit is read
from the source, and the tokenizer reports the end where that is used up. -/
def drain (tokenize : List UInt8 → TokenStream) (bytes : List UInt8) (policy : XmlSafetyPolicy) :
    Except XmlError (XmlStreamReader ρ) := do
  let reader ← XmlStreamReader.new resolver policy
  let input := bytes.take (policy.maxInputBytes + 1)
  let reader ← (tokenize input).events.foldlM
    (fun reader read => (reader.readEvent resolver read).map Prod.snd) reader
  let (_, reader) ← reader.readEnd (tokenize input).finish input.length
  return reader

end AsterForge.Xml
