import AsterForge.Webdav.Xml
import AsterForge.Xml.Writer

/-!
# Multi-Status responses

A Multi-Status document is written item by item, within limits on its items, their properties and its
bytes.  It is handed out in one piece, or as a stream of chunks while its items arrive.  An element of it
repeats a declaration of a namespace only where the one in scope is another one, and adds the one that its
own name needs.
-/

namespace AsterForge.Webdav

open Library Xml

/-! ## Elements -/

def declarationName (nsPrefix : Text) : Text :=
  if nsPrefix = [] then "xmlns".toList else "xmlns:".toList ++ nsPrefix

/-- Attributes of a start tag, and the declarations in scope. -/
structure TagMaps where
  attributes : OrderedMap Text Text
  namespaces : OrderedMap Text Text

/-- A declaration of the element itself, unless it is in scope already. -/
def TagMaps.declareOwn (maps : TagMaps) (entry : Text × Text) : TagMaps where
  attributes :=
    if maps.namespaces.lookup entry.1 ≠ some entry.2 then
      maps.attributes.insert (declarationName entry.1) entry.2
    else maps.attributes
  namespaces := maps.namespaces.insert entry.1 entry.2

def scopeAttribute (namespaces : OrderedMap Text Text) (entry : Text × Text) : OrderedMap Text Text :=
  match namespaceDeclarationPrefix entry.1 with
  | some nsPrefix => namespaces.insert nsPrefix entry.2
  | none => namespaces

/-- The declarations of an element and its attributes, in a scope. -/
def ownMaps (head : DavXmlHead) (inherited : OrderedMap Text Text) : TagMaps :=
  let maps := head.namespaces.entries.foldl TagMaps.declareOwn ⟨.empty, inherited⟩
  let attributes := head.attributes.entries.foldl (fun map entry => map.insert entry.1 entry.2)
    maps.attributes
  ⟨attributes, attributes.entries.foldl scopeAttribute maps.namespaces⟩

def TagMaps.bind (maps : TagMaps) (nsPrefix uri : Text) : Except XmlError TagMaps :=
  match maps.attributes.lookup (declarationName nsPrefix) with
  | some binding =>
    if binding ≠ uri then .error .invalidData
    else .ok { maps with namespaces := maps.namespaces.insert nsPrefix uri }
  | none => .ok ⟨maps.attributes.insert (declarationName nsPrefix) uri, maps.namespaces.insert nsPrefix uri⟩

def elementAttributes (head : DavXmlHead) (inherited : OrderedMap Text Text) : Except XmlError TagMaps :=
  let maps := ownMaps head inherited
  match head.namespaceUri with
  | some uri =>
    if maps.namespaces.lookup (head.nsPrefix.getD []) ≠ some uri then maps.bind (head.nsPrefix.getD []) uri
    else .ok maps
  | none =>
    if head.nsPrefix = none ∧ ∃ uri ∈ maps.namespaces.lookup [], uri ≠ [] then maps.bind [] []
    else .ok maps

def qualifiedName (head : DavXmlHead) : Text :=
  head.nsPrefix.elim head.name fun nsPrefix => nsPrefix ++ ':' :: head.name

section

variable {W : Type} [Write W] (render : Rendering)

mutual

/-- `write_element`, for a node. -/
def writeNode (inherited : OrderedMap Text Text) : DavXmlNode → Writing W Unit
  | .element head children => do
    let maps ← Stateful.lift (elementAttributes head inherited)
    match children with
    | [] => XmlStreamWriter.emptyElement render (qualifiedName head) maps.attributes.entries
    | child :: children => do
      XmlStreamWriter.startElement render (qualifiedName head) maps.attributes.entries
      writeNode maps.namespaces child
      writeChildren maps.namespaces children
      XmlStreamWriter.endElement render
  | .text value => XmlStreamWriter.text render value
  | .cdata value => XmlStreamWriter.cdata render value
  | .comment value => XmlStreamWriter.comment render value
  | .processingInstruction target content => XmlStreamWriter.processingInstruction render target content

/-- `write_element`, for the children of an element. -/
def writeChildren (inherited : OrderedMap Text Text) : List DavXmlNode → Writing W Unit
  | [] => pure ()
  | child :: children => do
    writeNode inherited child
    writeChildren inherited children

end

/-- `write_element`. -/
def writeElement (inherited : OrderedMap Text Text) (element : DavXmlElement) : Writing W Unit :=
  writeNode render inherited element.node

end

/-! ## Items -/

/-- One group of properties with their status. -/
structure DavPropStat where
  status : ℕ
  properties : List DavXmlElement

/-- Precondition or postcondition carried inside `<D:error>`. -/
inductive DavErrorCondition
  | noExternalEntities
  | lockTokenSubmitted (href : Text)
  | lockTokenMatchesRequestUri
  | propfindFiniteDepth
  | cannotModifyVersionControlledContent
  | cannotModifyVersionControlledProperty
  | cannotModifyVersion
  | cannotRenameVersion
  | noVersionDelete

def errorConditionParts : DavErrorCondition → Text × Option Text
  | .noExternalEntities => ("no-external-entities".toList, none)
  | .lockTokenSubmitted href => ("lock-token-submitted".toList, some href)
  | .lockTokenMatchesRequestUri => ("lock-token-matches-request-uri".toList, none)
  | .propfindFiniteDepth => ("propfind-finite-depth".toList, none)
  | .cannotModifyVersionControlledContent => ("cannot-modify-version-controlled-content".toList, none)
  | .cannotModifyVersionControlledProperty => ("cannot-modify-version-controlled-property".toList, none)
  | .cannotModifyVersion => ("cannot-modify-version".toList, none)
  | .cannotRenameVersion => ("cannot-rename-version".toList, none)
  | .noVersionDelete => ("no-version-delete".toList, none)

/-- One response of the document. -/
structure DavMultiStatusItem where
  href : Text
  /-- The status of the whole resource. -/
  status : Option ℕ
  propstats : List DavPropStat
  error : Option DavErrorCondition

structure DavMultiStatusLimits where
  maximumOutputBytes : ℕ
  maximumItems : ℕ
  maximumPropertiesPerItem : ℕ
  chunkBytes : ℕ

/-! ## Failures -/

/-- What was sent when a response stops. -/
structure DavMultiStatusProgress where
  responseStarted : Bool
  emittedItems : ℕ
  emittedBytes : ℕ
  deriving DecidableEq

/-- Nothing was sent. -/
def DavMultiStatusProgress.none : DavMultiStatusProgress := ⟨false, 0, 0⟩

/-- Stable failure classification, over what a product's backend fails with. -/
inductive DavMultiStatusErrorKind (E : Type)
  | invalidLimits
  | itemLimitExceeded
  | propertyLimitExceeded
  | invalidItem
  | outputLimitExceeded
  | cancelled
  | backend (error : E)
  | xml
  | write
  deriving DecidableEq

/-- A failure, and the progress at it. -/
structure DavMultiStatusError (E : Type) where
  kind : DavMultiStatusErrorKind E
  progress : DavMultiStatusProgress
  deriving DecidableEq

inductive DavMultiStatusSourceError (E : Type)
  | backend (error : E)
  | cancelled

def DavMultiStatusSourceError.kind {E : Type} : DavMultiStatusSourceError E → DavMultiStatusErrorKind E
  | .backend error => .backend error
  | .cancelled => .cancelled

variable {E : Type}

def DavMultiStatusLimits.validate (limits : DavMultiStatusLimits) : Except (DavMultiStatusError E) Unit :=
  refuse (limits.maximumOutputBytes = 0 ∨ limits.maximumItems = 0 ∨ limits.maximumPropertiesPerItem = 0 ∨
    limits.chunkBytes = 0) ⟨.invalidLimits, .none⟩

/-- `map_writer_error`, without the progress. -/
def writerErrorKind : XmlError → DavMultiStatusErrorKind E
  | .safety .outputTooLarge => .outputLimitExceeded
  | .safety _ | .invalidXml | .invalidData => .xml
  | .io => .write

/-! ## Items in XML -/

def IsStatusCode (status : ℕ) : Prop := 100 ≤ status ∧ status < 1000
  deriving Decidable

/-- How the document is written: the events of the XML writer, and the reason phrases of status codes. -/
structure Wording where
  render : Rendering
  canonicalReason : ℕ → Option Text

def validateItem (item : DavMultiStatusItem) (maximumProperties : ℕ) :
    Except (DavMultiStatusErrorKind E) Unit := do
  refuse (maximumProperties < (item.propstats.map fun propstat => propstat.properties.length).sum)
    .propertyLimitExceeded
  refuse ((∃ status ∈ item.status, ¬ IsStatusCode status) ∨
    ∃ propstat ∈ item.propstats, ¬ IsStatusCode propstat.status) .invalidItem
  refuse (item.href = [] ∨ ¬ ((item.status = none ∧ item.propstats ≠ []) ∨
    (item.status.isSome ∧ item.propstats = []))) .invalidItem

section

variable {W : Type} [Write W] (wording : Wording)

def writeTextElement (name value : Text) : Writing W Unit := do
  XmlStreamWriter.start wording.render name
  XmlStreamWriter.text wording.render value
  XmlStreamWriter.endElement wording.render

def statusLine (status : ℕ) : Text :=
  "HTTP/1.1 ".toList ++ (toString status).toList ++ ' ' ::
    (wording.canonicalReason status).getD "Unknown".toList

def writeStatus (status : ℕ) : Writing W Unit := do
  Stateful.lift (refuse (¬ IsStatusCode status) .invalidData)
  writeTextElement wording "D:status".toList (statusLine wording status)

def writePropstat (inherited : OrderedMap Text Text) (propstat : DavPropStat) : Writing W Unit := do
  XmlStreamWriter.start wording.render "D:propstat".toList
  XmlStreamWriter.start wording.render "D:prop".toList
  propstat.properties.forM fun property => writeElement wording.render inherited property
  XmlStreamWriter.endElement wording.render
  writeStatus wording propstat.status
  XmlStreamWriter.endElement wording.render

def writeCondition (name : Text) : Option Text → Writing W Unit
  | some href => do
    XmlStreamWriter.start wording.render name
    writeTextElement wording "D:href".toList href
    XmlStreamWriter.endElement wording.render
  | none => XmlStreamWriter.empty wording.render name

def writeError (error : DavErrorCondition) : Writing W Unit := do
  XmlStreamWriter.start wording.render "D:error".toList
  writeCondition wording ("D:".toList ++ (errorConditionParts error).1) (errorConditionParts error).2
  XmlStreamWriter.endElement wording.render

def writeResponseItem (inherited : OrderedMap Text Text) (item : DavMultiStatusItem) : Writing W Unit := do
  XmlStreamWriter.start wording.render "D:response".toList
  writeTextElement wording "D:href".toList item.href
  item.propstats.forM fun propstat => writePropstat wording inherited propstat
  item.status.toList.forM fun status => writeStatus wording status
  item.error.toList.forM fun error => writeError wording error
  XmlStreamWriter.endElement wording.render

end

/-! ## The document -/

/-- A sink that counts. -/
structure TrackingWriter (W : Type) where
  inner : W
  written : ℕ

/-- The bound of the document keeps the count below what a `usize` holds. -/
instance {W : Type} [Write W] : Write (TrackingWriter W) where
  writeAll bytes writer :=
    match Write.writeAll bytes writer.inner with
    | (true, inner) => (true, ⟨inner, writer.written + bytes.length⟩)
    | (false, inner) => (false, { writer with inner := inner })
  flush writer :=
    match Write.flush writer.inner with
    | (flushed, inner) => (flushed, { writer with inner := inner })

structure DavMultiStatusWriter (W : Type) where
  writer : XmlStreamWriter (TrackingWriter W)
  inheritedNamespaces : OrderedMap Text Text
  limits : DavMultiStatusLimits
  emittedItems : ℕ

def davNamespace : Text := "DAV:".toList

section

variable {W : Type} [Write W] (wording : Wording)

/-- `writer_progress`. -/
def writerProgress (writer : XmlStreamWriter (TrackingWriter W)) (emittedItems : ℕ) :
    DavMultiStatusProgress where
  responseStarted := writer.writer.inner.written ≠ 0
  emittedItems := emittedItems
  emittedBytes := writer.writer.inner.written

namespace DavMultiStatusWriter

def progress (writer : DavMultiStatusWriter W) : DavMultiStatusProgress :=
  writerProgress writer.writer writer.emittedItems

def new (inner : W) (limits : DavMultiStatusLimits) :
    Except (DavMultiStatusError E) (DavMultiStatusWriter W) := do
  limits.validate
  let options := { XmlWriteOptions.new with maxOutputBytes := limits.maximumOutputBytes }
  let writer ← (XmlStreamWriter.withOptions wording.render (⟨inner, 0⟩ : TrackingWriter W)
    options).mapError fun error => ⟨writerErrorKind error, .none⟩
  match XmlStreamWriter.startElement wording.render "D:multistatus".toList
      [("xmlns:D".toList, davNamespace)] writer with
  | (.error error, writer) => .error ⟨writerErrorKind error, writerProgress writer 0⟩
  | (.ok _, writer) =>
    .ok ⟨writer, OrderedMap.empty.insert "D".toList davNamespace, limits, 0⟩

/-- `append`: one more item. -/
def append (item : DavMultiStatusItem) (writer : DavMultiStatusWriter W) :
    Except (DavMultiStatusError E) Unit × DavMultiStatusWriter W :=
  if writer.limits.maximumItems < writer.emittedItems + 1 then
    (.error ⟨.itemLimitExceeded, writer.progress⟩, writer)
  else
    match validateItem item writer.limits.maximumPropertiesPerItem with
    | .error kind => (.error ⟨kind, writer.progress⟩, writer)
    | .ok _ =>
      match writeResponseItem wording writer.inheritedNamespaces item writer.writer with
      | (.error error, inner) => (.error ⟨writerErrorKind error,
          { writer with writer := inner }.progress⟩, { writer with writer := inner })
      | (.ok _, inner) => (.ok (), { writer with writer := inner, emittedItems := writer.emittedItems + 1 })

/-- `finish`: the sink with the whole document. -/
def finish (writer : DavMultiStatusWriter W) : Except (DavMultiStatusError E) W :=
  match XmlStreamWriter.endElement wording.render writer.writer with
  | (.error error, inner) => .error ⟨writerErrorKind error, { writer with writer := inner }.progress⟩
  | (.ok _, inner) =>
    match inner.finish with
    | .ok sink => .ok sink.inner
    | .error error => .error ⟨writerErrorKind error, { writer with writer := inner }.progress⟩

end DavMultiStatusWriter

def appendAll : List DavMultiStatusItem → DavMultiStatusWriter W →
    Except (DavMultiStatusError E) Unit × DavMultiStatusWriter W
  | [], writer => (.ok (), writer)
  | item :: items, writer =>
    match writer.append wording item with
    | (.error error, writer) => (.error error, writer)
    | (.ok _, writer) => appendAll items writer

/-- `dav_multistatus_bytes`. -/
def davMultistatusBytes (items : List DavMultiStatusItem) (limits : DavMultiStatusLimits) :
    Except (DavMultiStatusError E) (List UInt8) := do
  let writer ← DavMultiStatusWriter.new wording ([] : List UInt8) limits
  match appendAll wording items writer with
  | (.error error, _) => .error error
  | (.ok _, writer) => writer.finish wording

end

/-! ## Chunks -/

/-- A sink that cuts what it is given into chunks. -/
structure ChunkBuffer where
  chunkBytes : ℕ
  current : List UInt8
  ready : List (List UInt8)

def ChunkBuffer.new (chunkBytes : ℕ) : ChunkBuffer := ⟨chunkBytes, [], []⟩

/-- The loop of `write`; it takes at least one byte each time, and `fuel` is the number of bytes. -/
def ChunkBuffer.write : ℕ → List UInt8 → ChunkBuffer → ChunkBuffer
  | 0, _, buffer => buffer
  | fuel + 1, bytes, buffer =>
    if bytes = [] then buffer
    else
      let taken := min (buffer.chunkBytes - buffer.current.length) bytes.length
      let current := buffer.current ++ bytes.take taken
      if current.length = buffer.chunkBytes then
        ChunkBuffer.write fuel (bytes.drop taken) ⟨buffer.chunkBytes, [], buffer.ready ++ [current]⟩
      else ChunkBuffer.write fuel (bytes.drop taken) { buffer with current := current }

instance : Write ChunkBuffer where
  writeAll bytes buffer := (true, buffer.write bytes.length bytes)
  flush buffer := (true, buffer)

/-- `take_chunks`: what was written, with the last chunk as it is. -/
def ChunkBuffer.takeChunks (buffer : ChunkBuffer) : List (List UInt8) × ChunkBuffer :=
  (buffer.ready ++ (if buffer.current = [] then [] else [buffer.current]),
    { buffer with current := [], ready := [] })

/-! ## The stream -/

/-- What the source of the items has when it is polled; behind the last poll it is at its end. -/
inductive SourcePoll (E : Type)
  | pending
  | item (item : DavMultiStatusItem)
  | failed (error : DavMultiStatusSourceError E)

inductive Poll (E : Type)
  | pending
  | chunk (bytes : List UInt8)
  | failed (error : DavMultiStatusError E)
  | done
  deriving DecidableEq

/-- A response that is being streamed; what still comes from the source is a part of it. -/
structure StreamingMultiStatus (E : Type) where
  source : List (SourcePoll E)
  writer : Option (DavMultiStatusWriter ChunkBuffer)
  pending : List (List UInt8)
  limits : DavMultiStatusLimits
  progress : DavMultiStatusProgress
  done : Bool

namespace StreamingMultiStatus

variable (wording : Wording)

def new (source : List (SourcePoll E)) (limits : DavMultiStatusLimits) : StreamingMultiStatus E :=
  ⟨source, none, [], limits, .none, false⟩

/-- `multistatus_stream_response`, without the parts of the response that are always the same. -/
def response (source : List (SourcePoll E)) (limits : DavMultiStatusLimits) :
    Except (DavMultiStatusError E) (StreamingMultiStatus E) := do
  limits.validate
  return new source limits

def newWriter (limits : DavMultiStatusLimits) :
    Except (DavMultiStatusError E) (DavMultiStatusWriter ChunkBuffer) :=
  DavMultiStatusWriter.new wording (.new (min limits.chunkBytes limits.maximumOutputBytes)) limits

variable (stream : StreamingMultiStatus E)

/-- The writer, which is created when it is needed first. -/
def takeWriter : Except (DavMultiStatusError E) (DavMultiStatusWriter ChunkBuffer) :=
  match stream.writer with
  | some writer => .ok writer
  | none => newWriter wording stream.limits

def stop : StreamingMultiStatus E :=
  { stream with done := true, pending := [], writer := none }

def sentError (error : DavMultiStatusError E) : DavMultiStatusError E :=
  ⟨error.kind, { error.progress with
    responseStarted := stream.progress.responseStarted
    emittedBytes := stream.progress.emittedBytes }⟩

def send (chunk : List UInt8) (pending : List (List UInt8)) : StreamingMultiStatus E :=
  { stream with
    pending := pending
    progress := { stream.progress with
      responseStarted := true
      emittedBytes := stream.progress.emittedBytes + chunk.length } }

/-- An item is written; its chunks are pending behind that. -/
def takeItem (item : DavMultiStatusItem) : Except (DavMultiStatusError E) (StreamingMultiStatus E) :=
  match stream.takeWriter wording with
  | .error error => .error ⟨error.kind, stream.progress⟩
  | .ok writer =>
    match writer.append wording item with
    | (.error error, _) => .error (stream.sentError error)
    | (.ok _, writer) =>
      let (chunks, buffer) := writer.writer.writer.inner.inner.takeChunks
      .ok { stream with
        progress := { stream.progress with emittedItems := stream.progress.emittedItems + 1 }
        pending := stream.pending ++ chunks
        writer := some { writer with writer := { writer.writer with
          writer := { writer.writer.writer with
            inner := { writer.writer.writer.inner with inner := buffer } } } } }

/-- The document is finished; its last chunks are pending behind that. -/
def takeEnd : Except (DavMultiStatusError E) (StreamingMultiStatus E) :=
  match stream.takeWriter wording with
  | .error error => .error ⟨error.kind, stream.progress⟩
  | .ok writer =>
    match writer.finish wording with
    | .error error => .error (stream.sentError error)
    | .ok buffer => .ok { stream with
        pending := stream.pending ++ buffer.takeChunks.1
        writer := none
        done := true }

/-- What is left to do without the source: a pending chunk is sent, and a stream that is done ends. -/
def sendPending : Option (Poll E × StreamingMultiStatus E) :=
  match stream.pending with
  | chunk :: pending => some (.chunk chunk, stream.send chunk pending)
  | [] => if stream.done then some (.done, stream) else none

/-- The loop of `poll_next`, over what the source has. -/
def pollSource (source : List (SourcePoll E)) (stream : StreamingMultiStatus E) :
    Poll E × StreamingMultiStatus E :=
  match stream.sendPending with
  | some (poll, stream) => (poll, { stream with source := source })
  | none =>
    match source with
    | .pending :: source => (.pending, { stream with source := source })
    | .failed error :: source =>
      (.failed ⟨error.kind, stream.progress⟩, { stream.stop with source := source })
    | .item item :: source =>
      match stream.takeItem wording item with
      | .error error => (.failed error, { stream.stop with source := source })
      | .ok stream => pollSource source stream
    | [] =>
      match stream.takeEnd wording with
      | .error error => (.failed error, { stream.stop with source := [] })
      | .ok stream =>
        match stream.sendPending with
        | some (poll, stream) => (poll, { stream with source := [] })
        | none => (.done, { stream with source := [] })

/-- `poll_next`. -/
def pollNext : Poll E × StreamingMultiStatus E :=
  pollSource wording stream.source stream

def polls : ℕ → StreamingMultiStatus E → List (Poll E) × StreamingMultiStatus E
  | 0, stream => ([], stream)
  | count + 1, stream =>
    let polled := stream.pollNext wording
    let more := polls count polled.2
    (polled.1 :: more.1, more.2)

end StreamingMultiStatus

end AsterForge.Webdav
